import BlizzardBridge.Rdm
import Mathlib.Data.Fintype.Basic
import Mathlib.Tactic.IntervalCases

/-! The answer to a discovery. Each byte of the own identifier is sent twice, once with
the odd and once with the even bits forced to one, so that the two bytes together give
it back. -/
namespace BlizzardBridge
open CArray

-- Offsets in `rdm_unique_packet`.
def PREAMBLE_SEPERATOR : ℕ := 7
def MAN_ID_MSB : ℕ := 8
def MAN_ID_LSB : ℕ := 10
def DEV_ID3 : ℕ := 12
def DEV_ID2 : ℕ := 14
def DEV_ID1 : ℕ := 16
def DEV_ID0 : ℕ := 18
def CHECKSUM_MSB : ℕ := 20
def CHECKSUM_LSB : ℕ := 22

def encodedPair (x : UInt8) : List UInt8 := [x ||| 0xAA, x ||| 0x55]

/-- The part of the answer in front of its checksum. -/
def putUuid (uuid packet : Bytes) : Bytes :=
  let packet := store packet 0 (List.replicate 7 0xFE)
  let packet := store packet PREAMBLE_SEPERATOR [0xAA]
  let packet := store packet MAN_ID_MSB (encodedPair (uuid 0))
  let packet := store packet MAN_ID_LSB (encodedPair (uuid 1))
  let packet := store packet DEV_ID3 (encodedPair (uuid 2))
  let packet := store packet DEV_ID2 (encodedPair (uuid 3))
  let packet := store packet DEV_ID1 (encodedPair (uuid 4))
  store packet DEV_ID0 (encodedPair (uuid 5))

namespace RdmDev

/-- The sum starts at the preamble, and both its bytes go to the field of the high-order one. -/
def setRdmUniquePacket (uuid : Bytes) (d : RdmDev) : RdmDev :=
  let packet := putUuid uuid d.txDisco
  let checksum := sumLoop packet 12
  let packet := store packet CHECKSUM_MSB (encodedPair (checksum >>> 8).toUInt8)
  let packet := store packet CHECKSUM_MSB (encodedPair (checksum &&& 0xFF).toUInt8)
  { d with txDisco := packet }

/-- With an event group, the start clears the device and builds its answer. -/
def startRDM (uuid : Bytes) : RdmDev := setRdmUniquePacket uuid ⟨fun _ => 0, fun _ => 0⟩

end RdmDev

section pairs

theorem pair_and (x m : UInt8) : (x ||| m) &&& (x ||| ~~~m) = x := by
  apply eq_of_bits
  intro i hi
  simp only [UInt8.toBitVec_and, UInt8.toBitVec_or, UInt8.toBitVec_not, BitVec.getElem_and,
    BitVec.getElem_or, BitVec.getElem_not]
  cases x.toBitVec[i] <;> cases m.toBitVec[i] <;> rfl

theorem or_and_mask (x m : UInt8) : (x ||| m) &&& m = m := by
  apply eq_of_bits
  intro i hi
  simp only [UInt8.toBitVec_and, UInt8.toBitVec_or, BitVec.getElem_and, BitVec.getElem_or]
  cases x.toBitVec[i] <;> cases m.toBitVec[i] <;> rfl

/-- Where one byte has all bits of a mask and the other all bits outside it, their
conjunction determines them. -/
theorem eq_and_or_mask {a b m : UInt8} (ha : a &&& m = m) (hb : b &&& ~~~m = ~~~m) :
    a = a &&& b ||| m := by
  apply eq_of_bits
  intro i hi
  have ha' := congrArg (fun u : UInt8 => u.toBitVec[i]) ha
  have hb' := congrArg (fun u : UInt8 => u.toBitVec[i]) hb
  simp only [UInt8.toBitVec_and, UInt8.toBitVec_or, UInt8.toBitVec_not, BitVec.getElem_and,
    BitVec.getElem_or, BitVec.getElem_not] at ha' hb' ⊢
  revert ha' hb'
  cases a.toBitVec[i] <;> cases b.toBitVec[i] <;> cases m.toBitVec[i] <;> simp

/-- The two bytes share the bits of `x` and have each other bit once. -/
theorem pair_sum (x : UInt8) : (x ||| 0xAA).toNat + (x ||| 0x55).toNat = x.toNat + 255 := by
  have h : ∀ y : Fin 256,
      (UInt8.ofNat y ||| 0xAA).toNat + (UInt8.ofNat y ||| 0x55).toNat = y.val + 255 := by
    decide +kernel
  simpa only [UInt8.ofNat_toNat] using h ⟨x.toNat, x.toNat_lt⟩

end pairs

/-- The pair at `i` carries the byte `x`. -/
structure CodedAt (packet : Bytes) (i : ℕ) (x : UInt8) : Prop where
  decoded : packet i &&& packet (i + 1) = x
  first : packet i &&& 0xAA = 0xAA
  second : packet (i + 1) &&& 0x55 = 0x55

/-- There is one pair for each byte. -/
theorem codedAt_iff {packet : Bytes} {i : ℕ} {x : UInt8} :
    CodedAt packet i x ↔ packet i = x ||| 0xAA ∧ packet (i + 1) = x ||| 0x55 := by
  have hnot : ~~~(0xAA : UInt8) = 0x55 := rfl
  have hnot' : ~~~(0x55 : UInt8) = 0xAA := rfl
  constructor
  · rintro ⟨rfl, hfirst, hsecond⟩
    constructor
    · exact eq_and_or_mask hfirst (hnot ▸ hsecond)
    · have h := eq_and_or_mask hsecond (hnot' ▸ hfirst)
      rwa [UInt8.and_comm] at h
  · rintro ⟨hfirst, hsecond⟩
    rw [← hnot] at hsecond
    constructor
    · rw [hfirst, hsecond, pair_and]
    · rw [hfirst, or_and_mask]
    · rw [hsecond, hnot, or_and_mask]

theorem codedAt_inj {packet : Bytes} {i : ℕ} {x y : UInt8} (h : CodedAt packet i x) :
    CodedAt packet i y ↔ x = y := by
  constructor
  · intro h'
    rw [← h.decoded, h'.decoded]
  · rintro rfl
    exact h

theorem codedAt_congr {p q : Bytes} {i j : ℕ} {x : UInt8} (h0 : p i = q j) (h1 : p (i + 1) = q (j + 1)) :
    CodedAt p i x ↔ CodedAt q j x := by
  rw [codedAt_iff, codedAt_iff, h0, h1]

theorem codedAt_shift {packet : Bytes} {n i : ℕ} {x : UInt8} :
    CodedAt (fun j => packet (n + j)) i x ↔ CodedAt packet (n + i) x := codedAt_congr rfl rfl

theorem byteSum_pairs {packet u : Bytes} {n : ℕ} (h : ∀ k < n, CodedAt packet (2 * k) (u k)) :
    byteSum packet (2 * n) = 255 * n + byteSum u n := by
  induction n with
  | zero => rfl
  | succ n ih =>
    have hn : CodedAt packet (2 * n) (u n) := h n (Nat.lt_succ_self n)
    obtain ⟨hfirst, hsecond⟩ := codedAt_iff.mp hn
    have hpair : (packet (2 * n)).toNat + (packet (2 * n + 1)).toNat = (u n).toNat + 255 := by
      rw [hfirst, hsecond, pair_sum]
    have hrest := ih fun k hk => h k (Nat.lt_succ_of_lt hk)
    rw [show 2 * (n + 1) = 2 * n + 1 + 1 by omega, byteSum_succ, byteSum_succ, byteSum_succ u n, hrest]
    omega

/-- The sum of the twelve bytes that carry the identifier. -/
def uuidSum (packet : Bytes) : ℕ := byteSum (fun i => packet (MAN_ID_MSB + i)) 12 % 65536

/-- The answer decodes to the identifier `uuid`, and its checksum to the sum of the
bytes that carry it. -/
structure Announces (packet uuid : Bytes) : Prop where
  preamble : ∀ i < 7, packet i = 0xFE
  seperator : packet PREAMBLE_SEPERATOR = 0xAA
  coded : ∀ k < 6, CodedAt packet (MAN_ID_MSB + 2 * k) (uuid k)
  msb : CodedAt packet CHECKSUM_MSB (UInt8.ofNat (uuidSum packet / 256))
  lsb : CodedAt packet CHECKSUM_LSB (UInt8.ofNat (uuidSum packet))

theorem uuidSum_of_coded {packet uuid : Bytes}
    (h : ∀ k < 6, CodedAt packet (MAN_ID_MSB + 2 * k) (uuid k)) :
    uuidSum packet = 1530 + byteSum uuid 6 := by
  have hsum : byteSum (fun i => packet (MAN_ID_MSB + i)) 12 = 255 * 6 + byteSum uuid 6 := by
    apply byteSum_pairs (n := 6)
    intro k hk
    exact codedAt_shift.mpr (h k hk)
  have hbound := byteSum_le uuid 6
  rw [uuidSum, hsum]
  omega

section putUuid
variable (uuid packet : Bytes)

theorem putUuid_preamble {i : ℕ} (hi : i < 8) :
    putUuid uuid packet i = if i < 7 then 0xFE else 0xAA := by
  interval_cases i <;> rfl

theorem putUuid_coded {k : ℕ} (hk : k < 6) :
    CodedAt (putUuid uuid packet) (MAN_ID_MSB + 2 * k) (uuid k) := by
  apply codedAt_iff.mpr
  interval_cases k <;> exact ⟨rfl, rfl⟩

/-- The sum of the source covers the preamble and no more than two bytes of the identifier. -/
theorem sumLoop_putUuid :
    (sumLoop (putUuid uuid packet) 12).toNat = 2458 + (uuid 0).toNat + (uuid 1).toNat := by
  have hpreamble : byteSum (putUuid uuid packet) 8 = 1948 := by
    rw [byteSum_congr fun i hi => putUuid_preamble uuid packet hi]
    rfl
  have hcoded : byteSum (fun i => putUuid uuid packet (8 + i)) 4 = 255 * 2 + byteSum uuid 2 := by
    apply byteSum_pairs (n := 2)
    intro k hk
    exact codedAt_shift.mpr (putUuid_coded uuid packet (Nat.lt_trans hk (by decide)))
  have huuid : byteSum uuid 2 = (uuid 0).toNat + (uuid 1).toNat := by
    rw [byteSum_succ, byteSum_succ]
    exact congrArg (· + _) (Nat.zero_add _)
  have h0 := (uuid 0).toNat_lt
  have h1 := (uuid 1).toNat_lt
  rw [toNat_sumLoop, show 12 = 8 + 4 by rfl, byteSum_add, hpreamble, hcoded, huuid]
  omega

end putUuid

namespace RdmDev
variable (uuid : Bytes) (d : RdmDev)

theorem setRdmUniquePacket_before {i : ℕ} (hi : i < CHECKSUM_MSB) :
    (setRdmUniquePacket uuid d).txDisco i = putUuid uuid d.txDisco i := by
  simp only [setRdmUniquePacket, store, if_neg (Nat.not_le_of_lt hi)]

theorem setRdmUniquePacket_msb :
    CodedAt (setRdmUniquePacket uuid d).txDisco CHECKSUM_MSB
      (sumLoop (putUuid uuid d.txDisco) 12 &&& 0xFF).toUInt8 :=
  codedAt_iff.mpr ⟨rfl, rfl⟩

/-- Nothing is written to the field of the low-order byte. -/
theorem setRdmUniquePacket_lsb (x : UInt8) :
    CodedAt (setRdmUniquePacket uuid d).txDisco CHECKSUM_LSB x ↔ CodedAt d.txDisco CHECKSUM_LSB x :=
  codedAt_congr rfl rfl

theorem setRdmUniquePacket_coded {k : ℕ} (hk : k < 6) :
    CodedAt (setRdmUniquePacket uuid d).txDisco (MAN_ID_MSB + 2 * k) (uuid k) := by
  have hend : MAN_ID_MSB + 2 * k + 1 < CHECKSUM_MSB := by
    simp only [MAN_ID_MSB, CHECKSUM_MSB]
    omega
  apply (codedAt_congr _ _).mpr (putUuid_coded uuid d.txDisco hk)
  · exact setRdmUniquePacket_before uuid d (Nat.lt_of_succ_lt hend)
  · exact setRdmUniquePacket_before uuid d hend

/-- Preamble and identifier are always right. The checksum is so exactly when the low byte of
the sum taken by the source is the high byte of the right sum, and the low byte was there before. -/
theorem setRdmUniquePacket_iff :
    Announces (setRdmUniquePacket uuid d).txDisco uuid ↔
      (154 + (uuid 0).toNat + (uuid 1).toNat) % 256 = (1530 + byteSum uuid 6) / 256 ∧
        CodedAt d.txDisco CHECKSUM_LSB (UInt8.ofNat (1530 + byteSum uuid 6)) := by
  have hcoded (k : ℕ) (hk : k < 6) := setRdmUniquePacket_coded uuid d hk
  have hsum := uuidSum_of_coded hcoded
  have hmsb : CodedAt (setRdmUniquePacket uuid d).txDisco CHECKSUM_MSB
      (UInt8.ofNat (uuidSum (setRdmUniquePacket uuid d).txDisco / 256)) ↔
      (154 + (uuid 0).toNat + (uuid 1).toNat) % 256 = (1530 + byteSum uuid 6) / 256 := by
    have hcode : (sumLoop (putUuid uuid d.txDisco) 12 &&& 0xFF).toUInt8.toNat =
        (154 + (uuid 0).toNat + (uuid 1).toNat) % 256 := by
      rw [UInt16.toNat_toUInt8, UInt16.toNat_and, sumLoop_putUuid]
      change (_ &&& 2 ^ 8 - 1) % 2 ^ 8 = _
      rw [Nat.and_two_pow_sub_one_eq_mod]
      omega
    have hhigh : (UInt8.ofNat ((1530 + byteSum uuid 6) / 256)).toNat = (1530 + byteSum uuid 6) / 256 := by
      have hbound := byteSum_le uuid 6
      rw [UInt8.toNat_ofNat']
      omega
    rw [hsum, codedAt_inj (setRdmUniquePacket_msb uuid d), ← UInt8.toNat_inj, hcode, hhigh]
  constructor
  · intro h
    have hlsb := h.lsb
    rw [hsum, setRdmUniquePacket_lsb] at hlsb
    exact ⟨hmsb.mp h.msb, hlsb⟩
  · rintro ⟨h, hlsb⟩
    constructor
    · intro i hi
      rw [setRdmUniquePacket_before uuid d (Nat.lt_trans hi (by decide)),
        putUuid_preamble uuid d.txDisco (Nat.lt_succ_of_lt hi), if_pos hi]
    · rw [setRdmUniquePacket_before uuid d (by decide)]
      exact putUuid_preamble uuid d.txDisco (by decide)
    · exact hcoded
    · exact hmsb.mpr h
    · rw [hsum, setRdmUniquePacket_lsb]
      exact hlsb

/-- The start leaves zeros in the low-order field, which no pair consists of. -/
theorem startRDM_never_announces : ¬ Announces (startRDM uuid).txDisco uuid := by
  intro h
  have hzero : CodedAt (fun _ => 0) CHECKSUM_LSB (UInt8.ofNat (uuidSum (startRDM uuid).txDisco)) :=
    (setRdmUniquePacket_lsb uuid _ _).mp h.lsb
  exact absurd hzero.first (by decide)

theorem startRDM_msb_differs : let uuid := store (fun _ => 0) 0 [0x7F, 0xF0, 0, 0, 0, 1]
    ¬ Announces (startRDM uuid).txDisco uuid ∧
      (startRDM uuid).txDisco 20 &&& (startRDM uuid).txDisco 21 ≠
        UInt8.ofNat (uuidSum (startRDM uuid).txDisco / 256) := by
  intro uuid
  refine ⟨fun h => ?_, by decide⟩
  exact absurd h.msb.decoded (by decide)

end RdmDev

end BlizzardBridge
