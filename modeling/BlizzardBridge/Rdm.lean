import BlizzardBridge.CArray

/-! The packets of Remote Device Management as byte arrays, each field at its offset in
the packed structure, and the check of a received one. -/
namespace BlizzardBridge
open CArray

-- Offsets in `rdm_packet`, whose parameter data has room for 233 bytes.
def MESSAGE_LEN : ℕ := 2
def PDL : ℕ := 22
def PD : ℕ := 23
def CHECKSUM : ℕ := 256

/-- The device with its received packet and the answer to a discovery. -/
structure RdmDev where
  rx : Bytes
  txDisco : Bytes

namespace RdmDev

def pdl (d : RdmDev) : ℕ := (d.rx PDL).toNat

def messageLen (d : RdmDev) : ℕ := (d.rx MESSAGE_LEN).toNat

def parseRdmPacket (d : RdmDev) : RdmDev :=
  let rx := Function.update d.rx CHECKSUM (d.rx (PD + d.pdl))
  { d with rx := Function.update rx (CHECKSUM + 1) (rx (PD + (d.pdl + 1))) }

/-- The number in the two bytes of the checksum; `&&` makes a truth value of the second. -/
def receivedChecksum (d : RdmDev) : UInt16 :=
  (d.rx CHECKSUM).toUInt16 <<< 8 ||| (if d.rx (CHECKSUM + 1) ≠ 0 then 1 else 0)

def checkRdmChecksum (d : RdmDev) : UInt8 :=
  if d.receivedChecksum ≠ sumLoop d.rx (d.messageLen - 2) then 0 else 1

/-- The two bytes behind the parameter data. -/
def checksumMsb (d : RdmDev) : ℕ := (d.rx (PD + d.pdl)).toNat

def checksumLsb (d : RdmDev) : ℕ := (d.rx (PD + d.pdl + 1)).toNat

/-- The sum of everything before the checksum. -/
def packetSum (d : RdmDev) : ℕ := byteSum d.rx (d.messageLen - 2) % 65536

def ChecksumValid (d : RdmDev) : Prop := d.packetSum = 256 * d.checksumMsb + d.checksumLsb

instance (d : RdmDev) : Decidable d.ChecksumValid := inferInstanceAs (Decidable (_ = _))

section parsed
variable {d : RdmDev}

theorem parseRdmPacket_below {i : ℕ} (hi : i < CHECKSUM) : d.parseRdmPacket.rx i = d.rx i := by
  have h1 : i ≠ CHECKSUM := Nat.ne_of_lt hi
  have h2 : i ≠ CHECKSUM + 1 := by omega
  simp only [parseRdmPacket, Function.update_of_ne h2, Function.update_of_ne h1]

theorem parseRdmPacket_msb : d.parseRdmPacket.rx CHECKSUM = d.rx (PD + d.pdl) := by
  have h : CHECKSUM ≠ CHECKSUM + 1 := Nat.ne_of_lt (Nat.lt_succ_self _)
  simp only [parseRdmPacket, Function.update_of_ne h, Function.update_self]

/-- As long as the data stays below the field, the second byte is not read from it. -/
theorem parseRdmPacket_lsb (hpdl : d.pdl ≤ 230) :
    d.parseRdmPacket.rx (CHECKSUM + 1) = d.rx (PD + d.pdl + 1) := by
  have h : PD + (d.pdl + 1) ≠ CHECKSUM := by
    simp only [PD, CHECKSUM]
    omega
  simp only [parseRdmPacket, Function.update_self, Function.update_of_ne h, Nat.add_assoc]

/-- Parsing does not touch what the sum is taken over. -/
theorem sumLoop_parseRdmPacket (hlen : d.messageLen = d.pdl + 25) (hpdl : d.pdl ≤ 230) :
    (sumLoop d.parseRdmPacket.rx (d.messageLen - 2)).toNat = d.packetSum := by
  have hbelow : ∀ i < d.messageLen - 2, d.parseRdmPacket.rx i = d.rx i := by
    intro i hi
    apply parseRdmPacket_below
    simp only [CHECKSUM]
    omega
  rw [toNat_sumLoop, byteSum_congr hbelow, packetSum]

end parsed

/-- The shifted byte and the truth value do not overlap. -/
theorem toNat_receivedChecksum (d : RdmDev) :
    d.receivedChecksum.toNat =
      256 * (d.rx CHECKSUM).toNat + (if d.rx (CHECKSUM + 1) ≠ 0 then 1 else 0) := by
  have hshift (x y : UInt16) (hx : x.toNat < 256) (hy : y.toNat < 256) :
      (x <<< 8 ||| y).toNat = 256 * x.toNat + y.toNat := by
    have hor : x.toNat <<< 8 ||| y.toNat = x.toNat <<< 8 + y.toNat :=
      (Nat.shiftLeft_add_eq_or_of_lt hy _).symm
    have hsize : x.toNat <<< 8 < 65536 := by rw [Nat.shiftLeft_eq]; omega
    rw [UInt16.toNat_or, UInt16.toNat_shiftLeft]
    change x.toNat <<< 8 % 65536 ||| y.toNat = _
    rw [Nat.mod_eq_of_lt hsize, hor, Nat.shiftLeft_eq, Nat.mul_comm]
  have hbyte : (d.rx CHECKSUM).toUInt16.toNat = (d.rx CHECKSUM).toNat := rfl
  rw [receivedChecksum, hshift _ _ (hbyte ▸ UInt8.toNat_lt _) (by split <;> decide), hbyte]
  split <;> rfl

/-- The check answers rightly exactly on a low-order byte that `&&` does not change, and
on a sum that neither number matches. -/
theorem checkRdmChecksum_iff (d : RdmDev) (hlen : d.messageLen = d.pdl + 25) (hpdl : d.pdl ≤ 230) :
    d.parseRdmPacket.checkRdmChecksum = (if d.ChecksumValid then 1 else 0) ↔
      d.checksumLsb ≤ 1 ∨ (d.packetSum ≠ 256 * d.checksumMsb + d.checksumLsb ∧
        d.packetSum ≠ 256 * d.checksumMsb + 1) := by
  have hlength : d.parseRdmPacket.messageLen = d.messageLen := by
    rw [messageLen, parseRdmPacket_below (by decide), messageLen]
  have hcompared : d.parseRdmPacket.receivedChecksum =
      sumLoop d.parseRdmPacket.rx (d.parseRdmPacket.messageLen - 2) ↔
      256 * d.checksumMsb + (if d.checksumLsb ≠ 0 then 1 else 0) = d.packetSum := by
    have hzero : d.rx (PD + d.pdl + 1) ≠ 0 ↔ d.checksumLsb ≠ 0 := not_congr UInt8.toNat_inj.symm
    rw [hlength, ← UInt16.toNat_inj, sumLoop_parseRdmPacket hlen hpdl, toNat_receivedChecksum,
      parseRdmPacket_msb, parseRdmPacket_lsb hpdl]
    simp only [hzero, checksumMsb]
  have hresult : d.parseRdmPacket.checkRdmChecksum =
      if 256 * d.checksumMsb + (if d.checksumLsb ≠ 0 then 1 else 0) = d.packetSum then 1 else 0 := by
    rw [checkRdmChecksum, ite_not]
    exact if_congr hcompared rfl rfl
  have hvalid : d.ChecksumValid ↔ d.packetSum = 256 * d.checksumMsb + d.checksumLsb := Iff.rfl
  rw [hresult]
  rcases Nat.lt_or_ge 1 d.checksumLsb with h | h
  · -- the truth value 1 stands in for the low-order byte
    have hone : (if d.checksumLsb ≠ 0 then 1 else 0) = 1 := if_pos (by omega)
    have hdiffer : ¬ (1 : UInt8) = 0 := by decide
    rw [hone]
    by_cases hv : d.ChecksumValid
    · have hsum := hvalid.mp hv
      rw [if_pos hv, if_neg (by omega)]
      refine iff_of_false (fun h0 => hdiffer h0.symm) ?_
      omega
    · rw [if_neg hv]
      by_cases hother : 256 * d.checksumMsb + 1 = d.packetSum
      · rw [if_pos hother]
        refine iff_of_false hdiffer ?_
        omega
      · rw [if_neg hother]
        exact iff_of_true rfl (Or.inr ⟨fun h1 => hv (hvalid.mpr h1), fun h1 => hother h1.symm⟩)
  · have hsame : (if d.checksumLsb ≠ 0 then 1 else 0) = d.checksumLsb := by
      split <;> omega
    rw [hsame]
    refine iff_of_true ?_ (Or.inl h)
    exact if_congr (eq_comm.trans hvalid.symm) rfl rfl

/-- A packet without parameter data whose bytes add up to 25, as its checksum says. -/
def emptyRequest : RdmDev where
  rx := store (store (fun _ => 0) MESSAGE_LEN [25]) (PD + 1) [25]
  txDisco := fun _ => 0

theorem checkRdmChecksum_iff_emptyRequest :
    emptyRequest.messageLen = emptyRequest.pdl + 25 ∧ emptyRequest.pdl ≤ 230 ∧
      (emptyRequest.parseRdmPacket.checkRdmChecksum =
          (if emptyRequest.ChecksumValid then 1 else 0) ↔
        emptyRequest.checksumLsb ≤ 1 ∨
          (emptyRequest.packetSum ≠ 256 * emptyRequest.checksumMsb + emptyRequest.checksumLsb ∧
            emptyRequest.packetSum ≠ 256 * emptyRequest.checksumMsb + 1)) :=
  ⟨by decide, by decide, checkRdmChecksum_iff emptyRequest (by decide) (by decide)⟩

theorem checkRdmChecksum_rejects_valid :
    emptyRequest.messageLen = emptyRequest.pdl + 25 ∧ emptyRequest.pdl ≤ 230 ∧
      emptyRequest.ChecksumValid ∧ emptyRequest.parseRdmPacket.checkRdmChecksum = 0 := by
  decide

end RdmDev

end BlizzardBridge
