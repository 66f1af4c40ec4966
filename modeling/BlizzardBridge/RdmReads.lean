import BlizzardBridge.Rdm
import BlizzardBridge.ProgramLoop
import Mathlib.Data.Int.Notation

/-! Where the parser of a received packet and its check read. The length of the parameter
data is an index into them, one byte further at most 256, and there is room for 233; the sum
goes up to the message length less 2, which is a negative number for a length of 0 or 1. -/
namespace BlizzardBridge
open CArray Program

def PD_SIZE : ℕ := 233
def RDM_PACKET_SIZE : ℕ := 258

/-- A read of the received packet, by the name that the code gives the byte. -/
inductive RdmRead where
  | messageLen
  | pdl
  | pd (i : ℕ)
  | checksum (i : ℕ)
  -- `((uint8_t *)&dev._rx)[i]`
  | byte (i : ℕ)
  deriving DecidableEq, Repr

namespace RdmRead

def offset : RdmRead → ℕ
  | .messageLen => MESSAGE_LEN
  | .pdl => PDL
  | .pd i => PD + i
  | .checksum i => CHECKSUM + i
  | .byte i => i

/-- The index is one of the field that is named. -/
def InField : RdmRead → Prop
  | .pd i => i < PD_SIZE
  | .checksum i => i < 2
  | .byte i => i < RDM_PACKET_SIZE
  | _ => True

/-- The byte is one of the packet, in whichever field. -/
def InPacket (r : RdmRead) : Prop := r.offset < RDM_PACKET_SIZE

theorem inPacket_of_inField (r : RdmRead) (h : r.InField) : r.InPacket := by
  cases r with
  | messageLen => exact show MESSAGE_LEN < RDM_PACKET_SIZE by decide
  | pdl => exact show PDL < RDM_PACKET_SIZE by decide
  | pd i =>
    have hi : i < 233 := h
    exact show 23 + i < 258 by omega
  | checksum i =>
    have hi : i < 2 := h
    exact show 256 + i < 258 by omega
  | byte i => exact h

end RdmRead

abbrev RdmProg := Prog RdmDev RdmRead

namespace RdmDev

def readRx (r : RdmRead) : RdmProg UInt8 := step [r] fun d => (d.rx r.offset, d)

def writeChecksum (i : ℕ) (x : UInt8) : RdmProg Unit :=
  modify fun d => { d with rx := Function.update d.rx (CHECKSUM + i) x }

/-- `parse_rdm_packet` with its reads. `pdl + 1` is an `int`. -/
def parseRdmPacketReads : RdmProg Unit := do
  let pdl ← readRx .pdl
  let msb ← readRx (.pd pdl.toNat)
  writeChecksum 0 msb
  let lsb ← readRx (.pd (pdl.toNat + 1))
  writeChecksum 1 lsb

/-- One turn of the sum, for the index `i` and the sum so far. -/
def sumTurn (v : UInt8 × UInt16) : RdmProg (UInt8 × UInt16 ⊕ UInt16) := do
  let messageLen ← readRx .messageLen
  -- both sides of the test are promoted to `int`
  if (v.1.toNat : ℤ) < (messageLen.toNat : ℤ) - 2 then do
    let x ← readRx (.byte v.1.toNat)
    pure (Sum.inl (v.1 + 1, v.2 + x.toUInt16))
  else pure (Sum.inr v.2)

/-- The comparison behind the loop. -/
def compareChecksum (checksum : UInt16) : RdmProg UInt8 := do
  let msb ← readRx (.checksum 0)
  let lsb ← readRx (.checksum 1)
  let check := msb.toUInt16 <<< 8 ||| (if lsb ≠ 0 then 1 else 0)
  pure (if check ≠ checksum then 0 else 1)

/-- `check_rdm_checksum` with its reads, given the turns that its loop may take. -/
def checkRdmChecksumReads (fuel : ℕ) : RdmProg UInt8 :=
  whileLoop sumTurn fuel (0, 0) >>= compareChecksum

/-- Both functions read nothing but what meets `P`, and the check returns. -/
structure ReadsOnly (P : RdmRead → Prop) (d : RdmDev) : Prop where
  parse : Logs P parseRdmPacketReads d
  check : ∀ fuel, Logs P (checkRdmChecksumReads fuel) d
  returns : ∃ matched, Returns checkRdmChecksumReads d matched d

section reads
variable {d : RdmDev} {P : RdmRead → Prop} {r : RdmRead}

theorem ends_readRx : Ends (readRx r) d (d.rx r.offset) d := ends_step

theorem logs_readRx : Logs P (readRx r) d ↔ P r := List.forall_mem_singleton

theorem logs_readRx_bind {α : Type} {f : UInt8 → RdmProg α} :
    Logs P (readRx r >>= f) d ↔ P r ∧ Logs P (f (d.rx r.offset)) d := by
  rw [logs_bind_of_ends ends_readRx, logs_readRx]

/-- The reads apart, this is the parser. -/
theorem ends_parseRdmPacketReads : Ends parseRdmPacketReads d () d.parseRdmPacket := by
  apply ends_readRx.bind
  apply ends_readRx.bind
  apply ends_step.bind
  apply ends_readRx.bind
  exact ends_step

theorem logs_parseRdmPacketReads :
    Logs P parseRdmPacketReads d ↔ P .pdl ∧ P (.pd d.pdl) ∧ P (.pd (d.pdl + 1)) := by
  have hwrite (d : RdmDev) (x : UInt8) : Logs P (writeChecksum 1 x) d := nofun
  rw [parseRdmPacketReads, logs_readRx_bind, logs_readRx_bind, writeChecksum, logs_modify_bind,
    logs_readRx_bind, and_iff_left (hwrite _ _)]
  rfl

theorem messageLen_lt : d.messageLen < 256 := UInt8.toNat_lt _

/-- The `int` on the right of the loop's test. -/
theorem lt_bound_iff {i n : ℕ} : (i : ℤ) < (n : ℤ) - 2 ↔ i < n - 2 := by omega

theorem ends_sumTurn (v : UInt8 × UInt16) :
    Ends (sumTurn v) d (if v.1.toNat < d.messageLen - 2
      then Sum.inl (v.1 + 1, v.2 + (d.rx v.1.toNat).toUInt16) else Sum.inr v.2) d := by
  apply ends_readRx.bind
  change Ends (if (v.1.toNat : ℤ) < (d.messageLen : ℤ) - 2 then _ else _) d _ d
  by_cases hturn : v.1.toNat < d.messageLen - 2
  · rw [if_pos (lt_bound_iff.mpr hturn), if_pos hturn]
    exact ends_readRx.bind ends_pure
  · rw [if_neg (mt lt_bound_iff.mp hturn), if_neg hturn]
    exact ends_pure

/-- The loop returns for every message length, with the sum. -/
theorem returns_sum :
    Returns (fun n => whileLoop sumTurn n (0, 0)) d (sumLoop d.rx (d.messageLen - 2)) d := by
  -- the index does not wrap: the bound is at most 253
  have htoNat (i : ℕ) (hi : i ≤ d.messageLen - 2) : (UInt8.ofNat i).toNat = i := by
    have hmax := d.messageLen_lt
    exact UInt8.toNat_ofNat_of_lt' (show i < 256 by omega)
  apply returns_count (c := fun i => (UInt8.ofNat i, sumLoop d.rx i)) (S := fun _ => d)
    (n := d.messageLen - 2)
  · intro i hi
    have hturn := ends_sumTurn (d := d) (UInt8.ofNat i, sumLoop d.rx i)
    rw [htoNat i hi.le, if_pos hi] at hturn
    rw [UInt8.ofNat_add]
    exact hturn
  · have hturn := ends_sumTurn (d := d)
      (UInt8.ofNat (d.messageLen - 2), sumLoop d.rx (d.messageLen - 2))
    rw [htoNat _ le_rfl, if_neg (Nat.lt_irrefl _)] at hturn
    exact hturn

/-- The reads apart, this is the check. -/
theorem returns_checkRdmChecksumReads : Returns checkRdmChecksumReads d d.checkRdmChecksum d := by
  apply (returns_bind_iff (F := fun _ => compareChecksum) (fuelMono_whileLoop sumTurn (0, 0))
    fun _ => fuelMono_const).mpr
  refine ⟨_, d, returns_sum, ?_⟩
  apply returns_const_iff.mpr
  apply ends_readRx.bind
  apply ends_readRx.bind
  exact ends_pure

section check
variable (hlen : P .messageLen) (hbyte : ∀ i < d.messageLen - 2, P (.byte i))
include hlen hbyte

theorem logs_sumTurn (v : UInt8 × UInt16) : Logs P (sumTurn v) d := by
  rw [sumTurn, logs_readRx_bind, and_iff_right hlen]
  change Logs P (if (v.1.toNat : ℤ) < (d.messageLen : ℤ) - 2 then _ else _) d
  split
  · next hlt =>
    rw [logs_readRx_bind]
    exact ⟨hbyte v.1.toNat (lt_bound_iff.mp hlt), logs_pure⟩
  · exact logs_pure

/-- Whatever the message length is, the loop reads it and bytes below it. -/
theorem logs_sum (fuel : ℕ) (v : UInt8 × UInt16) : Logs P (whileLoop sumTurn fuel v) d := by
  refine logs_whileLoop (P := P) (I := fun _ s => s = d) ?_ ?_ fuel rfl
  · rintro v _ rfl
    exact logs_sumTurn hlen hbyte v
  · rintro v _ v' s' rfl hv
    exact (hv.unique (ends_sumTurn v)).2

theorem logs_checkRdmChecksumReads (hchecksum : ∀ i < 2, P (.checksum i)) (fuel : ℕ) :
    Logs P (checkRdmChecksumReads fuel) d := by
  have hcompare (c : UInt16) (d : RdmDev) : Logs P (compareChecksum c) d := by
    rw [compareChecksum, logs_readRx_bind, logs_readRx_bind]
    exact ⟨hchecksum 0 (by decide), hchecksum 1 (by decide), logs_pure⟩
  apply (logs_bind_left fun c s' _ => hcompare c s').mpr
  exact logs_sum hlen hbyte fuel (0, 0)

end check

/-- The parser decides: the check keeps to the packet. -/
theorem readsOnly_iff (hfield : ∀ r : RdmRead, r.InField → P r) :
    d.ReadsOnly P ↔ P (.pd d.pdl) ∧ P (.pd (d.pdl + 1)) := by
  have hlen : P .messageLen := hfield _ trivial
  have hbyte : ∀ i < d.messageLen - 2, P (.byte i) := by
    intro i hi
    have hmax := d.messageLen_lt
    exact hfield (.byte i) (show i < 258 by omega)
  have hchecksum : ∀ i < 2, P (.checksum i) := fun i hi => hfield (.checksum i) hi
  constructor
  · intro h
    exact (logs_parseRdmPacketReads.mp h.parse).2
  · intro h
    exact {
      parse := logs_parseRdmPacketReads.mpr ⟨hfield _ trivial, h⟩
      check := logs_checkRdmChecksumReads hlen hbyte hchecksum
      returns := ⟨_, returns_checkRdmChecksumReads⟩ }

end reads

/-- The parser and the check stay in the fields that they name as long as the data and the two
bytes behind them fit, and in the packet for two bytes more, which are those of the checksum. -/
theorem readsOnly_packet_iff (d : RdmDev) :
    (d.ReadsOnly RdmRead.InField ↔ d.pdl ≤ 231) ∧ (d.ReadsOnly RdmRead.InPacket ↔ d.pdl ≤ 233) := by
  constructor
  · apply (readsOnly_iff fun _ hr => hr).trans
    change d.pdl < 233 ∧ d.pdl + 1 < 233 ↔ _
    omega
  · apply (readsOnly_iff RdmRead.inPacket_of_inField).trans
    change 23 + d.pdl < 258 ∧ 23 + (d.pdl + 1) < 258 ↔ _
    omega

/-- The largest length of the parameter data. -/
def longRequest : RdmDev where
  rx := store (fun _ => 0) PDL [255]
  txDisco := fun _ => 0

theorem not_readsOnly_longRequest :
    ¬ longRequest.ReadsOnly RdmRead.InField ∧ ¬ longRequest.ReadsOnly RdmRead.InPacket := by
  have hread (P : RdmRead → Prop) (h : longRequest.ReadsOnly P) : P (.pd 255) :=
    (logs_parseRdmPacketReads.mp h.parse).2.1
  constructor
  · intro h
    exact absurd (show 255 < 233 from hread _ h) (by decide)
  · intro h
    exact absurd (show 23 + 255 < 258 from hread _ h) (by decide)

end RdmDev

end BlizzardBridge
