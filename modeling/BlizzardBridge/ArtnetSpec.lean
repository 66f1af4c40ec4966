import BlizzardBridge.Artnet

/-! How the parts of the receive callback end, and what they report. -/
namespace BlizzardBridge
open CArray Program

section step
variable {β : Type} {P : Access → Prop} {b : Board}

@[simp] theorem logs_readPayload {p : Pbuf} {i : ℕ} :
    Logs P (readPayload p i) b ↔ P (.readPayload i) := List.forall_mem_singleton

@[simp] theorem logs_readReply {block : Bytes} {size i : ℕ} :
    Logs P (readReply block size i) b ↔ P (.readReply i size) := List.forall_mem_singleton

@[simp] theorem logs_writeDmx {i : ℕ} {v : UInt8} :
    Logs P (writeDmx i v) b ↔ P (.writeDmx i) := List.forall_mem_singleton

@[simp] theorem logs_readPayload_bind {p : Pbuf} {i : ℕ} {f : UInt8 → Node β} :
    Logs P (readPayload p i >>= f) b ↔ P (.readPayload i) ∧ Logs P (f (p.payload i)) b := by
  rw [logs_bind_of_ends (x := readPayload p i) ends_step, logs_readPayload]

end step

def byteTurn (a : Bytes) (i : ℕ) (r : Bytes × Board) : Bytes × Board :=
  (Function.update r.1 i (a i), r.2)

def slotTurn (a : Bytes) (off i : ℕ) (r : Unit × Board) : Unit × Board :=
  ((), { r.2 with dmx := Function.update r.2.dmx (i + off) (a i) })

section copy
variable {src : ℕ → Node UInt8} {a : Bytes} {P : Access → Prop} {Q : ℕ → Prop} {b : Board}

theorem turns_byteTurn (dst : Bytes) (n : ℕ) :
    turns (byteTurn a) n (dst, b) = (copyLoop dst 0 a n, b) := by
  induction n with
  | zero => rfl
  | succ n ih => rw [turns, ih, byteTurn, copyLoop, Nat.zero_add]

theorem turns_slotTurn (off n : ℕ) :
    turns (slotTurn a off) n ((), b) = ((), { b with dmx := copyLoop b.dmx off a n }) := by
  induction n with
  | zero => rfl
  | succ n ih => rw [turns, ih, slotTurn, copyLoop, Nat.add_comm]

variable (hsrc : ∀ i b, Ends (src i) b (a i) b)
include hsrc

theorem ends_byteTurn (i : ℕ) (dst : Bytes) (b : Board) :
    Ends (do let x ← src i; pure (Function.update dst i x)) b
      (byteTurn a i (dst, b)).1 (byteTurn a i (dst, b)).2 := (hsrc i b).bind ends_pure

theorem ends_slotTurn (off i : ℕ) (u : Unit) (b : Board) :
    Ends (do let x ← src i; writeDmx (i + off) x) b
      (slotTurn a off i (u, b)).1 (slotTurn a off i (u, b)).2 := (hsrc i b).bind ends_step

theorem ends_copyBytes (n : ℕ) (dst : Bytes) :
    Ends (copyBytes src n dst) b (copyLoop dst 0 a n) b := by
  have hloop := ends_loop (ends_byteTurn hsrc) (a := dst) (s := b) n
  rwa [turns_byteTurn] at hloop

theorem ends_copySlots (off n : ℕ) :
    Ends (copySlots src off n) b () { b with dmx := copyLoop b.dmx off a n } := by
  have hloop := ends_loop (ends_slotTurn hsrc off) (a := ()) (s := b) n
  rwa [turns_slotTurn] at hloop

theorem logs_copyBytes (hlogs : ∀ i b, Logs P (src i) b ↔ Q i) (n : ℕ) (dst : Bytes) :
    Logs P (copyBytes src n dst) b ↔ ∀ i < n, Q i := by
  apply logs_loop (ends_byteTurn hsrc)
  intro i dst b
  rw [logs_bind_of_ends (hsrc i b), hlogs]
  exact and_iff_left logs_pure

theorem logs_copySlots (hlogs : ∀ i b, Logs P (src i) b ↔ Q i) (off n : ℕ) :
    Logs P (copySlots src off n) b ↔ ∀ i < n, Q i ∧ P (.writeDmx (i + off)) := by
  apply logs_loop (ends_slotTurn hsrc off)
  intro i u b
  rw [logs_bind_of_ends (hsrc i b), hlogs, logs_writeDmx]

end copy

theorem ends_readPayload (p : Pbuf) (off : ℕ → ℕ) (i : ℕ) (b : Board) :
    Ends (readPayload p (off i)) b (p.payload (off i)) b := ends_step

theorem ends_readReply (block : Bytes) (size i : ℕ) (b : Board) :
    Ends (readReply block size i) b (block i) b := ends_step

section parts
variable (p : Pbuf) (b : Board)

theorem ends_clearSlots : Ends clearSlots b () { b with dmx := clearDMX b.dmx } :=
  ends_copySlots (a := fun _ => 0) (fun _ _ => ends_pure) 0 DMX_MAX_SLOTS

theorem ends_addressCommand (command : UInt8) : Ends (addressCommand command) b ()
    (if command = 0x90 then { b with dmx := clearDMX b.dmx } else b) := by
  unfold addressCommand
  split
  · exact ends_clearSlots b
  · exact ends_pure

/-- The four bytes at `off`, the last one first. -/
def Pbuf.reversed (off : ℕ) : Bytes :=
  copyLoop (fun _ => 0) 0 (fun i => p.payload (off + (3 - i))) 4

theorem ends_readAddress (off : ℕ) : Ends (readAddress p off) b (p.reversed off) b :=
  ends_copyBytes (fun i b => ends_readPayload p (fun i => off + (3 - i)) i b) 4 fun _ => 0

theorem ends_readName (k i : ℕ) : Ends (readName p k i) b () b := by
  induction k generalizing i with
  | zero => exact ends_pure
  | succ k ih =>
    apply Ends.bind (ends_step (g := fun b => (p.payload (ADDRESS_LONG_NAME + i), b)))
    split
    · exact ends_pure
    · exact ih (i + 1)

def Pbuf.HasID (k i : ℕ) : Prop := ∀ j < k, p.payload (i + j) = ARTNET_ID (i + j)

instance (k i : ℕ) : Decidable (p.HasID k i) := inferInstanceAs (Decidable (∀ j < k, _))

theorem Pbuf.hasID_succ (k i : ℕ) :
    p.HasID (k + 1) i ↔ p.payload i = ARTNET_ID i ∧ p.HasID k (i + 1) := by
  unfold Pbuf.HasID
  rw [Nat.forall_lt_succ_left]
  simp only [Nat.add_zero, Nat.add_assoc, Nat.add_comm 1]

theorem ends_checkID (k i : ℕ) : Ends (checkID p k i) b (decide (p.HasID k i)) b := by
  induction k generalizing i with
  | zero => exact ends_pure
  | succ k ih =>
    apply Ends.bind (ends_step (g := fun b => (p.payload i, b)))
    by_cases hi : p.payload i = ARTNET_ID i
    · have hiff : p.HasID (k + 1) i ↔ p.HasID k (i + 1) := by rw [p.hasID_succ, and_iff_right hi]
      rw [if_neg (not_not.mpr hi), decide_eq_decide.mpr hiff]
      exact ih (i + 1)
    · have hno : ¬ p.HasID (k + 1) i := fun h => hi ((p.hasID_succ k i).mp h).1
      rw [if_pos hi, decide_eq_false hno]
      exact ends_pure

end parts

theorem shiftByte_toNat (h : UInt8) : (h.toUInt16 <<< 8).toNat = h.toNat <<< 8 := by
  have hlt := h.toNat_lt
  rw [UInt16.toNat_shiftLeft, UInt8.toNat_toUInt16]
  change h.toNat <<< 8 % 2 ^ 16 = _
  rw [Nat.mod_eq_of_lt]
  rw [Nat.shiftLeft_eq]
  omega

theorem joinBytes_toNat (h l : UInt8) :
    (joinBytes h l).toNat = 256 * h.toNat + if l = 0 then 0 else 1 := by
  rw [joinBytes, UInt16.toNat_or, shiftByte_toNat]
  split
  · rw [Nat.shiftLeft_eq]
    simp
    omega
  · change h.toNat <<< 8 ||| 1 = _
    rw [← Nat.shiftLeft_add_eq_or_of_lt (by decide), Nat.shiftLeft_eq]
    omega

/-- The number that the node makes of two bytes: of the low-order byte it sees only
whether it is zero. -/
def Pbuf.seen (p : Pbuf) (hi lo : ℕ) : ℕ :=
  256 * (p.payload hi).toNat + if p.payload lo = 0 then 0 else 1

theorem joinBytes_eq_iff (p : Pbuf) (hi lo : ℕ) (v : UInt16) :
    joinBytes (p.payload hi) (p.payload lo) = v ↔ p.seen hi lo = v.toNat := by
  rw [← UInt16.toNat_inj, joinBytes_toNat]
  rfl

-- The opcode of a datagram, low-order byte first.
def Pbuf.opcode (p : Pbuf) : UInt16 := (p.payload 9).toUInt16 <<< 8 ||| (p.payload 8).toUInt16

def Pbuf.universeSeen (p : Pbuf) : ℕ := p.seen ART_DATA_UNIVERSE_H_INDEX ART_DATA_UNIVERSE_L_INDEX
def Pbuf.slotsSeen (p : Pbuf) : ℕ := p.seen ART_DATA_SLOTS_H_INDEX ART_DATA_SLOTS_L_INDEX

/-- What ArtIpProg does to the configuration. -/
def Board.program (command : UInt8) (ip : Bytes) (b : Board) : Board :=
  if !progEn command then b
  else if dhcpEn command then b.setDHCPEnable ENABLE
  else if progIP command then (b.setIP ip).setDHCPEnable DISABLE
  else b

theorem ends_progCommand (p : Pbuf) (command : UInt8) (b : Board) :
    Ends (progCommand p command) b () (b.program command (p.reversed PROG_IP)) := by
  unfold progCommand Board.program
  split_ifs
  · exact ends_pure
  · exact ends_step
  · exact (ends_readAddress p b PROG_IP).bind (Ends.bind ends_step ends_step)
  · exact ends_pure

end BlizzardBridge
