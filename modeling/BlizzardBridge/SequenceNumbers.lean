import BlizzardBridge.ArtnetLink
import BlizzardBridge.Sacn

/-! The sequence numbers of the two senders. Both put the number into the datagram and
then move it on, away from zero, by an addition that wraps. -/
namespace BlizzardBridge
open CArray Program EventMachine

/-- The update in both senders. -/
def nextNumber (x : UInt8) : UInt8 := if x = 0 then 1 else x + 1

/-- A send: how its calls turn out, the universe, and the buffer at its time. -/
abbrev Send := Calls × UInt16 × Bytes

def Device.sendStep (dest : UInt32) (d : Device) (e : Send) : Device × List (List UInt8) :=
  let o := sendDMXDataArtnet e.1 dest e.2.1 (d.withDmx e.2.2)
  (o.state, datagrams o.log)

def SacnDevice.sendStep (d : SacnDevice) (e : Send) : SacnDevice × List (List UInt8) :=
  let o := sendDMXDatasACN e.1 e.2.1 (d.withDmx e.2.2)
  (o.state, datagrams o.log)

def ART_SEQUENCE_INDEX : ℕ := 12
def SACN_SEQ_INDEX : ℕ := 111

/-- The sequence bytes of the datagrams that some sends make of a new packet. -/
def Device.numbers (dest : UInt32) (d : Device) (es : List Send) : List UInt8 :=
  (trace (sendStep dest) d.createPacketArtnet es).map fun x => x.2.getD ART_SEQUENCE_INDEX 0

def SacnDevice.createPacket (d : SacnDevice) : SacnDevice :=
  { d with packet := createDataPacketsACN d.packet d.board.ram }

def SacnDevice.numbers (d : SacnDevice) (es : List Send) : List UInt8 :=
  (trace sendStep d.createPacket es).map fun x => x.2.getD SACN_SEQ_INDEX 0

/-- The datagrams are numbered from 1 on, and 1 follows 255. -/
def InSequence (xs : List UInt8) : Prop := ∀ k (hk : k < xs.length), xs[k].toNat = k % 255 + 1

theorem nextNumber_toNat (x : UInt8) : (nextNumber x).toNat = (x.toNat + 1) % 256 := by
  unfold nextNumber
  split_ifs with h
  · subst h
    rfl
  · rw [UInt8.toNat_add]
    rfl

theorem iterate_nextNumber (k : ℕ) : (nextNumber^[k] 1).toNat = (k + 1) % 256 := by
  induction k with
  | zero => rfl
  | succ k ih =>
    rw [Function.iterate_succ_apply', nextNumber_toNat, ih]
    omega

/-- The 256th number is the first that is wrong: it is zero. -/
theorem inSequence_iterate_iff (n : ℕ) : InSequence (List.iterate nextNumber 1 n) ↔ n ≤ 255 := by
  have hnumber (k : ℕ) (hk : k < (List.iterate nextNumber 1 n).length) :
      (List.iterate nextNumber 1 n)[k].toNat = (k + 1) % 256 := by
    rw [List.getElem_iterate, iterate_nextNumber]
  constructor
  · intro hall
    by_contra hlong
    have hlt : 255 < (List.iterate nextNumber 1 n).length := by
      rw [List.length_iterate]
      omega
    have hwrong := hall 255 hlt
    rw [hnumber] at hwrong
    exact absurd hwrong (by decide)
  · intro hshort k hk
    rw [hnumber]
    rw [List.length_iterate] at hk
    omega

section artnet
variable (dest : UInt32) (d : Device) (e : Send)

theorem artnet_sendStep_state : (d.sendStep dest e).1 =
    if !d.board.artnet.enabled then d.withDmx e.2.2
    else if !e.1.pbufOk then (d.withDmx e.2.2).setUniverse e.2.1
    else ((d.withDmx e.2.2).setUniverse e.2.1).nextSequence :=
  sendDMXData_state e.1 dest e.2.1 (d.withDmx e.2.2)

theorem artnet_sendStep_sent : (d.sendStep dest e).2 =
    if d.board.artnet.enabled && e.1.pbufOk then
      [take ((d.withDmx e.2.2).setUniverse e.2.1).payloadAt MAX_ARTNET_BUFFER]
    else [] := by
  let d' := d.withDmx e.2.2
  have hon : d'.board.artnet.enabled = d.board.artnet.enabled := rfl
  change datagrams (sendDMXDataArtnet e.1 dest e.2.1 d').log = _
  cases hon' : d.board.artnet.enabled with
  | false =>
    rw [sendDMXData_disabled _ _ _ d' (hon.trans hon')]
    rfl
  | true =>
    cases hpbuf : e.1.pbufOk with
    | false =>
      rw [sendDMXData_crash _ _ _ d' (hon.trans hon') hpbuf]
      rfl
    | true =>
      rw [sendDMXData_log _ _ _ d' (hon.trans hon') hpbuf]
      rfl

/-- A node at which the packet has been made, and that is enabled or not. -/
structure Device.Prepared (on : Bool) (d : Device) : Prop where
  made : d.packet.Made
  enabled : d.board.artnet.enabled = on

variable {d} {on : Bool}

theorem prepared_sendStep (h : d.Prepared on) : (d.sendStep dest e).1.Prepared on := by
  refine ⟨made_send e.1 dest e.2.1 _ h.made, ?_⟩
  rw [artnet_sendStep_state]
  split_ifs
  · exact h.enabled
  · exact h.enabled
  · exact h.enabled

/-- The number stands behind the identifier, the opcode and the version. -/
theorem artnet_number (h : d.packet.Made) (u : UInt16) :
    (take (d.setUniverse u).payloadAt MAX_ARTNET_BUFFER).getD ART_SEQUENCE_INDEX 0 =
      d.packet.sequence := by
  have hin : ART_SEQUENCE_INDEX < MAX_ARTNET_BUFFER := by decide
  have hheader : ART_SEQUENCE_INDEX < ART_DMX_DATA_INDEX := by decide
  rw [List.getD_eq_getElem?_getD, getElem?_take _ hin, Option.getD_some, Device.payloadAt,
    if_pos hheader]
  change (d.packet.id ++ word d.packet.opcode ++ _ ++ _).getD 12 0 = _
  rw [h.id]
  rfl

theorem artnet_stamps (h : d.Prepared on) :
    ((d.sendStep dest e).2 = [] ∧ (d.sendStep dest e).1.packet.sequence = d.packet.sequence) ∨
      ∃ bytes, (d.sendStep dest e).2 = [bytes] ∧ bytes.getD ART_SEQUENCE_INDEX 0 = d.packet.sequence ∧
        (d.sendStep dest e).1.packet.sequence = nextNumber d.packet.sequence := by
  rw [artnet_sendStep_state, artnet_sendStep_sent]
  cases d.board.artnet.enabled with
  | false => exact Or.inl ⟨rfl, rfl⟩
  | true =>
    cases e.1.pbufOk with
    | false => exact Or.inl ⟨rfl, rfl⟩
    | true => exact Or.inr ⟨_, rfl, artnet_number (d := d.withDmx e.2.2) h.made e.2.1, rfl⟩

theorem artnet_numbers (d : Device) (es : List Send) : d.numbers dest es =
    List.iterate nextNumber 1 (es.countP fun e => d.board.artnet.enabled && e.1.pbufOk) := by
  have hstart : d.createPacketArtnet.Prepared d.board.artnet.enabled := ⟨⟨rfl, rfl, rfl, rfl⟩, rfl⟩
  have hcount := length_trace (m := Device.sendStep dest)
    (p := fun e => d.board.artnet.enabled && e.1.pbufOk)
    (fun _ e h => prepared_sendStep dest e h)
    (fun d' e h => by rw [artnet_sendStep_sent, h.enabled]; split_ifs <;> rfl) hstart es
  have hstamps := stamps_eq_iterate (fun d => d.packet.sequence) nextNumber
    (fun bytes => bytes.getD ART_SEQUENCE_INDEX 0) (fun _ e h => prepared_sendStep dest e h)
    (fun _ e h => artnet_stamps dest e h) hstart es
  rw [hcount] at hstamps
  exact hstamps

end artnet

section sacn
variable (d : SacnDevice) (e : Send)

theorem sacn_sendStep : d.sendStep e =
    if d.bound && e.1.pbufOk then
      (((d.withDmx e.2.2).setUniverse e.2.1).nextSequence, [(d.withDmx e.2.2).datagram e.2.1])
    else ((d.withDmx e.2.2).setUniverse e.2.1, []) := by
  have hstep : d.sendStep e = (d.withDmx e.2.2).step (.sendDMXDatasACN e.1 e.2.1) := rfl
  have hcond : (d.bound && e.1.pbufOk) = true ↔
      e.1.pbufOk = true ∧ (d.withDmx e.2.2).bound = true := by
    rw [Bool.and_eq_true, and_comm]
    rfl
  rw [hstep, SacnDevice.step_send]
  exact if_congr hcond.symm rfl rfl

theorem sacn_number (u : UInt16) : (d.datagram u).getD SACN_SEQ_INDEX 0 = d.packet SACN_SEQ_INDEX := by
  have hin : SACN_SEQ_INDEX < MAX_SACN_BUFFER := by decide
  have hheader : SACN_SEQ_INDEX < SACN_DMX_START_INDEX := by decide
  rw [SacnDevice.datagram, List.getD_eq_getElem?_getD, getElem?_take _ hin, Option.getD_some,
    SacnDevice.payloadAt, if_pos hheader]
  rfl

theorem sacn_bound : (d.sendStep e).1.bound = d.bound := by
  rw [sacn_sendStep]
  split_ifs <;> rfl

theorem sacn_stamps :
    ((d.sendStep e).2 = [] ∧ (d.sendStep e).1.packet SACN_SEQ_INDEX = d.packet SACN_SEQ_INDEX) ∨
      ∃ bytes, (d.sendStep e).2 = [bytes] ∧
        bytes.getD SACN_SEQ_INDEX 0 = d.packet SACN_SEQ_INDEX ∧
        (d.sendStep e).1.packet SACN_SEQ_INDEX = nextNumber (d.packet SACN_SEQ_INDEX) := by
  rw [sacn_sendStep]
  split_ifs
  · exact Or.inr ⟨_, rfl, sacn_number _ _, rfl⟩
  · exact Or.inl ⟨rfl, rfl⟩

theorem sacn_numbers (es : List Send) : d.numbers es =
    List.iterate nextNumber 1 (es.countP fun e => d.bound && e.1.pbufOk) := by
  have hbound (d' : SacnDevice) (e : Send) (h : d'.bound = d.bound) :
      (d'.sendStep e).1.bound = d.bound := (sacn_bound d' e).trans h
  have hcount := length_trace (m := SacnDevice.sendStep) (p := fun e => d.bound && e.1.pbufOk) hbound
    (fun d' e h => by rw [sacn_sendStep, h]; split_ifs <;> rfl) (s := d.createPacket) rfl es
  have hstamps := stamps_eq_iterate (fun d => d.packet SACN_SEQ_INDEX) nextNumber
    (fun bytes => bytes.getD SACN_SEQ_INDEX 0) hbound (fun d' e _ => sacn_stamps d' e)
    (s := d.createPacket) rfl es
  rw [hcount] at hstamps
  exact hstamps

end sacn

/-- Both senders number their datagrams rightly as long as they make no more than 255. -/
theorem sequence_numbers_iff (dest : UInt32) (d : Device) (s : SacnDevice) (es : List Send) :
    (InSequence (d.numbers dest es) ↔
      (es.countP fun e => d.board.artnet.enabled && e.1.pbufOk) ≤ 255) ∧
    (InSequence (s.numbers es) ↔ (es.countP fun e => s.bound && e.1.pbufOk) ≤ 255) := by
  rw [artnet_numbers, sacn_numbers]
  exact ⟨inSequence_iterate_iff _, inSequence_iterate_iff _⟩

/-- The 256th datagram of a run has the number zero. -/
theorem sequence_numbers_fail : ¬ ∀ (dest : UInt32) (d : Device) (s : SacnDevice) (es : List Send),
    InSequence (d.numbers dest es) ∧ InSequence (s.numbers es) := by
  intro hall
  let es : List Send := List.replicate 256 (allCalls, 1, fun _ => 0)
  have hsequence := (hall 0 zeroDevice ⟨startedNode, fun _ => 0, true⟩ es).1
  have hcount : (es.countP fun e => zeroDevice.board.artnet.enabled && e.1.pbufOk) = 256 := by
    rw [List.countP_replicate, if_pos (by decide)]
  rw [artnet_numbers, hcount, inSequence_iterate_iff] at hsequence
  exact absurd hsequence (by decide)

end BlizzardBridge
