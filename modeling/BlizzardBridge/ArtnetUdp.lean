import BlizzardBridge.ArtnetBounds
import BlizzardBridge.ArtnetDispatch
import BlizzardBridge.ArtnetSend

/-! What the three senders of the node do to the connection that they share: each sets
the remote address, sends to it and clears it. -/
namespace BlizzardBridge
open CArray Program

def Access.isUdp : Access → Bool
  | .connect _ => true
  | .send _ => true
  | .disconnect => true
  | _ => false

/-- The calls on the connection among the accesses. -/
def udp (log : List Access) : List Access := log.filter Access.isUdp

theorem udp_append (l m : List Access) : udp (l ++ m) = udp l ++ udp m := List.filter_append l m

theorem udp_cons_call {e : Access} (he : e.isUdp = true) (l : List Access) :
    udp (e :: l) = e :: udp l := List.filter_cons_of_pos he

theorem udp_cons_other {e : Access} (he : e.isUdp = false) (l : List Access) :
    udp (e :: l) = udp l := List.filter_cons_of_neg (by rw [he]; decide)

theorem mem_udp_iff {e : Access} {l : List Access} : e ∈ udp l ↔ e ∈ l ∧ e.isUdp = true :=
  List.mem_filter

theorem udp_of_logs {α : Type} {x : Node α} {b : Board}
    (h : Logs (fun e => e.isUdp = false) x b) : udp (x b).log = [] := by
  apply List.filter_eq_nil_iff.mpr
  intro e he
  rw [h e he]
  decide

/-- A first part that leaves the connection alone. -/
theorem udp_bind {α β : Type} {x : Node α} {f : α → Node β} {a : α} {b b' : Board}
    (hends : Ends x b a b') (hx : Logs (fun e => e.isUdp = false) x b) :
    udp ((x >>= f) b).log = udp (f a b').log := by
  rw [log_bind_of_ends hends, udp_append, udp_of_logs hx, List.nil_append]

theorem udp_bind_left {α β : Type} {x : Node α} {f : α → Node β} {b : Board}
    (hf : ∀ a b', Ends x b a b' → udp (f a b').log = []) : udp ((x >>= f) b).log = udp (x b).log := by
  rcases ends_or_crashes x b with hcrash | ⟨a, ha⟩
  · rw [bind_of_crash hcrash]
  · rw [log_bind_of_ends ha, udp_append, hf a _ ha, List.append_nil]

-- What the parts report that only read the datagram and write the buffer.
section quiet
variable {P : Access → Prop} (hread : ∀ i, P (.readPayload i)) (hwrite : ∀ i, P (.writeDmx i))
variable (p : Pbuf) (b : Board)
include hread

theorem logs_readName (k i : ℕ) : Logs P (readName p k i) b := by
  induction k generalizing i with
  | zero => exact logs_pure
  | succ k ih =>
    rw [readName, logs_readPayload_bind]
    refine ⟨hread _, ?_⟩
    split
    · exact logs_pure
    · exact ih (i + 1)

theorem logs_checkID (k i : ℕ) : Logs P (checkID p k i) b := by
  induction k generalizing i with
  | zero => exact logs_pure
  | succ k ih =>
    rw [checkID, logs_readPayload_bind]
    refine ⟨hread _, ?_⟩
    split
    · exact logs_pure
    · exact ih (i + 1)

theorem logs_readAddress (off : ℕ) : Logs P (readAddress p off) b := by
  have hlogs : Logs P (readAddress p off) b ↔ ∀ i < 4, P (.readPayload (off + (3 - i))) :=
    logs_copyBytes (fun i b => ends_readPayload p (fun i => off + (3 - i)) i b)
      (fun _ _ => logs_readPayload) 4 _
  exact hlogs.mpr fun i _ => hread _

theorem logs_progCommand (command : UInt8) : Logs P (progCommand p command) b := by
  unfold progCommand
  split_ifs
  · exact logs_pure
  · exact logs_step.mpr nofun
  · rw [logs_bind_of_ends (ends_readAddress p b _), logs_modify_bind]
    exact ⟨logs_readAddress hread p b _, logs_step.mpr nofun⟩
  · exact logs_pure

include hwrite

theorem logs_parseDMX : Logs P (parseDMXDataPacketArtnet p) b := by
  unfold parseDMXDataPacketArtnet
  rw [logs_readPayload_bind, logs_readPayload_bind, logs_get_bind]
  refine ⟨hread _, hread _, ?_⟩
  split
  · exact logs_pure
  · rw [logs_readPayload_bind, logs_readPayload_bind]
    refine ⟨hread _, hread _, ?_⟩
    have hslots := logs_copySlots (P := P) (b := b) (ends_readPayload p (ART_DMX_DATA_INDEX + ·))
      (fun _ _ => logs_readPayload) 1
      (joinBytes (p.payload ART_DATA_SLOTS_H_INDEX) (p.payload ART_DATA_SLOTS_L_INDEX)).toNat
    exact hslots.mpr fun i _ => ⟨hread _, hwrite _⟩

omit hread in
theorem logs_addressCommand (command : UInt8) : Logs P (addressCommand command) b := by
  unfold addressCommand
  split
  · have hclear : Logs P clearSlots b ↔ ∀ i < DMX_MAX_SLOTS, True ∧ P (.writeDmx (i + 0)) :=
      logs_copySlots (a := fun _ => 0) (fun _ _ => ends_pure)
        (fun _ _ => iff_of_true logs_pure trivial) 0 DMX_MAX_SLOTS
    exact hclear.mpr fun i _ => ⟨trivial, hwrite _⟩
  · exact logs_pure

end quiet

section replies
variable (c : Calls) (addr : UInt32) (b : Board)

theorem udp_copyReply (block : Bytes) (size n : ℕ) (dst : Bytes) :
    udp (copyBytes (readReply block size) n dst b).log = [] := by
  apply udp_of_logs
  have hlogs : Logs (fun e => e.isUdp = false) (copyBytes (readReply block size) n dst) b ↔
      ∀ i < n, True :=
    logs_copyBytes (ends_readReply block size) (fun _ _ => iff_of_true (logs_readReply.mpr rfl) trivial)
      n dst
  exact hlogs.mpr fun _ _ => trivial

theorem take_copyLoop (dst src : Bytes) {m n : ℕ} (h : m ≤ n) :
    take (copyLoop dst 0 src n) m = take src m := by
  apply take_congr
  intro i hi
  rw [copyLoop_apply, if_pos (by omega), Nat.sub_zero]

/-- The poll reply as it is sent. -/
def pollReplyBytes (b : Board) : List UInt8 :=
  take b.createPacketArtnetPollReply.artnet.pollReply POLL_REPLY_SIZE

/-- The programming reply as it is sent, for a block that holds `heap`. -/
def progReplyBytes (heap : Bytes) (b : Board) : List UInt8 :=
  take (Board.createProgReply heap b).1 PROG_REPLY_SIZE

theorem sendPollReply_udp : udp (sendPollReplyArtnet c addr b).log =
    if b.artnet.enabled = false then []
    else if c.pbufOk = false then [.connect addr]
    else [.connect addr, .send (pollReplyBytes b), .disconnect] := by
  let packet := b.createPacketArtnetPollReply.artnet.pollReply
  have hbytes : take (copyLoop c.pool 0 packet POLL_REPLY_SIZE) POLL_REPLY_SIZE = pollReplyBytes b :=
    take_copyLoop _ _ le_rfl
  unfold sendPollReplyArtnet
  rw [log_get_bind]
  cases henabled : b.artnet.enabled with
  | false => rfl
  | true =>
    cases hpbuf : c.pbufOk with
    | false => rfl
    | true =>
      simp only [Bool.not_true, Bool.false_eq_true, if_false, reduceCtorEq, ← hbytes]
      rw [log_modify_bind, log_get_bind, log_emit_bind, log_emit_bind,
        log_bind_of_ends (ends_copyBytes (ends_readReply _ _) _ _), log_emit_bind, log_emit_bind,
        log_emit, udp_cons_other rfl, udp_cons_call rfl, udp_append, udp_copyReply, List.nil_append,
        udp_cons_call rfl, udp_cons_call rfl, udp_cons_other rfl]
      rfl

theorem sendProgReply_udp : udp (sendProgReplyArtnet c addr b).log =
    if b.artnet.enabled = false ∨ c.mallocOk = false ∨ c.pbufOk = false then []
    else [.connect addr, .send (progReplyBytes c.heap b), .disconnect] := by
  let packet := (Board.createProgReply c.heap b).1
  have hle : PROG_REPLY_SIZE ≤ POLL_REPLY_SIZE := by unfold PROG_REPLY_SIZE POLL_REPLY_SIZE; omega
  have hbytes : take (copyLoop c.pool 0 packet POLL_REPLY_SIZE) PROG_REPLY_SIZE =
      progReplyBytes c.heap b := take_copyLoop _ _ hle
  unfold sendProgReplyArtnet
  rw [log_get_bind]
  cases henabled : b.artnet.enabled with
  | false => rfl
  | true =>
    cases hmalloc : c.mallocOk with
    | false => rfl
    | true =>
      cases hpbuf : c.pbufOk with
      | false => rfl
      | true =>
        simp only [Bool.not_true, Bool.false_eq_true, if_false, reduceCtorEq, or_self, ← hbytes]
        rw [log_emit_bind, log_bind_of_ends ends_step, log_step, List.nil_append, log_emit_bind,
          log_bind_of_ends (ends_copyBytes (ends_readReply _ _) _ _), log_emit_bind, log_emit_bind,
          log_emit_bind, log_emit_bind, log_emit, udp_cons_other rfl,
          udp_cons_other rfl, udp_append, udp_copyReply, List.nil_append, udp_cons_call rfl,
          udp_cons_call rfl, udp_cons_call rfl, udp_cons_other rfl, udp_cons_other rfl]
        rfl

variable {c addr b}

theorem sendProgReply_sends {bytes : List UInt8} (h : .send bytes ∈ (sendProgReplyArtnet c addr b).log) :
    bytes = progReplyBytes c.heap b := by
  have hudp := mem_udp_iff.mpr ⟨h, rfl⟩
  rw [sendProgReply_udp] at hudp
  split_ifs at hudp
  · exact absurd hudp List.not_mem_nil
  · simpa using hudp

end replies

/-- The calls for one datagram: none, or one send to `addr`, of which a failed allocation
leaves the remote address alone. -/
def OneSend (addr : UInt32) (l : List Access) : Prop :=
  l = [] ∨ l = [.connect addr] ∨ ∃ bytes, l = [.connect addr, .send bytes, .disconnect]

/-- What a handler may do: nothing at a node that is not enabled. -/
def Answers (addr : UInt32) (b : Board) (l : List Access) : Prop :=
  OneSend addr l ∧ (b.artnet.enabled = false → l = [])

section packets
variable (c : Calls) (p : Pbuf) (addr : UInt32) (b : Board)

theorem answers_nil : Answers addr b [] := ⟨Or.inl rfl, fun _ => rfl⟩

theorem sendPollReply_answers : Answers addr b (udp (sendPollReplyArtnet c addr b).log) := by
  rw [sendPollReply_udp]
  split_ifs with hoff hpbuf
  · exact answers_nil addr b
  · exact ⟨Or.inr (Or.inl rfl), fun h => absurd h hoff⟩
  · exact ⟨Or.inr (Or.inr ⟨_, rfl⟩), fun h => absurd h hoff⟩

theorem sendProgReply_answers : Answers addr b (udp (sendProgReplyArtnet c addr b).log) := by
  rw [sendProgReply_udp]
  split_ifs with hoff
  · exact answers_nil addr b
  · exact ⟨Or.inr (Or.inr ⟨_, rfl⟩), fun h => absurd (Or.inl h) hoff⟩

theorem parseProg_udp : udp (parseProgArtnet c p addr b).log =
    udp (sendProgReplyArtnet c addr (b.program (p.payload PROG_COMMAND) (p.reversed PROG_IP))).log := by
  have hread : ∀ i, (Access.readPayload i).isUdp = false := fun _ => rfl
  unfold parseProgArtnet
  rw [udp_bind (x := readPayload p PROG_COMMAND) ends_step (logs_readPayload.mpr rfl),
    udp_bind (ends_readAddress p _ _) (logs_readAddress hread p b _),
    udp_bind (ends_readAddress p _ _) (logs_readAddress hread p b _),
    udp_bind (ends_progCommand p _ _) (logs_progCommand hread p b _)]

theorem parseProg_answers : Answers addr b (udp (parseProgArtnet c p addr b).log) := by
  have hreply := sendProgReply_answers c addr (b.program (p.payload PROG_COMMAND) (p.reversed PROG_IP))
  rw [parseProg_udp]
  unfold Answers at hreply ⊢
  rwa [program_artnet] at hreply

theorem setName_artnet (name : Bytes) (length : ℕ) (b : Board) :
    (b.setName name length).artnet = b.artnet := by
  unfold Board.setName
  split <;> rfl

/-- Neither the name nor the command of ArtAddress touches the node. -/
theorem address_artnet :
    let b₁ := b.setName (fun i => p.payload (ADDRESS_LONG_NAME + i)) (NAME_MAX_LENGTH - 1)
    (if p.payload ADDRESS_COMMAND = 0x90 then { b₁ with dmx := clearDMX b₁.dmx } else b₁).artnet =
      b.artnet := by
  intro b₁
  have hname : b₁.artnet = b.artnet := setName_artnet _ _ b
  split
  · exact hname
  · exact hname

theorem parseArtAddress_answers : Answers addr b (udp (parseArtAddressArtnet c p addr b).log) := by
  have hread : ∀ i, (Access.readPayload i).isUdp = false := fun _ => rfl
  have hwrite : ∀ i, (Access.writeDmx i).isUdp = false := fun _ => rfl
  let b₁ := b.setName (fun i => p.payload (ADDRESS_LONG_NAME + i)) (NAME_MAX_LENGTH - 1)
  let b₂ := if p.payload ADDRESS_COMMAND = 0x90 then { b₁ with dmx := clearDMX b₁.dmx } else b₁
  have hsame : b₂.artnet = b.artnet := address_artnet p b
  have hreply := sendPollReply_answers c addr b₂
  unfold Answers at hreply ⊢
  rw [hsame] at hreply
  unfold parseArtAddressArtnet
  rw [udp_bind (ends_readName p b _ _) (logs_readName hread p b _ _),
    udp_bind (x := modify _) ends_step (logs_step.mpr nofun),
    udp_bind (x := readPayload p ADDRESS_COMMAND) ends_step (logs_readPayload.mpr rfl),
    udp_bind (ends_addressCommand _ _) (logs_addressCommand hwrite _ _)]
  exact hreply

theorem switch_answers (opcode : UInt16) :
    Answers addr b (udp (switchArtnet c p addr opcode b).log) := by
  unfold switchArtnet
  rw [log_get_bind]
  split_ifs
  · exact answers_nil addr b
  · have hquiet : Logs (fun e => e.isUdp = false) (parseDMXDataPacketArtnet p) b :=
      logs_parseDMX (fun _ => rfl) (fun _ => rfl) p b
    rw [udp_of_logs hquiet]
    exact answers_nil addr b
  · exact sendPollReply_answers c addr b
  · exact answers_nil addr b
  · exact parseProg_answers c p addr b
  · exact parseArtAddress_answers c p addr b
  · exact answers_nil addr b

/-- The callback sends at most one reply, to the address of the datagram. -/
theorem recieve_answers : Answers addr b (udp (recieveDMXArtnet c p addr b).log) := by
  cases hmutex : c.mutexTaken with
  | false =>
    rw [recieve_drops c p addr hmutex]
    exact answers_nil addr b
  | true =>
    have hdispatch : Answers addr b (udp (dispatchArtnet c p addr b).log) := by
      unfold dispatchArtnet
      rw [udp_bind (ends_checkID p b 8 0) (logs_checkID (fun _ => rfl) p b 8 0)]
      split
      · exact answers_nil addr b
      · rw [udp_bind (x := readPayload p 8) ends_step (logs_readPayload.mpr rfl),
          udp_bind (x := readPayload p 9) ends_step (logs_readPayload.mpr rfl)]
        exact switch_answers c p addr b _
    have hrest : udp (recieveDMXArtnet c p addr b).log = udp (dispatchArtnet c p addr b).log := by
      unfold recieveDMXArtnet
      rw [hmutex, if_neg (by decide), log_emit_bind, udp_cons_other rfl]
      apply udp_bind_left
      intro _ b' _
      rfl
    rw [hrest]
    exact hdispatch

end packets

theorem sendDMXData_udp (c : Calls) (dest : UInt32) (u : UInt16) (d : Device) :
    udp (sendDMXDataArtnet c dest u d).log =
      if d.board.artnet.enabled = false then []
      else if c.pbufOk = false then [.connect dest]
      else [.connect dest, .send (take (d.setUniverse u).payloadAt MAX_ARTNET_BUFFER), .disconnect] := by
  cases hon : d.board.artnet.enabled with
  | false => rw [sendDMXData_disabled c dest u d hon]; rfl
  | true =>
    cases hpbuf : c.pbufOk with
    | false => rw [sendDMXData_crash c dest u d hon hpbuf]; rfl
    | true => rw [sendDMXData_log c dest u d hon hpbuf]; rfl

end BlizzardBridge
