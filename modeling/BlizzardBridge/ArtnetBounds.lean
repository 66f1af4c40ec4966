import BlizzardBridge.ArtnetSpec

/-! Which datagrams make the node leave an object: the datagram that it reads, the
DMX buffer that it fills, or a reply block that it copies. -/
namespace BlizzardBridge
open CArray Program

/-- The access stays inside its object, for a datagram of `len` bytes. -/
def Access.InBounds (len : ℕ) : Access → Prop
  | .readPayload i => i < len
  | .writeDmx i => i < DMX_MAX_SLOTS
  | .readReply i size => i < size
  | _ => True

/-- A programming reply is sent, and none of the allocations for it fails. -/
def Calls.AnswersProg (c : Calls) (b : Board) : Prop :=
  b.artnet.enabled = true ∧ c.mallocOk = true ∧ c.pbufOk = true

/-- An ArtDmx packet that is long enough for what the node reads of it. -/
def Pbuf.DmxInside (p : Pbuf) (b : Board) : Prop :=
  16 ≤ p.len ∧ (p.universeSeen = b.ram.ownUniverse.toNat →
    18 + p.slotsSeen ≤ p.len ∧ p.slotsSeen < DMX_MAX_SLOTS)

theorem slots_inside_iff {len n : ℕ} (h : 18 ≤ len) :
    (∀ i < n, 18 + i < len ∧ i + 1 < DMX_MAX_SLOTS) ↔ 18 + n ≤ len ∧ n < DMX_MAX_SLOTS := by
  unfold DMX_MAX_SLOTS
  constructor
  · intro hall
    rcases Nat.eq_zero_or_pos n with h0 | hpos
    · omega
    · have hlast := hall (n - 1) (by omega)
      omega
  · intro hn i hi
    omega

section handlers
variable {p : Pbuf} {b : Board} {c : Calls} {addr : UInt32}

theorem copyData_inBounds (n : ℕ) :
    Logs (Access.InBounds p.len) (copySlots (fun i => readPayload p (ART_DMX_DATA_INDEX + i)) 1 n) b ↔
      ∀ i < n, 18 + i < p.len ∧ i + 1 < DMX_MAX_SLOTS :=
  logs_copySlots (ends_readPayload p (18 + ·)) (fun _ _ => logs_readPayload) 1 n

theorem parseDMX_inBounds :
    Logs (Access.InBounds p.len) (parseDMXDataPacketArtnet p) b ↔ p.DmxInside b := by
  unfold parseDMXDataPacketArtnet Pbuf.DmxInside
  simp only [logs_readPayload_bind, logs_get_bind, ne_eq, joinBytes_eq_iff]
  change (15 < p.len ∧ 14 < p.len ∧ Logs _ (if ¬ p.universeSeen = _ then _ else _) b) ↔ _
  -- the copy is reached only when the universe, as the code reads it, is the own one
  by_cases hu : p.universeSeen = b.ram.ownUniverse.toNat
  · have hn : (joinBytes (p.payload ART_DATA_SLOTS_H_INDEX)
        (p.payload ART_DATA_SLOTS_L_INDEX)).toNat = p.slotsSeen := joinBytes_toNat _ _
    rw [if_neg (not_not.mpr hu)]
    simp only [logs_readPayload_bind, copyData_inBounds, hn]
    change 15 < p.len ∧ 14 < p.len ∧ 16 < p.len ∧ 17 < p.len ∧ _ ↔ _
    constructor
    · rintro ⟨h15, h14, h16, h17, hall⟩
      exact ⟨h15, fun _ => (slots_inside_iff h17).mp hall⟩
    · rintro ⟨h16, himp⟩
      have hin := himp hu
      exact ⟨by omega, by omega, by omega, by omega, (slots_inside_iff (by omega)).mpr hin⟩
  · rw [if_pos hu, and_iff_left logs_pure]
    constructor
    · rintro ⟨h15, h14⟩
      exact ⟨h15, fun h => absurd h hu⟩
    · rintro ⟨h16, -⟩
      exact ⟨by omega, by omega⟩

theorem copyReply_inBounds (block : Bytes) (len size n : ℕ) (dst : Bytes) :
    Logs (Access.InBounds len) (copyBytes (readReply block size) n dst) b ↔ ∀ i < n, i < size :=
  logs_copyBytes (ends_readReply block size) (fun _ _ => logs_readReply) n dst

theorem sendPollReply_inBounds (len : ℕ) :
    Logs (Access.InBounds len) (sendPollReplyArtnet c addr) b := by
  unfold sendPollReplyArtnet
  rw [logs_get_bind]
  split
  · exact logs_pure
  rw [logs_modify_bind, logs_get_bind]
  split
  · exact logs_emit_bind.mpr ⟨trivial, logs_crash⟩
  rw [logs_emit_bind, logs_emit_bind, logs_bind_of_ends (ends_copyBytes (ends_readReply _ _) _ _),
    copyReply_inBounds]
  simp only [logs_emit_bind, logs_emit]
  exact ⟨trivial, trivial, fun _ hi => hi, trivial, trivial, trivial⟩

/-- A reply that is sent has been copied from beyond the end of its block. -/
theorem sendProgReply_inBounds (len : ℕ) :
    Logs (Access.InBounds len) (sendProgReplyArtnet c addr) b ↔ ¬ c.AnswersProg b := by
  unfold sendProgReplyArtnet Calls.AnswersProg
  rw [logs_get_bind]
  cases henabled : b.artnet.enabled with
  | false => exact iff_of_true logs_pure nofun
  | true =>
    cases hmalloc : c.mallocOk with
    | false => exact iff_of_true logs_pure nofun
    | true =>
      cases hpbuf : c.pbufOk with
      | false =>
        refine iff_of_true ?_ nofun
        exact logs_emit_bind.mpr ⟨trivial, logs_silent_bind.mpr logs_crash⟩
      -- the copy takes 239 bytes from a block of 107
      | true =>
        refine iff_of_false ?_ fun h => h ⟨rfl, rfl, rfl⟩
        simp only [Bool.not_true, Bool.false_eq_true, if_false, logs_emit_bind, logs_silent_bind]
        rintro ⟨-, -, hlogs⟩
        rw [logs_bind_of_ends (ends_copyBytes (ends_readReply _ _) _ _), copyReply_inBounds] at hlogs
        have hlast := hlogs.1 238 (by unfold POLL_REPLY_SIZE; omega)
        unfold ART_ADDRESS_SIZE at hlast
        omega

theorem readName_inBounds (k i : ℕ) (h : 32 + i + k ≤ p.len) :
    Logs (Access.InBounds p.len) (readName p k i) b := by
  induction k generalizing i with
  | zero => exact logs_pure
  | succ k ih =>
    rw [readName, logs_readPayload_bind]
    refine ⟨show 32 + i < p.len by omega, ?_⟩
    split
    · exact logs_pure
    · exact ih (i + 1) (by omega)

theorem addressCommand_inBounds (command : UInt8) (len : ℕ) :
    Logs (Access.InBounds len) (addressCommand command) b := by
  unfold addressCommand
  split
  · have hclear : Logs (Access.InBounds len) clearSlots b ↔ ∀ i < DMX_MAX_SLOTS, True ∧ i < DMX_MAX_SLOTS :=
      logs_copySlots (a := fun _ => 0) (fun _ _ => ends_pure)
        (fun _ _ => iff_of_true logs_pure trivial) 0 DMX_MAX_SLOTS
    exact hclear.mpr fun i hi => ⟨trivial, hi⟩
  · exact logs_pure

theorem parseArtAddress_inBounds :
    Logs (Access.InBounds p.len) (parseArtAddressArtnet c p addr) b ↔ ART_ADDRESS_SIZE ≤ p.len := by
  unfold parseArtAddressArtnet
  rw [logs_bind_of_ends (ends_readName p b _ _), logs_modify_bind, logs_readPayload_bind,
    logs_bind_of_ends (ends_addressCommand _ _)]
  constructor
  · intro h
    exact h.2.1
  · intro hlen
    -- the command is the last byte of the packet, so the name before it is inside as well
    unfold ART_ADDRESS_SIZE at hlen
    have hname : 32 + 0 + (NAME_MAX_LENGTH - 1) ≤ p.len := by unfold NAME_MAX_LENGTH; omega
    refine ⟨readName_inBounds _ _ hname, hlen, addressCommand_inBounds _ _, ?_⟩
    exact sendPollReply_inBounds _

theorem readAddress_inBounds (off : ℕ) :
    Logs (Access.InBounds p.len) (readAddress p off) b ↔ off + 4 ≤ p.len := by
  have hlogs : Logs (Access.InBounds p.len) (readAddress p off) b ↔ ∀ i < 4, off + (3 - i) < p.len :=
    logs_copyBytes (fun i b => ends_readPayload p (fun i => off + (3 - i)) i b)
      (fun _ _ => logs_readPayload) 4 _
  rw [hlogs]
  constructor
  · intro hall
    have hfirst := hall 0 (by omega)
    omega
  · intro hlen i hi
    omega

theorem progCommand_inBounds (command : UInt8) (h : 20 ≤ p.len) :
    Logs (Access.InBounds p.len) (progCommand p command) b := by
  unfold progCommand
  split_ifs
  · exact logs_pure
  · exact logs_step.mpr nofun
  · rw [logs_bind_of_ends (ends_readAddress p b _), readAddress_inBounds, logs_modify_bind]
    exact ⟨h, logs_step.mpr nofun⟩
  · exact logs_pure

/-- Programming touches neither the node nor the buffer. -/
theorem program_frame (command : UInt8) (ip : Bytes) :
    (b.program command ip).artnet = b.artnet ∧ (b.program command ip).dmx = b.dmx := by
  have hip : (b.setIP ip).artnet = b.artnet ∧ (b.setIP ip).dmx = b.dmx := by
    unfold Board.setIP Board.setAddress
    simp only []
    split_ifs <;> exact ⟨rfl, rfl⟩
  unfold Board.program
  split_ifs
  · exact ⟨rfl, rfl⟩
  · exact ⟨rfl, rfl⟩
  · exact hip
  · exact ⟨rfl, rfl⟩

theorem program_artnet (command : UInt8) (ip : Bytes) : (b.program command ip).artnet = b.artnet :=
  (program_frame command ip).1

theorem parseProg_inBounds : Logs (Access.InBounds p.len) (parseProgArtnet c p addr) b ↔
    24 ≤ p.len ∧ ¬ c.AnswersProg b := by
  unfold parseProgArtnet
  rw [logs_readPayload_bind, logs_bind_of_ends (ends_readAddress p b _),
    logs_bind_of_ends (ends_readAddress p b _), logs_bind_of_ends (ends_progCommand p _ b),
    readAddress_inBounds, readAddress_inBounds, sendProgReply_inBounds]
  -- programming does not touch the node, so the reply depends on the state before it
  have hanswers : c.AnswersProg (b.program (p.payload PROG_COMMAND) (p.reversed PROG_IP)) ↔
      c.AnswersProg b := by unfold Calls.AnswersProg; rw [program_artnet]
  rw [hanswers]
  -- the mask is the last field that is read
  constructor
  · rintro ⟨-, -, hmask, -, hreply⟩
    exact ⟨hmask, hreply⟩
  · rintro ⟨hlen, hreply⟩
    have hcommand := progCommand_inBounds (b := b) (p.payload PROG_COMMAND) (show 20 ≤ p.len by omega)
    exact ⟨show 14 < p.len by omega, show 16 + 4 ≤ p.len by omega, hlen, hcommand, hreply⟩

theorem checkID_inBounds (k i : ℕ) : Logs (Access.InBounds p.len) (checkID p k i) b ↔
    ∀ j < k, p.HasID j i → i + j < p.len := by
  -- byte j is read when the j bytes before it match
  induction k generalizing i with
  | zero => exact iff_of_true logs_pure nofun
  | succ k ih =>
    rw [checkID, logs_readPayload_bind, Nat.forall_lt_succ_left]
    refine and_congr ⟨fun h _ => h, fun h => h nofun⟩ ?_
    by_cases hi : p.payload i = ARTNET_ID i
    · rw [if_neg (not_not.mpr hi), ih]
      refine forall₂_congr fun j hj => ?_
      rw [p.hasID_succ, and_iff_right hi, Nat.add_assoc, Nat.add_comm 1]
    · rw [if_pos hi]
      exact iff_of_true logs_pure fun j _ h => absurd ((p.hasID_succ j i).mp h).1 hi

end handlers

/-- What has to hold of a datagram with the right identifier: each handler asks for a
length of its own, and a programming request must not be answered. -/
structure Pbuf.BodyInside (p : Pbuf) (c : Calls) (b : Board) : Prop where
  header : 10 ≤ p.len
  dmx : p.opcode = ART_OP_DMX → b.artnet.direction = .receive → p.DmxInside b
  prog : p.opcode = ART_OP_PROG → 24 ≤ p.len ∧ ¬ c.AnswersProg b
  address : p.opcode = ART_OP_ART_ADDRESS → ART_ADDRESS_SIZE ≤ p.len

section callback
variable {p : Pbuf} {b : Board} {c : Calls} {addr : UInt32}

theorem switch_inBounds (opcode : UInt16) :
    Logs (Access.InBounds p.len) (switchArtnet c p addr opcode) b ↔
      (opcode = ART_OP_DMX → b.artnet.direction = .receive → p.DmxInside b) ∧
      (opcode = ART_OP_PROG → 24 ≤ p.len ∧ ¬ c.AnswersProg b) ∧
      (opcode = ART_OP_ART_ADDRESS → ART_ADDRESS_SIZE ≤ p.len) := by
  have hdmxProg : ART_OP_DMX ≠ ART_OP_PROG := by decide
  have hdmxAddress : ART_OP_DMX ≠ ART_OP_ART_ADDRESS := by decide
  have hprogAddress : ART_OP_PROG ≠ ART_OP_ART_ADDRESS := by decide
  have hpollProg : ART_OP_POLL ≠ ART_OP_PROG := by decide
  have hpollAddress : ART_OP_POLL ≠ ART_OP_ART_ADDRESS := by decide
  have hreplyProg : ART_OP_POLL_REPLY ≠ ART_OP_PROG := by decide
  have hreplyAddress : ART_OP_POLL_REPLY ≠ ART_OP_ART_ADDRESS := by decide
  unfold switchArtnet
  rw [logs_get_bind]
  -- the opcodes differ, so in each branch only one of the three conditions says anything
  split_ifs with hdmx hdir hpoll hreply hprog haddress
  · simp only [hdmx, hdir, hdmxProg, hdmxAddress, false_imp_iff, imp_true_iff, and_true, iff_true]
    exact logs_pure
  · simp only [hdmx, not_not.mp hdir, hdmxProg, hdmxAddress, false_imp_iff, and_true, forall_const]
    exact parseDMX_inBounds
  · subst hpoll
    simp only [hdmx, hpollProg, hpollAddress, false_imp_iff, and_true, iff_true]
    exact sendPollReply_inBounds _
  · subst hreply
    simp only [hdmx, hreplyProg, hreplyAddress, false_imp_iff, and_true, iff_true]
    exact logs_pure
  · subst hprog
    simp only [hdmx, hprogAddress, false_imp_iff, true_and, and_true, forall_const]
    exact parseProg_inBounds
  · subst haddress
    simp only [hdmx, hprog, false_imp_iff, true_and, forall_const]
    exact parseArtAddress_inBounds
  · simp only [hdmx, hprog, haddress, false_imp_iff, and_true, iff_true]
    exact logs_pure

theorem dispatch_inBounds : Logs (Access.InBounds p.len) (dispatchArtnet c p addr) b ↔
    (∀ i < 8, p.HasID i 0 → i < p.len) ∧ (p.HasID 8 0 → p.BodyInside c b) := by
  unfold dispatchArtnet
  rw [logs_bind_of_ends (ends_checkID p b 8 0), checkID_inBounds]
  simp only [Nat.zero_add]
  refine and_congr_right fun _ => ?_
  by_cases hid : p.HasID 8 0
  · simp only [hid, decide_true, Bool.not_true, Bool.false_eq_true, if_false, forall_const,
      logs_readPayload_bind, switch_inBounds]
    constructor
    · rintro ⟨-, h9, hdmx, hprog, haddress⟩
      exact ⟨h9, hdmx, hprog, haddress⟩
    · rintro ⟨h10, hdmx, hprog, haddress⟩
      exact ⟨show 8 < p.len by omega, h10, hdmx, hprog, haddress⟩
  · simp only [hid, decide_false, Bool.not_false, if_true, false_imp_iff, iff_true]
    exact logs_pure

theorem recieve_inBounds (hmutex : c.mutexTaken = true) :
    Logs (Access.InBounds p.len) (recieveDMXArtnet c p addr) b ↔
      Logs (Access.InBounds p.len) (dispatchArtnet c p addr) b := by
  unfold recieveDMXArtnet
  simp only [hmutex, Bool.not_true, Bool.false_eq_true, if_false]
  rw [logs_emit_bind, and_iff_right (show Access.InBounds p.len .take from trivial)]
  apply logs_bind_left
  intro _ b' _
  exact logs_emit_bind.mpr ⟨trivial, logs_emit.mpr trivial⟩

end callback

/-- The callback stays inside its objects exactly when it drops the datagram, or the
datagram holds all of its identifier that is read and what its handler reads, and no
programming request is answered. -/
theorem recieve_inBounds_iff (c : Calls) (p : Pbuf) (addr : UInt32) (b : Board) :
    (∀ e ∈ (recieveDMXArtnet c p addr b).log, e.InBounds p.len) ↔
      c.mutexTaken = false ∨
        (∀ i < 8, p.HasID i 0 → i < p.len) ∧ (p.HasID 8 0 → p.BodyInside c b) := by
  cases hmutex : c.mutexTaken with
  | false =>
    refine iff_of_true ?_ (Or.inl rfl)
    have hdrop : recieveDMXArtnet c p addr = pure () := by
      unfold recieveDMXArtnet
      rw [hmutex]
      rfl
    rw [hdrop]
    exact logs_pure
  | true =>
    have htaken : ¬ true = false := nofun
    rw [or_iff_right htaken]
    exact (recieve_inBounds hmutex).trans dispatch_inBounds

/-- The shortest request that asks for the settings, 34 bytes. -/
def progRequest : Pbuf where
  payload := store (fun _ => 0) 0 (take ARTNET_ID 8 ++ word ART_OP_PROG)
  len := PROG_REPLY_SIZE

def startedNode : Board :=
  { Board.reset (Board.storage fun _ => none) Board.station with
    artnet := { direction := .receive, enabled := true, pollReply := fun _ => 0 } }

def allCalls : Calls where
  mutexTaken := true
  mallocOk := true
  pbufOk := true
  heap _ := 0
  pool _ := 0

/-- The answer to a well-formed request is read from beyond its block. -/
theorem recieve_overreads : ¬ ∀ (c : Calls) (p : Pbuf) (addr : UInt32) (b : Board),
    ∀ e ∈ (recieveDMXArtnet c p addr b).log, e.InBounds p.len := by
  intro hall
  have hlogs := (recieve_inBounds rfl).mp (hall allCalls progRequest 0 startedNode)
  have hbody := (dispatch_inBounds.mp hlogs).2 (by decide)
  exact (hbody.prog (by decide)).2 ⟨rfl, rfl, rfl⟩

end BlizzardBridge
