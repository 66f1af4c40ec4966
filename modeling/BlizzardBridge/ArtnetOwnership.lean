import BlizzardBridge.ArtnetDmx
import BlizzardBridge.ArtnetUdp
import Mathlib.Data.Finset.Erase
import Mathlib.Data.Finset.Insert

/-! What the receive callback owns: the datagram it is given, the mutex that it takes and
the blocks that a reply is built in. A list of uses is replayed against the set of what is held;
a second acquisition and a release of what is not held are faults. -/
namespace BlizzardBridge
open CArray Program

inductive Use (ρ : Type) where
  | acquire (r : ρ)
  | release (r : ρ)
  deriving DecidableEq

section replay
variable {ρ : Type} [DecidableEq ρ]

def Use.apply (held : Finset ρ) : Use ρ → Option (Finset ρ)
  | .acquire r => if r ∈ held then none else some (insert r held)
  | .release r => if r ∈ held then some (held.erase r) else none

def replay (held : Finset ρ) : List (Use ρ) → Option (Finset ρ)
  | [] => some held
  | u :: us => (u.apply held).bind fun held => replay held us

end replay

inductive Resource where
  | mutex
  | block (b : Block)
  deriving DecidableEq, Repr

def Access.use? : Access → Option (Use Resource)
  | .take => some (.acquire .mutex)
  | .give => some (.release .mutex)
  | .alloc block => some (.acquire (.block block))
  | .free block => some (.release (.block block))
  | _ => none

def uses (log : List Access) : List (Use Resource) := log.filterMap Access.use?

/-- The callback returns, so it dereferences no NULL, and of the datagram it was given and
of all that it acquired nothing is left. -/
def AccountSettled (o : Outcome Board Access Unit) : Prop :=
  o.val = some () ∧ replay {.block .received} (uses o.log) = some ∅

instance (o : Outcome Board Access Unit) : Decidable (AccountSettled o) :=
  inferInstanceAs (Decidable (_ ∧ _))

/-- The uses of a part, and whether it returns. -/
def useTrace {α : Type} (x : Node α) (b : Board) : List (Use Resource) × Bool :=
  (uses (x b).log, (x b).val.isSome)

theorem uses_of_logs {α : Type} {x : Node α} {b : Board} (h : Logs (fun e => e.use? = none) x b) :
    uses (x b).log = [] := List.filterMap_eq_nil_iff.mpr h

theorem trace_quiet {α : Type} {x : Node α} {a : α} {b b' : Board} (hends : Ends x b a b')
    (hx : Logs (fun e => e.use? = none) x b) : useTrace x b = ([], true) := by
  unfold useTrace
  rw [uses_of_logs hx, hends.1]
  rfl

theorem trace_bind {α β : Type} {x : Node α} {f : α → Node β} {a : α} {b b' : Board}
    (hends : Ends x b a b') :
    useTrace (x >>= f) b = (uses (x b).log ++ (useTrace (f a) b').1, (useTrace (f a) b').2) := by
  unfold useTrace
  rw [bind_of_ends hends, uses, List.filterMap_append]
  rfl

/-- A first part that uses nothing. -/
theorem trace_quiet_bind {α β : Type} {x : Node α} {f : α → Node β} {a : α} {b b' : Board}
    (hends : Ends x b a b') (hx : Logs (fun e => e.use? = none) x b) :
    useTrace (x >>= f) b = useTrace (f a) b' := by
  rw [trace_bind hends, uses_of_logs hx]
  rfl

section parts
variable {β : Type} {b : Board}

theorem trace_get_bind {γ : Type} {g : Board → γ} {f : γ → Node β} :
    useTrace (get g >>= f) b = useTrace (f (g b)) b := trace_quiet_bind ends_step (logs_step.mpr nofun)

theorem trace_modify_bind {h : Board → Board} {f : Unit → Node β} :
    useTrace (modify h >>= f) b = useTrace (f ()) (h b) := trace_quiet_bind ends_step (logs_step.mpr nofun)

theorem trace_readPayload_bind {p : Pbuf} {i : ℕ} {f : UInt8 → Node β} :
    useTrace (readPayload p i >>= f) b = useTrace (f (p.payload i)) b :=
  trace_quiet_bind ends_step (logs_readPayload.mpr rfl)

theorem trace_emit_bind {e : Access} {f : Unit → Node β} :
    useTrace (emit e >>= f) b = (uses [e] ++ (useTrace (f ()) b).1, (useTrace (f ()) b).2) :=
  trace_bind ends_step

end parts

section replies
variable (c : Calls) (addr : UInt32) (b : Board)

def replyTrace (c : Calls) : List (Use Resource) × Bool :=
  if c.pbufOk then ([.acquire (.block .reply), .release (.block .reply)], true) else ([], false)

def progTrace (c : Calls) : List (Use Resource) × Bool :=
  if !c.mallocOk then ([], true)
  else if c.pbufOk then
    ([.acquire (.block .packet), .acquire (.block .reply), .release (.block .reply),
      .release (.block .packet)], true)
  else ([.acquire (.block .packet)], false)

theorem quiet_copyReply (block : Bytes) (size n : ℕ) (dst : Bytes) (b : Board) :
    Logs (fun e => e.use? = none) (copyBytes (readReply block size) n dst) b := by
  have hlogs : Logs (fun e => e.use? = none) (copyBytes (readReply block size) n dst) b ↔
      ∀ i < n, True :=
    logs_copyBytes (ends_readReply block size)
      (fun _ _ => iff_of_true (logs_readReply.mpr rfl) trivial) n dst
  exact hlogs.mpr fun _ _ => trivial

theorem sendPollReply_trace : useTrace (sendPollReplyArtnet c addr) b =
    if b.artnet.enabled then replyTrace c else ([], true) := by
  unfold sendPollReplyArtnet replyTrace
  rw [trace_get_bind]
  cases b.artnet.enabled with
  | false => rfl
  | true =>
    rw [if_neg (by decide), trace_modify_bind, trace_get_bind]
    cases c.pbufOk with
    | false => rfl
    | true =>
      rw [if_neg (by decide), trace_emit_bind, trace_emit_bind,
        trace_quiet_bind (ends_copyBytes (ends_readReply _ _) _ _) (quiet_copyReply _ _ _ _ _)]
      rfl

theorem sendProgReply_trace : useTrace (sendProgReplyArtnet c addr) b =
    if b.artnet.enabled then progTrace c else ([], true) := by
  unfold sendProgReplyArtnet progTrace
  rw [trace_get_bind]
  cases b.artnet.enabled with
  | false => rfl
  | true =>
    cases c.mallocOk with
    | false => rfl
    | true =>
      cases c.pbufOk with
      | false => rfl
      | true =>
        rw [if_neg (by decide), if_neg (by decide), trace_emit_bind,
          trace_quiet_bind (x := step [] _) ends_step (logs_step.mpr nofun), if_neg (by decide),
          trace_emit_bind,
          trace_quiet_bind (ends_copyBytes (ends_readReply _ _) _ _) (quiet_copyReply _ _ _ _ _)]
        rfl

end replies

section callback
variable (c : Calls) (p : Pbuf) (addr : UInt32) (b : Board)

theorem parseArtAddress_trace : useTrace (parseArtAddressArtnet c p addr) b =
    if b.artnet.enabled then replyTrace c else ([], true) := by
  unfold parseArtAddressArtnet
  rw [trace_quiet_bind (ends_readName p b _ _) (logs_readName (fun _ => rfl) p b _ _),
    trace_modify_bind, trace_readPayload_bind,
    trace_quiet_bind (ends_addressCommand _ _) (logs_addressCommand (fun _ => rfl) _ _),
    sendPollReply_trace, address_artnet p b]

theorem parseProg_trace : useTrace (parseProgArtnet c p addr) b =
    if b.artnet.enabled then progTrace c else ([], true) := by
  have hread : ∀ i, (Access.readPayload i).use? = none := fun _ => rfl
  unfold parseProgArtnet
  rw [trace_readPayload_bind, trace_quiet_bind (ends_readAddress p _ _) (logs_readAddress hread p b _),
    trace_quiet_bind (ends_readAddress p _ _) (logs_readAddress hread p b _),
    trace_quiet_bind (ends_progCommand p _ _) (logs_progCommand hread p b _), sendProgReply_trace,
    program_artnet]

theorem switch_reply (opcode : UInt16) (h : opcode = ART_OP_POLL ∨ opcode = ART_OP_ART_ADDRESS) :
    useTrace (switchArtnet c p addr opcode) b = if b.artnet.enabled then replyTrace c else ([], true) := by
  unfold switchArtnet
  rw [trace_get_bind]
  rcases h with rfl | rfl
  · exact sendPollReply_trace c addr b
  · exact parseArtAddress_trace c p addr b

theorem switch_prog : useTrace (switchArtnet c p addr ART_OP_PROG) b =
    if b.artnet.enabled then progTrace c else ([], true) := by
  unfold switchArtnet
  rw [trace_get_bind]
  exact parseProg_trace c p addr b

theorem switch_silent (opcode : UInt16) (hpoll : opcode ≠ ART_OP_POLL) (hprog : opcode ≠ ART_OP_PROG)
    (haddress : opcode ≠ ART_OP_ART_ADDRESS) :
    useTrace (switchArtnet c p addr opcode) b = ([], true) := by
  unfold switchArtnet
  rw [trace_get_bind, if_neg hpoll, if_neg hprog, if_neg haddress]
  split_ifs
  · rfl
  · exact trace_quiet (ends_parseDMX p b) (logs_parseDMX (fun _ => rfl) (fun _ => rfl) p b)
  · rfl
  · rfl

/-- What follows the identifier of a datagram. -/
theorem dispatch_trace : useTrace (dispatchArtnet c p addr) b =
    if p.HasID 8 0 then useTrace (switchArtnet c p addr p.opcode) b else ([], true) := by
  unfold dispatchArtnet
  rw [trace_quiet_bind (ends_checkID p b 8 0) (logs_checkID (fun _ => rfl) p b 8 0)]
  by_cases hid : p.HasID 8 0
  · rw [if_pos hid, decide_eq_true hid, if_neg (by decide), trace_readPayload_bind,
      trace_readPayload_bind]
    rfl
  · rw [if_neg hid, decide_eq_false hid]
    rfl

theorem settled_iff_trace (x : Node Unit) :
    AccountSettled (x b) ↔
      (useTrace x b).2 = true ∧ replay {.block .received} (useTrace x b).1 = some ∅ := by
  have hval : (x b).val = some () ↔ (x b).val.isSome = true := by
    rw [Option.isSome_iff_exists]
    exact ⟨fun h => ⟨(), h⟩, fun ⟨_, h⟩ => h⟩
  exact and_congr hval Iff.rfl

/-- The callback around a handler with the uses `t`: when the handler returns, the datagram
is freed and the mutex given back. -/
def surround (t : List (Use Resource) × Bool) : List (Use Resource) × Bool :=
  (.acquire .mutex :: (t.1 ++ if t.2 then [.release (.block .received), .release .mutex] else []), t.2)

theorem recieve_trace (hmutex : c.mutexTaken = true) :
    useTrace (recieveDMXArtnet c p addr) b = surround (useTrace (dispatchArtnet c p addr) b) := by
  unfold recieveDMXArtnet
  rw [if_neg (by rw [hmutex]; decide), trace_emit_bind]
  rcases ends_or_crashes (dispatchArtnet c p addr) b with hcrash | ⟨_, hends⟩
  · have hnone : (useTrace (dispatchArtnet c p addr) b).2 = false := by
      unfold useTrace
      rw [hcrash]
      rfl
    unfold surround
    rw [hnone, if_neg (by decide), List.append_nil]
    unfold useTrace
    rw [bind_of_crash hcrash]
    rfl
  · have hsome : (useTrace (dispatchArtnet c p addr) b).2 = true := by
      unfold useTrace
      rw [hends.1]
      rfl
    unfold surround
    rw [trace_bind hends, hsome, if_pos rfl]
    rfl

def Settles (t : List (Use Resource) × Bool) : Prop :=
  (surround t).2 = true ∧ replay {.block .received} (surround t).1 = some ∅

instance (t : List (Use Resource) × Bool) : Decidable (Settles t) :=
  inferInstanceAs (Decidable (_ ∧ _))

theorem settles_nothing : Settles ([], true) := by decide

theorem settles_reply : Settles (replyTrace c) ↔ c.pbufOk = true := by
  unfold replyTrace
  cases c.pbufOk <;> decide

theorem settles_prog : Settles (progTrace c) ↔ (c.mallocOk = true → c.pbufOk = true) := by
  unfold progTrace
  cases c.mallocOk <;> cases c.pbufOk <;> decide

/-- The datagram makes the node build a reply. -/
def BuildsReply : Prop := p.HasID 8 0 ∧ b.artnet.enabled = true ∧
  (p.opcode = ART_OP_POLL ∨ p.opcode = ART_OP_ART_ADDRESS ∨ p.opcode = ART_OP_PROG ∧ c.mallocOk = true)

instance : Decidable (BuildsReply c p b) := inferInstanceAs (Decidable (_ ∧ _ ∧ _))

theorem switch_settles (henabled : b.artnet.enabled = true) :
    Settles (useTrace (switchArtnet c p addr p.opcode) b) ↔
      (p.opcode = ART_OP_POLL ∨ p.opcode = ART_OP_ART_ADDRESS ∨
        p.opcode = ART_OP_PROG ∧ c.mallocOk = true → c.pbufOk = true) := by
  by_cases hreply : p.opcode = ART_OP_POLL ∨ p.opcode = ART_OP_ART_ADDRESS
  · rw [switch_reply c p addr b _ hreply, henabled, if_pos rfl, settles_reply, ← or_assoc]
    exact ⟨fun h _ => h, fun h => h (Or.inl hreply)⟩
  · obtain ⟨hpoll, haddress⟩ := not_or.mp hreply
    by_cases hprog : p.opcode = ART_OP_PROG
    · have hno : ¬ ART_OP_PROG = ART_OP_POLL ∧ ¬ ART_OP_PROG = ART_OP_ART_ADDRESS := by decide
      rw [hprog, switch_prog c p addr b, henabled, if_pos rfl, settles_prog]
      simp only [hno, false_or, true_and]
    · rw [switch_silent c p addr b _ hpoll hprog haddress]
      refine iff_of_true settles_nothing ?_
      rintro (h | h | ⟨h, _⟩)
      · exact absurd h hpoll
      · exact absurd h haddress
      · exact absurd h hprog

theorem switch_settles_disabled (hoff : b.artnet.enabled = false) (opcode : UInt16) :
    Settles (useTrace (switchArtnet c p addr opcode) b) := by
  by_cases hreply : opcode = ART_OP_POLL ∨ opcode = ART_OP_ART_ADDRESS
  · rw [switch_reply c p addr b _ hreply, hoff]
    exact settles_nothing
  · obtain ⟨hpoll, haddress⟩ := not_or.mp hreply
    by_cases hprog : opcode = ART_OP_PROG
    · rw [hprog, switch_prog c p addr b, hoff]
      exact settles_nothing
    · rw [switch_silent c p addr b _ hpoll hprog haddress]
      exact settles_nothing

/-- The callback leaves nothing behind exactly when it gets the mutex and every reply that
it builds gets its `pbuf`. -/
theorem recieve_settled_iff : AccountSettled (recieveDMXArtnet c p addr b) ↔
    c.mutexTaken = true ∧ (BuildsReply c p b → c.pbufOk = true) := by
  cases hmutex : c.mutexTaken with
  | false =>
    -- the datagram is still held
    rw [recieve_drops c p addr hmutex]
    have hheld : ¬ replay {Resource.block .received} (uses []) = some ∅ := by decide
    exact iff_of_false (fun h => hheld h.2) fun h => absurd h.1 (by decide)
  | true =>
    rw [and_iff_right rfl, settled_iff_trace, recieve_trace c p addr b hmutex]
    change Settles _ ↔ _
    rw [dispatch_trace]
    unfold BuildsReply
    by_cases hid : p.HasID 8 0
    · rw [if_pos hid]
      cases henabled : b.artnet.enabled with
      | false =>
        refine iff_of_true (switch_settles_disabled c p addr b henabled _) ?_
        exact fun h => absurd h.2.1 (by decide)
      | true =>
        rw [switch_settles c p addr b henabled]
        simp only [hid, true_and]
    · rw [if_neg hid]
      exact iff_of_true settles_nothing fun h => absurd h.1 hid

end callback

/-- A datagram that finds the mutex taken is not freed. -/
theorem recieve_leaks : ¬ ∀ (c : Calls) (p : Pbuf) (addr : UInt32) (b : Board),
    AccountSettled (recieveDMXArtnet c p addr b) := by
  intro hall
  have htimeout := hall { allCalls with mutexTaken := false } progRequest 0 startedNode
  exact absurd htimeout (by decide)

-- Without memory for the reply the node crashes, with the mutex and two blocks held.
example : let o := recieveDMXArtnet { allCalls with pbufOk := false } progRequest 0 startedNode
    o.val = none ∧ replay {.block .received} (uses o.log) =
      some {.block .received, .mutex, .block .packet} := by decide +kernel

end BlizzardBridge
