import BlizzardBridge.ArtnetLink
import BlizzardBridge.ArtnetUdp
import BlizzardBridge.EventMachine

/-! The sending task and the receive callback on the connection that they share. Each
call of the network stack is one step, and the mutex keeps the callback from itself only. -/
namespace BlizzardBridge
open EventMachine Program

inductive Thread where
  | sendArtnetLoop
  | recieveDMXArtnet
  deriving DecidableEq, Repr

def Thread.other : Thread → Thread
  | .sendArtnetLoop => .recieveDMXArtnet
  | .recieveDMXArtnet => .sendArtnetLoop

/-- What a task is to do next. A panic takes the whole node down. -/
inductive Move where
  | call (e : Access)
  | panic
  deriving DecidableEq

/-- The steps of a program on the connection, up to its end or its crash. -/
def moves {σ : Type} (o : Outcome σ Access Unit) : List Move :=
  (udp o.log).map .call ++ if o.val = none then [.panic] else []

structure Connection where
  remote : Option UInt32
  -- where the current call of a task is to send to, and what is left of the call
  target : Thread → UInt32
  todo : Thread → List Move
  alive : Bool

inductive ConnectionEvent where
  | sendDMXDataArtnet (c : Calls) (dest : UInt32) (u : UInt16) (d : Device)
  | recieveDMXArtnet (c : Calls) (p : Pbuf) (addr : UInt32) (b : Board)
  | step (t : Thread)

/-- A send, with the address it is meant for and the one that the connection had. -/
structure Sent where
  thread : Thread
  target : UInt32
  remote : Option UInt32
  bytes : List UInt8

def Sent.Right (o : Sent) : Prop := o.remote = some o.target

instance decidableRight (o : Sent) : Decidable o.Right :=
  inferInstanceAs (Decidable (o.remote = some o.target))

namespace Connection

/-- After `udp_new`. -/
def boot : Connection where
  remote := none
  target := fun _ => 0
  todo := fun _ => []
  alive := true

/-- A task makes one call after the other. -/
def start (t : Thread) (addr : UInt32) (ms : List Move) (s : Connection) : Connection :=
  if s.alive = true ∧ s.todo t = [] then
    { s with target := Function.update s.target t addr, todo := Function.update s.todo t ms }
  else s

def act (t : Thread) (s : Connection) : Move → Connection × List Sent
  | .call (.connect addr) => ({ s with remote := some addr }, [])
  | .call (.send bytes) => (s, [⟨t, s.target t, s.remote, bytes⟩])
  | .call .disconnect => ({ s with remote := none }, [])
  | .call _ => (s, [])
  | .panic => ({ s with alive := false }, [])

def threadStep (t : Thread) (s : Connection) : Connection × List Sent :=
  match s.todo t with
  | [] => (s, [])
  | m :: ms => if s.alive then act t { s with todo := Function.update s.todo t ms } m else (s, [])

def step (s : Connection) : ConnectionEvent → Connection × List Sent
  | .sendDMXDataArtnet c dest u d =>
    (s.start .sendArtnetLoop dest (moves (BlizzardBridge.sendDMXDataArtnet c dest u d)), [])
  | .recieveDMXArtnet c p addr b =>
    (s.start .recieveDMXArtnet addr (moves (BlizzardBridge.recieveDMXArtnet c p addr b)), [])
  | .step t => s.threadStep t

end Connection

/-- A send comes next. -/
def sendsNext : List Move → Bool
  | .call (.send _) :: _ => true
  | _ => false

/-- The next step leaves a connection to `addr` as it is. -/
def keepsRemote (addr : UInt32) : List Move → Bool
  | .call (.connect a) :: _ => a = addr
  | .call .disconnect :: _ => false
  | _ => true

namespace Connection

/-- No task takes the remote address away from the other one that is about to send. -/
def Undisturbed (s : Connection) : ConnectionEvent → Prop
  | .step t => s.alive = true → sendsNext (s.todo t.other) = true →
    keepsRemote (s.target t.other) (s.todo t) = true
  | _ => True

instance decidableUndisturbed (s : Connection) : ∀ e, Decidable (s.Undisturbed e)
  | .step t => inferInstanceAs (Decidable (s.alive = true → sendsNext (s.todo t.other) = true →
    keepsRemote (s.target t.other) (s.todo t) = true))
  | .sendDMXDataArtnet .. => instDecidableTrue
  | .recieveDMXArtnet .. => instDecidableTrue

end Connection

/-- What may be left of a call with the target `addr`: a send has its connect before it. -/
inductive Pending (addr : UInt32) : List Move → Prop
  | nil : Pending addr []
  | panic : Pending addr [.panic]
  | connect {ms : List Move} (h : Pending addr ms) : Pending addr (.call (.connect addr) :: ms)
  | connectSend {ms : List Move} (bytes : List UInt8) (h : Pending addr ms) :
    Pending addr (.call (.connect addr) :: .call (.send bytes) :: ms)
  | disconnect {ms : List Move} (h : Pending addr ms) : Pending addr (.call .disconnect :: ms)

theorem pending_moves {σ : Type} (addr : UInt32) (o : Outcome σ Access Unit)
    (h : OneSend addr (udp o.log)) : Pending addr (moves o) := by
  have htail : Pending addr (if o.val = none then [.panic] else []) := by
    split
    · exact .panic
    · exact .nil
  unfold moves
  rcases h with hnone | hconnect | ⟨bytes, hsend⟩
  · rw [hnone]
    exact htail
  · rw [hconnect]
    exact .connect htail
  · rw [hsend]
    exact .connectSend bytes (.disconnect htail)

namespace Connection

/-- The task is before its connect, or connected to its target and about to send. -/
def Serves (s : Connection) (t : Thread) : Prop :=
  Pending (s.target t) (s.todo t) ∨
    ∃ bytes ms, s.todo t = .call (.send bytes) :: ms ∧ Pending (s.target t) ms ∧
      s.remote = some (s.target t)

section step
variable {s : Connection}

theorem other_of_ne {t t' : Thread} (h : t' ≠ t) : t' = t.other := by
  cases t <;> cases t' <;> first | rfl | exact absurd rfl h

theorem other_ne (t : Thread) : t.other ≠ t := by cases t <;> decide

theorem exists_of_sendsNext {ms : List Move} (h : sendsNext ms = true) :
    ∃ bytes rest, ms = .call (.send bytes) :: rest := by
  unfold sendsNext at h
  split at h
  · exact ⟨_, _, rfl⟩
  · cases h

theorem serves_start (hs : ∀ t, s.Serves t) (t : Thread) (addr : UInt32) (ms : List Move)
    (hms : Pending addr ms) : ∀ t', (s.start t addr ms).Serves t' := by
  intro t'
  unfold start
  split
  · by_cases ht : t' = t
    · left
      rw [ht]
      simp only [Function.update_self]
      exact hms
    · have hrest := hs t'
      unfold Serves at hrest ⊢
      simp only [Function.update_of_ne ht]
      exact hrest
  · exact hs t'

/-- The other task is as well served as before when the step keeps its remote address. -/
theorem serves_other {t : Thread} {s' : Connection} (hs : s.Serves t.other)
    (htarget : s'.target = s.target) (htodo : s'.todo t.other = s.todo t.other)
    (hkeep : sendsNext (s.todo t.other) = true → s.remote = some (s.target t.other) →
      s'.remote = some (s.target t.other)) : s'.Serves t.other := by
  unfold Serves
  rw [htarget, htodo]
  rcases hs with hpending | ⟨bytes, ms, hms, hrest, hremote⟩
  · exact Or.inl hpending
  · have hnext : sendsNext (s.todo t.other) := by rw [hms]; trivial
    exact Or.inr ⟨bytes, ms, hms, hrest, hkeep hnext hremote⟩

theorem act_target (t : Thread) (s : Connection) (m : Move) : (act t s m).1.target = s.target := by
  cases m with
  | call e => cases e <;> rfl
  | panic => rfl

theorem act_todo (t : Thread) (s : Connection) (m : Move) : (act t s m).1.todo = s.todo := by
  cases m with
  | call e => cases e <;> rfl
  | panic => rfl

theorem threadStep_nil {t : Thread} (h : s.todo t = []) : s.threadStep t = (s, []) := by
  rw [threadStep, h]

theorem threadStep_dead {t : Thread} (h : s.alive = false) : s.threadStep t = (s, []) := by
  unfold threadStep
  split
  · rfl
  · rw [h]
    rfl

theorem threadStep_cons {t : Thread} {m : Move} {ms : List Move} (halive : s.alive = true)
    (h : s.todo t = m :: ms) :
    s.threadStep t = act t { s with todo := Function.update s.todo t ms } m := by
  rw [threadStep, h]
  exact if_pos halive

/-- A task that takes its next step is still before its connect, or is connected now. -/
theorem serves_self {t : Thread} (hs : s.Serves t) : (s.threadStep t).1.Serves t := by
  cases halive : s.alive with
  | false =>
    rw [threadStep_dead halive]
    exact hs
  | true =>
    have htodo (ms : List Move) : Function.update s.todo t ms t = ms := Function.update_self t ms s.todo
    have hpending {s' : Connection} {ms : List Move} (htarget : s'.target = s.target)
        (hms : s'.todo t = ms) (h : Pending (s.target t) ms) : s'.Serves t := by
      left
      rw [htarget, hms]
      exact h
    rcases hs with hp | ⟨bytes, ms, hms, hrest, _⟩
    · generalize hl : s.todo t = l at hp
      cases hp with
      | nil =>
        rw [threadStep_nil hl]
        exact hpending rfl hl .nil
      | panic =>
        rw [threadStep_cons halive hl]
        exact hpending rfl (htodo []) .nil
      | connect h =>
        rw [threadStep_cons halive hl]
        exact hpending rfl (htodo _) h
      | connectSend bytes h =>
        rw [threadStep_cons halive hl]
        exact Or.inr ⟨bytes, _, htodo _, h, rfl⟩
      | disconnect h =>
        rw [threadStep_cons halive hl]
        exact hpending rfl (htodo _) h
    · rw [threadStep_cons halive hms]
      exact hpending rfl (htodo ms) hrest

theorem serves_threadStep (hs : ∀ t, s.Serves t) (t : Thread) (hcond : s.Undisturbed (.step t)) :
    ∀ t', (s.threadStep t).1.Serves t' := by
  intro t'
  by_cases hne : t' = t
  · rw [hne]
    exact serves_self (hs t)
  · have ht : t' = t.other := other_of_ne hne
    rw [ht]
    cases halive : s.alive with
    | false =>
      rw [threadStep_dead halive]
      exact hs _
    | true =>
      cases hl : s.todo t with
      | nil =>
        rw [threadStep_nil hl]
        exact hs _
      | cons m ms =>
        rw [threadStep_cons halive hl]
        have hother : Function.update s.todo t ms t.other = s.todo t.other := by
          rw [Function.update_of_ne (ht ▸ hne)]
        apply serves_other (hs t.other)
        · rw [act_target]
        · rw [act_todo]
          exact hother
        · intro hnext hremote
          have hkeep : keepsRemote (s.target t.other) (m :: ms) = true := hl ▸ hcond halive hnext
          -- only a connect and a disconnect write the remote address
          cases m with
          | call e =>
            cases e with
            | connect addr => exact congrArg some (of_decide_eq_true hkeep)
            | disconnect => cases hkeep
            | _ => exact hremote
          | panic => exact hremote

theorem serves_step (s : Connection) (e : ConnectionEvent) (hs : ∀ t, s.Serves t)
    (hcond : s.Undisturbed e) : ∀ t, (s.step e).1.Serves t := by
  cases e with
  | sendDMXDataArtnet c dest u d =>
    apply serves_start hs
    apply pending_moves
    rw [sendDMXData_udp]
    split_ifs
    · exact Or.inl rfl
    · exact Or.inr (Or.inl rfl)
    · exact Or.inr (Or.inr ⟨_, rfl⟩)
  | recieveDMXArtnet c p addr b =>
    apply serves_start hs
    apply pending_moves
    exact (recieve_answers c p addr b).1
  | step t => exact serves_threadStep hs t hcond

/-- A task that is served sends to its target only. -/
theorem right_step (s : Connection) (e : ConnectionEvent) (hs : ∀ t, s.Serves t) :
    ∀ o ∈ (s.step e).2, o.Right := by
  intro o ho
  cases e with
  | sendDMXDataArtnet c dest u d => exact absurd ho List.not_mem_nil
  | recieveDMXArtnet c p addr b => exact absurd ho List.not_mem_nil
  | step t =>
    change o ∈ (s.threadStep t).2 at ho
    cases halive : s.alive with
    | false =>
      rw [threadStep_dead halive] at ho
      exact absurd ho List.not_mem_nil
    | true =>
      rcases hs t with hp | ⟨bytes, ms, hms, _, hremote⟩
      · generalize hl : s.todo t = l at hp
        cases hp with
        | nil =>
          rw [threadStep_nil hl] at ho
          exact absurd ho List.not_mem_nil
        | _ =>
          rw [threadStep_cons halive hl] at ho
          exact absurd ho List.not_mem_nil
      · rw [threadStep_cons halive hms] at ho
        rw [List.mem_singleton.mp ho]
        exact hremote

/-- A task that takes the address away lets the other one send elsewhere, or not at all. -/
theorem wrong_step (t : Thread) (h : ¬ s.Undisturbed (.step t)) :
    ∃ o ∈ ((s.step (.step t)).1.step (.step t.other)).2, ¬ o.Right := by
  obtain ⟨halive, hrest⟩ := Classical.not_imp.mp h
  obtain ⟨hnext, htakes⟩ := Classical.not_imp.mp hrest
  cases hl : s.todo t with
  | nil =>
    rw [hl] at htakes
    exact absurd rfl htakes
  | cons m ms =>
    obtain ⟨bytes, ms', hms'⟩ := exists_of_sendsNext hnext
    let s₁ := (act t { s with todo := Function.update s.todo t ms } m).1
    have hfirst : (s.step (.step t)).1 = s₁ := congrArg Prod.fst (threadStep_cons halive hl)
    have htodo : s₁.todo t.other = .call (.send bytes) :: ms' := by
      rw [← hms']
      change (act t _ m).1.todo t.other = _
      have hother : Function.update s.todo t ms t.other = s.todo t.other := by
        rw [Function.update_of_ne (other_ne t)]
      rw [act_todo]
      exact hother
    have htarget : s₁.target = s.target := act_target t _ m
    -- the step has been a connect to another address or a disconnect
    have hremote : s₁.alive = true ∧ s₁.remote ≠ some (s.target t.other) := by
      rw [hl] at htakes
      unfold keepsRemote at htakes
      split at htakes
      · next heq =>
        cases heq
        exact ⟨halive, fun hsome => htakes (decide_eq_true (Option.some.inj hsome))⟩
      · next heq =>
        cases heq
        exact ⟨halive, nofun⟩
      · exact absurd rfl htakes
    refine ⟨⟨t.other, s₁.target t.other, s₁.remote, bytes⟩, ?_, ?_⟩
    · rw [hfirst]
      change _ ∈ (s₁.threadStep t.other).2
      rw [threadStep_cons hremote.1 htodo]
      exact List.mem_singleton_self _
    · intro hright
      apply hremote.2
      rw [← htarget]
      exact hright

end step

theorem serves_boot (t : Thread) : boot.Serves t := Or.inl .nil

/-- While neither task takes the remote address away from the other one, every send goes where
it is meant to; the first step that takes it away can be followed by one that does not. -/
theorem sends_right (es : List ConnectionEvent) (h : Along step Undisturbed boot es) :
    (∀ x ∈ trace step boot es, x.2.Right) ∧
      ∀ e, ¬ (exec step boot es).Undisturbed e →
        ∃ e', ¬ ∀ x ∈ trace step boot (es ++ [e, e']), x.2.Right := by
  constructor
  · have hright : Along step (fun s e => ∀ o ∈ (s.step e).2, o.Right) boot es :=
      along_mono serves_step (fun s e hs _ => right_step s e hs) serves_boot h
    exact (trace_forall_iff (fun _ o => Sent.Right o) boot es).mpr hright
  · intro e hbreak
    cases e with
    | sendDMXDataArtnet c dest u d => exact absurd trivial hbreak
    | recieveDMXArtnet c p addr b => exact absurd trivial hbreak
    | step t =>
      obtain ⟨o, ho, hwrong⟩ := wrong_step t hbreak
      refine ⟨.step t.other, fun hall => hwrong (hall ((step (exec step boot es) (.step t)).1, o) ?_)⟩
      rw [trace_append]
      apply List.mem_append_right
      rw [trace_cons, trace_cons]
      apply List.mem_append_right
      apply List.mem_append_left
      exact List.mem_map_of_mem ho

def pollRequest : Pbuf where
  payload := CArray.store (fun _ => 0) 0 (CArray.take ARTNET_ID 8 ++ word ART_OP_POLL ++ [0, 14, 0, 0])
  len := 14

/-- A frame to the broadcast address, and a poll from 10.0.0.7. -/
def bothCalls : List ConnectionEvent :=
  [.sendDMXDataArtnet allCalls 0xFFFFFFFF 1 tenSender,
    .recieveDMXArtnet allCalls pollRequest 0x0700000A startedNode]

/-- One call after the other. -/
def oneByOne : List ConnectionEvent :=
  bothCalls ++ List.replicate 3 (.step .sendArtnetLoop) ++ List.replicate 3 (.step .recieveDMXArtnet)

theorem sends_right_oneByOne : Along step Undisturbed boot oneByOne ∧
    ∀ x ∈ trace step boot oneByOne, x.2.Right := by
  have h : Along step Undisturbed boot oneByOne := by decide +kernel
  exact ⟨h, (sends_right oneByOne h).1⟩

/-- The poll comes in between the connect of the frame and its send. -/
def pollBetween : List ConnectionEvent :=
  bothCalls ++ [.step .sendArtnetLoop, .step .recieveDMXArtnet, .step .sendArtnetLoop]

/-- The frame goes to the sender of the poll. -/
theorem sends_wrong : ¬ ∀ (es : List ConnectionEvent), ∀ x ∈ trace step boot es, x.2.Right := by
  intro hall
  have hright := hall pollBetween
  exact absurd hright (by decide +kernel)

end Connection

end BlizzardBridge
