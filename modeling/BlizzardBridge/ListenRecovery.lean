import BlizzardBridge.ListenDriven
import BlizzardBridge.UartRxDeaf

/-! Whether the task that listens handles another packet. A flush that finds bytes kept back and
nothing in the ring buffer ends it; otherwise the next packet is heard. -/
namespace BlizzardBridge
open CArray RingBuffer EventMachine

namespace RxObj
variable {cap : ℕ} {s : RxObj cap}

/-- Lowered by each step that does not bring the call closer to its end. -/
def rank (s : RxObj cap) : ℕ :=
  match s.point with
  | .giveBack => 8
  | .item => 7
  | .sent => 6
  | .counted => 5
  | .cleared => 4
  | .loop => if s.cur = [] then 3 else 2
  | .receive => 1
  | .leave => 0

/-- A bound on the steps of the call that runs, when no interrupt comes. -/
def todo (s : RxObj cap) : ℕ :=
  match s.call with
  | none => 0
  | some (.uartReadBytes length) => 9 * length + s.rank
  | some .uartFlush => 9 * (s.ring.queue.length + s.kept.length) + s.rank

theorem rank_le (s : RxObj cap) : s.rank ≤ 8 := by
  unfold rank
  split <;> try split
  all_goals decide

theorem todo_read {length : ℕ} (h : s.call = some (.uartReadBytes length)) :
    s.todo = 9 * length + s.rank := by
  unfold todo
  rw [h]

theorem todo_flush (h : s.call = some .uartFlush) :
    s.todo = 9 * (s.ring.queue.length + s.kept.length) + s.rank := by
  unfold todo
  rw [h]

theorem todo_readLoop (hpoint : s.point = .loop) {length k : ℕ}
    (hcall : s.call = some (.uartReadBytes length)) (hout : (s.readLoop length k).2 = []) :
    (s.readLoop length k).1.todo < s.todo := by
  have hrank : s.rank = if s.cur = [] then 3 else 2 := by
    unfold rank
    rw [hpoint]
  have hend : ¬ (length = 0 ∨ s.cur = [] ∧ s.ring.queue = []) := by
    intro hend
    rw [readLoop, if_pos hend] at hout
    exact List.cons_ne_nil _ _ hout
  rw [todo_read hcall, hrank, readLoop, if_neg hend]
  split_ifs with hcur
  · have hqueue : s.ring.queue ≠ [] := fun hnone => hend (Or.inr ⟨hcur, hnone⟩)
    have hitem : s.ring.queue.take (k + 1) ≠ [] := by
      rw [Ne, List.take_eq_nil_iff]
      exact not_or.mpr ⟨Nat.succ_ne_zero k, hqueue⟩
    have hrank' : (s.receiveItem k).rank = 2 := by
      unfold rank receiveItem
      dsimp only
      rw [hpoint]
      exact if_neg hitem
    rw [todo_read (s := s.receiveItem k) hcall, hrank']
    omega
  · have hlength : 0 < s.cur.length := List.length_pos_iff.mpr hcur
    have hwanted : length ≠ 0 := fun hzero => hend (Or.inl hzero)
    have hcall' : (s.copyOut length).call = some (.uartReadBytes (length - s.cur.length)) := by
      unfold copyOut
      dsimp only
      split_ifs <;> rfl
    have hrank' : (s.copyOut length).rank ≤ 8 := rank_le _
    rw [todo_read hcall']
    omega

/-- A flush drops what it finds, and the bytes kept back are put to the others once at most. -/
theorem todo_flushReceive (hcall : s.call = some .uartFlush) (hpoint : s.point = .receive) (k : ℕ) :
    (s.flushReceive k).todo < s.todo := by
  have hrank : s.rank = 1 := by
    unfold rank
    rw [hpoint]
  have hkept : (s.flushReceive k).kept = s.kept := by
    have hsame := conserve_taskStep s k
    have hstep : s.taskStep k = (s.flushReceive k, []) := by
      unfold taskStep
      rw [hpoint]
    have hnone : s.bytesOf (.task k) = [] := by
      unfold bytesOf lin
      dsimp only
      rw [hpoint]
      rfl
    rw [hstep, hnone] at hsame
    exact hsame.symm
  have hcall' : (s.flushReceive k).call = some .uartFlush := by
    unfold flushReceive
    split_ifs <;> exact hcall
  rw [todo_flush hcall, todo_flush hcall', hrank, hkept]
  unfold flushReceive
  split_ifs with hqueue
  · change 9 * (s.ring.queue.length + s.kept.length) + 0 < _
    omega
  · have hlength : 0 < s.ring.queue.length := List.length_pos_iff.mpr hqueue
    change 9 * ((s.ring.queue.drop (k + 1)).length + s.kept.length) + 8 < _
    rw [List.length_drop]
    omega

theorem todo_resend (h : s.Inv) (hpoint : s.point = .item) (hcall : s.call ≠ none) :
    s.resend.todo < s.todo := by
  have hrank : s.rank = 7 := by
    unfold rank
    rw [hpoint]
  have hcur : s.cur = [] := h.between (by rw [hpoint]; decide)
  have hrank' : s.resend.rank ≤ 6 := by
    unfold resend
    split_ifs
    · rcases Ring.send_cases s.ring s.rxStash with ⟨ring, hsend, _⟩ | ⟨hsend, _⟩
      · rw [hsend]
        exact le_rfl
      · rw [hsend]
        change (if s.cur = [] then 3 else 2) ≤ 6
        rw [if_pos hcur]
        decide
    · change (if s.cur = [] then 3 else 2) ≤ 6
      rw [if_pos hcur]
      decide
  have hcall' : s.resend.call = s.call := by
    unfold resend
    split_ifs
    · cases s.ring.send s.rxStash <;> rfl
    · rfl
  have hkept : s.resend.ring.queue.length + s.resend.kept.length =
      s.ring.queue.length + s.kept.length := by
    have hconserve := congrArg List.length (conserve_resend hpoint)
    rw [List.length_append] at hconserve
    have hqueue : s.resend.ring.queue.length = s.ring.queue.length +
        ((if s.rxBufferFullFlg then s.pushed s.rxStash else []).flatMap StreamOp.bytes).length := by
      unfold resend
      split_ifs with hfull
      · rcases pushed_cases s s.rxStash with ⟨ring, hsend, hqueue, hpushed⟩ | ⟨hsend, hpushed⟩
        · rw [hsend, hpushed]
          simp [hqueue, StreamOp.bytes]
        · rw [hsend, hpushed]
          rfl
      · rfl
    omega
  cases hc : s.call with
  | none => exact absurd hc hcall
  | some c =>
    cases c with
    | uartReadBytes length =>
      rw [todo_read hc, todo_read (hcall'.trans hc), hrank]
      omega
    | uartFlush =>
      rw [todo_flush hc, todo_flush (hcall'.trans hc), hrank, hkept]
      omega

/-- The other steps change neither what is there nor what a read still wants. -/
theorem todo_of_rank {s' : RxObj cap} (hcall : s.call ≠ none) (hcall' : s'.call = s.call)
    (hqueue : s'.ring.queue = s.ring.queue) (hkept : s'.kept = s.kept) (hrank : s'.rank < s.rank) :
    s'.todo < s.todo := by
  unfold todo
  rw [hcall', hqueue, hkept]
  cases hc : s.call with
  | none => exact absurd hc hcall
  | some c => cases c <;> exact Nat.add_lt_add_left hrank _

/-- No step of a call takes it farther from its end, until it returns. -/
theorem todo_taskStep (h : s.Inv) (hcall : s.call ≠ none) {k : ℕ} (hout : (s.taskStep k).2 = []) :
    (s.taskStep k).1.todo < s.todo := by
  have hloop {s' : RxObj cap} (hpoint : s'.point = .loop) : s'.rank ≤ 3 := by
    unfold rank
    rw [hpoint]
    dsimp only
    split_ifs <;> decide
  have hstill {s' : RxObj cap} {n : ℕ} (hstep : s.taskStep k = (s', [])) (hnone : s.lin (.task k) = [])
      (hcall' : s'.call = s.call) (hqueue : s'.ring.queue = s.ring.queue) (hn : s.rank = n)
      (hrank : s'.rank < n) : (s.taskStep k).1.todo < s.todo := by
    have hconserve := conserve_taskStep s k
    rw [hstep, bytesOf, hnone] at hconserve
    rw [hstep]
    exact todo_of_rank hcall hcall' hqueue hconserve.symm (hn ▸ hrank)
  have hrank : s.rank = match s.point with
      | .giveBack => 8
      | .item => 7
      | .sent => 6
      | .counted => 5
      | .cleared => 4
      | .loop => if s.cur = [] then 3 else 2
      | .receive => 1
      | .leave => 0 := rfl
  unfold taskStep lin at hstill
  unfold taskStep at hout ⊢
  cases hpoint : s.point with
  | loop =>
    rw [hpoint] at hout hstill hrank
    cases hc : s.call with
    | none => exact absurd hc hcall
    | some c =>
      rw [hc] at hout hstill
      cases c with
      | uartReadBytes length => exact todo_readLoop hpoint hc hout
      | uartFlush =>
        have hone : s.flushHead.rank = 1 := by
          unfold flushHead
          split_ifs <;> rfl
        have hcall' : s.flushHead.call = some .uartFlush := by
          unfold flushHead
          split_ifs <;> exact hc
        have hqueue : s.flushHead.ring.queue = s.ring.queue := by
          unfold flushHead
          split_ifs <;> rfl
        apply hstill rfl rfl hcall' hqueue hrank
        rw [hone]
        dsimp only
        split_ifs <;> decide
  | receive => exact todo_flushReceive (h.flush (Or.inl hpoint)) hpoint k
  | giveBack =>
    rw [hpoint] at hstill hrank
    exact hstill rfl rfl rfl rfl hrank (Nat.lt_succ_self 7)
  | item => exact todo_resend h hpoint hcall
  | sent =>
    rw [hpoint] at hstill hrank
    exact hstill rfl rfl rfl rfl hrank (Nat.lt_succ_self 5)
  | counted =>
    rw [hpoint] at hstill hrank
    have hfour : s.clearFull.rank ≤ 4 := by
      by_cases hflush : s.call = some .uartFlush
      · exact Nat.le_succ_of_le (hloop (if_pos hflush))
      · unfold rank
        rw [show s.clearFull.point = .cleared from if_neg hflush]
    exact hstill rfl rfl rfl rfl hrank (Nat.lt_succ_of_le hfour)
  | cleared =>
    rw [hpoint] at hstill hrank
    exact hstill rfl rfl rfl rfl hrank (Nat.lt_succ_of_le (hloop rfl))
  | leave =>
    rw [hpoint] at hout
    exact absurd hout (List.cons_ne_nil _ _)

/-- Only the handler keeps bytes back. -/
theorem full_taskStep (hfull : s.rxBufferFullFlg = false) (k : ℕ) :
    (s.taskStep k).1.rxBufferFullFlg = false := by
  unfold taskStep
  split
  · split
    · exact hfull
    · unfold readLoop copyOut
      dsimp only
      split_ifs <;> exact hfull
    · unfold flushHead
      dsimp only
      split_ifs <;> exact hfull
  · unfold flushReceive
    dsimp only
    split_ifs <;> exact hfull
  · exact hfull
  · unfold resend
    dsimp only
    rw [if_neg (by simp [hfull])]
    exact hfull
  · exact hfull
  · rfl
  · exact hfull
  · exact hfull

theorem lin_of_quiet (hfull : s.rxBufferFullFlg = false) {k : ℕ} (hout : (s.taskStep k).2 = []) :
    s.lin (.task k) = [] := by
  unfold lin
  unfold taskStep at hout
  dsimp only
  cases hpoint : s.point with
  | loop =>
    rw [hpoint] at hout
    cases hcall : s.call with
    | none => rfl
    | some c =>
      rw [hcall] at hout
      cases c with
      | uartReadBytes length =>
        apply if_neg
        intro hend
        dsimp only at hout
        rw [readLoop, if_pos hend] at hout
        exact List.cons_ne_nil _ _ hout
      | uartFlush => rfl
  | item => exact if_neg (by simp [hfull])
  | leave =>
    rw [hpoint] at hout
    exact absurd hout (List.cons_ne_nil _ _)
  | _ => rfl

theorem flush_returns (hcall : s.call = some .uartFlush) {k : ℕ}
    (hout : (s.taskStep k).2 ≠ []) : s.point = .leave ∧ s.taskStep k = s.flushLeave := by
  unfold taskStep at hout ⊢
  cases hpoint : s.point with
  | loop =>
    rw [hpoint, hcall] at hout
    exact absurd rfl hout
  | leave => exact ⟨rfl, rfl⟩
  | _ =>
    rw [hpoint] at hout
    exact absurd rfl hout

end RxObj

namespace ListenTask
variable {cap : ℕ}

/-- A step in which the call does not return. -/
theorem quiet_step {s : ListenTask cap} (h : s.obj.Inv) (hcall : s.obj.call ≠ none)
    (hout : (s.obj.taskStep 0).2 = []) :
    (s.step (.task 0)).1.next = s.next ∧ (s.step (.task 0)).2 = [] ∧
      (s.step (.task 0)).1.obj = (s.obj.taskStep 0).1 ∧ (s.obj.taskStep 0).1.call ≠ none ∧
      (s.obj.call = some .uartFlush → (s.obj.taskStep 0).1.call = some .uartFlush) := by
  have hmoves := RxObj.moves_taskStep h 0
  have hstep : s.step (.task 0) =
      ({ s with obj := (s.obj.taskStep 0).1, rx := s.copied (s.obj.taskStep 0).1.done }, []) := by
    unfold step taskStep
    dsimp only
    rw [hout]
  rw [hstep]
  refine ⟨rfl, rfl, rfl, ?_⟩
  rw [hout] at hmoves
  generalize s.obj.lin (.task 0) = ops at hmoves
  cases hmoves with
  | rest ops hops hcall' hdone => exact ⟨hcall' ▸ hcall, fun hflush => hcall'.trans hflush⟩
  | drop hflush hcall' => exact ⟨by rw [hcall']; nofun, fun _ => hcall'⟩
  | copy length length' bytes hread hcall' hdone hlength =>
    exact ⟨by rw [hcall']; nofun, fun hflush => absurd (hread.symm.trans hflush) nofun⟩

/-- Without interrupts a call comes to the step in which it returns. -/
theorem exists_return {s : ListenTask cap} (h : s.obj.Inv) (hcall : s.obj.call ≠ none) :
    ∃ m, let t := exec step s (List.replicate m (.task 0))
      t.next = s.next ∧ (t.obj.taskStep 0).2 ≠ [] ∧
        outputs step s (List.replicate m (.task 0)) = [] ∧
        (s.obj.call = some .uartFlush → t.obj.call = some .uartFlush) ∧
        (s.obj.rxBufferFullFlg = false → t.obj.rxBufferFullFlg = false ∧
          linearize step lin s (List.replicate m (.task 0)) = []) := by
  induction hn : s.obj.todo using Nat.strong_induction_on generalizing s with
  | _ n ih =>
    by_cases hout : (s.obj.taskStep 0).2 = []
    · obtain ⟨hnext, hquiet, hobj, hcall', hflush⟩ := quiet_step h hcall hout
      have hless : (s.step (.task 0)).1.obj.todo < n := by
        rw [hobj, ← hn]
        exact RxObj.todo_taskStep h hcall hout
      obtain ⟨m, hnext', hout', hquiet', hflush', hfull'⟩ := ih _ hless (inv_step h _) (hobj ▸ hcall') rfl
      refine ⟨m + 1, hnext'.trans hnext, hout', ?_, ?_, ?_⟩
      · rw [List.replicate_succ, outputs_cons, hquiet, hquiet']
        rfl
      · intro hc
        exact hflush' (hobj ▸ hflush hc)
      · intro hfull
        have hstill : (s.step (.task 0)).1.obj.rxBufferFullFlg = false := by
          rw [hobj]
          exact RxObj.full_taskStep hfull 0
        have hlin : s.lin (.task 0) = [] := by
          change (s.obj.lin (.task 0)).map StreamOp.listenEvent = []
          rw [RxObj.lin_of_quiet hfull hout]
          rfl
        refine ⟨(hfull' hstill).1, ?_⟩
        rw [List.replicate_succ, linearize, hlin, (hfull' hstill).2]
        rfl
    · exact ⟨0, rfl, hout, rfl, id, fun hfull => ⟨hfull, rfl⟩⟩

/-- The task does not begin its flush with bytes kept back and no item in the ring buffer. -/
def FlushesItem (s : ListenTask cap) (e : ListenStep) : Prop :=
  ∀ locked, e = .call locked → s.next = .flush → s.obj.call = none →
    ¬ (s.obj.rxBufferFullFlg = true ∧ s.obj.ring.queue = [])

instance (s : ListenTask cap) (e : ListenStep) : Decidable (s.FlushesItem e) :=
  inferInstanceAs (Decidable (∀ _ : Bool, _ → _ → _ → ¬ (_ ∧ _)))

/-- It handles no packet any more, whatever happens. -/
def Stopped (s : ListenTask cap) : Prop := ∀ es, .handle ∉ outputs step s es

section stopped
variable {s : ListenTask cap}

theorem alive_step (h : s.obj.Inv) (hcap : UART_FIFO_LEN ≤ cap) (e : ListenStep) :
    (s.step e).1.obj.Alive ↔ s.obj.Alive ∧ s.FlushesItem e := by
  have hother (d : RxEvent) (hd : ∀ c, d ≠ .call c) (he : ∀ locked, e ≠ .call locked) :
      (s.obj.next d).1.Alive ↔ s.obj.Alive ∧ s.FlushesItem e := by
    rw [RxObj.alive_next h hcap d]
    apply and_congr_right fun _ => iff_of_true ?_ ?_
    · exact fun hflush => absurd hflush (hd _)
    · exact fun locked hcall => absurd hcall (he locked)
  rw [step_obj]
  cases e with
  | arrive byte => exact hother (.arrive byte) nofun nofun
  | rxfifo => exact hother .rxfifo nofun nofun
  | rxfifoOvf => exact hother .rxfifoOvf nofun nofun
  | call locked =>
    unfold driven
    dsimp only
    by_cases hstill : s.obj.call ≠ none ∨ locked = false ∧ s.next ≠ .flush
    · rw [if_pos hstill]
      refine (and_iff_left ?_).symm
      intro _ _ hflush hcall
      rcases hstill with hrunning | hfails
      · exact absurd hcall hrunning
      · exact absurd hflush hfails.2
    · rw [if_neg hstill]
      apply (RxObj.alive_next h hcap (.call (s.next.rxCall s.rx))).trans
      apply and_congr_right fun _ => ?_
      constructor
      · intro hflushes _ _ hflush hcall
        exact hflushes (by rw [hflush]; rfl) hcall
      · intro hflushes hc hcall
        have hflush : s.next = .flush := by
          rw [RxEvent.call.injEq] at hc
          cases hnext : s.next with
          | flush => rfl
          | header => exact absurd (hnext ▸ hc) nofun
          | data => exact absurd (hnext ▸ hc) nofun
        exact hflushes locked rfl hflush hcall
  | task k => exact hother (.task k) nofun nofun

/-- The driver has stopped, and no header has been read. -/
structure Dead (s : ListenTask cap) : Prop where
  silent : s.obj.Silent
  header : s.next ≠ .data

/-- Reads that get nothing lead back to the flush. -/
theorem returned_nothing (h : s.next ≠ .data) :
    (s.returned 0).1.next ≠ .data ∧ .handle ∉ (s.returned 0).2 := by
  have hempty : 0 ≠ HEADER_SIZE := by decide
  unfold returned
  cases hnext : s.next with
  | flush => exact ⟨nofun, List.not_mem_nil⟩
  | header =>
    dsimp only
    rw [if_pos hempty]
    exact ⟨nofun, by simp⟩
  | data => exact absurd hnext h

theorem dead_step (hcap : UART_FIFO_LEN ≤ cap) (h : s.Dead) (e : ListenStep) :
    (s.step e).1.Dead ∧ .handle ∉ (s.step e).2 := by
  have halive : ¬ (s.step e).1.obj.Alive := fun halive =>
    h.silent.dead ((alive_step h.silent.inv hcap e).mp halive).1
  have hinv : (s.step e).1.obj.Inv := inv_step h.silent.inv e
  have hdriven {d : RxEvent} (hobj : (s.step e).1.obj = (s.obj.next d).1) : (s.step e).1.obj.Silent :=
    ⟨hinv, halive, by rw [hobj]; exact (RxObj.done_next h.silent d).1⟩
  cases e with
  | arrive byte => exact ⟨⟨hdriven rfl, h.header⟩, List.not_mem_nil⟩
  | rxfifo => exact ⟨⟨hdriven rfl, h.header⟩, List.not_mem_nil⟩
  | rxfifoOvf => exact ⟨⟨hdriven rfl, h.header⟩, List.not_mem_nil⟩
  | call locked =>
    refine ⟨⟨⟨hinv, halive, ?_⟩, ?_⟩, List.not_mem_nil⟩
    · change (s.startCall locked).obj.call ≠ _ → (s.startCall locked).obj.done = []
      unfold startCall
      split_ifs
      · exact h.silent.done
      · exact h.silent.done
      · exact (RxObj.done_next h.silent (.call (s.next.rxCall s.rx))).1
    · change (s.startCall locked).next ≠ .data
      unfold startCall
      split_ifs
      · exact h.header
      · exact nofun
      · exact h.header
  | task k =>
    have hsilent : (s.step (.task k)).1.obj.Silent := hdriven (d := .task k) (step_obj s (.task k))
    have hread := (RxObj.done_next h.silent (.task k)).2
    have hreturned : (s.taskStep k).1.next ≠ .data ∧ .handle ∉ (s.taskStep k).2 := by
      change ∀ length bytes, .read length bytes ∈ (s.obj.taskStep k).2 → bytes = [] at hread
      unfold taskStep
      dsimp only
      generalize (s.obj.taskStep k).2 = out at hread ⊢
      match out, hread with
      | [], _ => exact ⟨h.header, List.not_mem_nil⟩
      | .read length bytes :: _, hread =>
        have hbytes : bytes = [] := hread length bytes List.mem_cons_self
        dsimp only
        rw [hbytes]
        exact returned_nothing h.header
      | .flushed _ :: _, _ => exact returned_nothing h.header
    exact ⟨⟨hsilent, hreturned.1⟩, hreturned.2⟩

theorem Dead.stopped (hcap : UART_FIFO_LEN ≤ cap) (h : s.Dead) : s.Stopped := by
  intro es
  induction es generalizing s with
  | nil => exact List.not_mem_nil
  | cons e es ih =>
    obtain ⟨hnext, hout⟩ := dead_step hcap h e
    rw [outputs_cons]
    exact fun hmem => (List.mem_append.mp hmem).elim hout (ih hnext)

/-- A flush that begins with bytes kept back and no item is the end. -/
theorem alive_or_dead_step (hcap : UART_FIFO_LEN ≤ cap) (hinv : s.obj.Inv) (h : s.obj.Alive ∨ s.Dead)
    (e : ListenStep) : (s.step e).1.obj.Alive ∨ (s.step e).1.Dead := by
  rcases h with halive | hdead
  · by_cases hflushes : s.FlushesItem e
    · exact Or.inl ((alive_step hinv hcap e).mpr ⟨halive, hflushes⟩)
    · have hstops : ¬ (s.step e).1.obj.Alive := fun h => hflushes ((alive_step hinv hcap e).mp h).2
      obtain ⟨locked, rfl, hflush, hcall, _⟩ : ∃ locked, e = .call locked ∧ s.next = .flush ∧
          s.obj.call = none ∧ s.obj.rxBufferFullFlg = true ∧ s.obj.ring.queue = [] := by
        by_contra hnone
        exact hflushes fun locked he hflush hcall hand => hnone ⟨locked, he, hflush, hcall, hand⟩
      have hstart : s.startCall locked = { s with obj := s.obj.start .uartFlush } := by
        unfold startCall
        rw [if_neg (not_not.mpr hcall), if_neg (fun hand => hand.2 hflush), hflush]
        unfold RxObj.next
        dsimp only [ListenCall.rxCall]
        rw [if_pos hcall]
      refine Or.inr ⟨⟨inv_step hinv _, hstops, ?_⟩, ?_⟩
      · change (s.startCall locked).obj.call ≠ _ → _
        rw [hstart]
        exact fun hne => absurd rfl hne
      · change (s.startCall locked).next ≠ .data
        rw [hstart]
        exact fun hdata => absurd (hflush.symm.trans hdata) nofun
  · exact Or.inr (dead_step hcap hdead e).1

theorem alive_or_dead (hcap : UART_FIFO_LEN ≤ cap) (rx : Bytes) (es : List ListenStep) :
    (exec step (installed cap rx) es).obj.Alive ∨ (exec step (installed cap rx) es).Dead := by
  let I (s : ListenTask cap) : Prop := s.obj.Inv ∧ (s.obj.Alive ∨ s.Dead)
  have hinv : I (exec step (installed cap rx) es) := by
    apply exec_invariant (I := I) (C := fun _ _ => True)
    · exact fun s e h _ => ⟨inv_step h.1 e, alive_or_dead_step hcap h.1 h.2 e⟩
    · exact ⟨RxObj.inv_installed, Or.inl (RxObj.alive_of_not_full rfl)⟩
    · exact along_of_forall (fun _ _ => trivial) _ es
  exact hinv.2

theorem alive_iff_along (hcap : UART_FIFO_LEN ≤ cap) (rx : Bytes) (es : List ListenStep) :
    (exec step (installed cap rx) es).obj.Alive ↔ Along step FlushesItem (installed cap rx) es := by
  have hinv : Along step (fun s _ => s.obj.Inv) (installed cap rx) es :=
    along_invariant (I := fun s : ListenTask cap => s.obj.Inv) (fun s e h => inv_step h e)
      RxObj.inv_installed es
  have hiff := exec_iff_along (I := fun s : ListenTask cap => s.obj.Alive) (D := FlushesItem)
    (fun s e h => alive_step h hcap e) hinv
  rw [hiff]
  exact and_iff_right (RxObj.alive_of_not_full rfl)

end stopped

/-- A `BlizzardPacket` as it comes over the line. -/
def packet (opcode : UInt8) (data : List UInt8) : List UInt8 :=
  ascii ['C', 'A', 'K'] ++ [opcode, UInt8.ofNat data.length, UInt8.ofNat (data.length / 256)] ++ data

def lineBytes (es : List ListenStep) : List UInt8 :=
  es.flatMap fun
    | .arrive byte => [byte]
    | _ => []

/-- From here on the line can bring these bytes, with the semaphore free, so that the task
handles them at the end as a packet, with all of them in it. -/
def Hears (s : ListenTask cap) (bytes : List UInt8) : Prop :=
  ∃ es, lineBytes es = bytes ∧ .call false ∉ es ∧ (outputs step s es).getLast? = some .handle ∧
    take (exec step s es).rx bytes.length = bytes

section hears
variable {s : ListenTask cap}

/-- No call runs, and the bytes in the driver are those in the ring buffer. -/
structure Ready (queue : List UInt8) (o : RxObj cap) : Prop where
  inv : o.Inv
  call : o.call = none
  fifo : o.fifo = []
  ena : o.enaRxfifo = true
  full : o.rxBufferFullFlg = false
  cur : o.cur = []
  queue : o.ring.queue = queue

theorem Ready.feed {queue : List UInt8} {o : RxObj cap} (h : Ready queue o) (byte : UInt8)
    (hcap : queue.length + 1 ≤ cap) :
    Ready (queue ++ [byte]) (exec RxObj.next o [.arrive byte, .rxfifo]) := by
  obtain ⟨hpoint, _⟩ := h.inv.idle h.call
  have hout : o.ring.out = [] := h.inv.out h.cur (by rw [hpoint]; decide)
  have harrive : o.arrive byte = { o with fifo := [byte] } := by
    unfold RxObj.arrive
    rw [h.fifo]
    rfl
  have hraised : RxObj.Raised { o with fifo := [byte] } := ⟨h.ena, List.cons_ne_nil _ _⟩
  have hfull : ¬ ({ o with fifo := [byte] } : RxObj cap).rxBufferFullFlg = true := by
    rw [h.full]
    nofun
  have hinv : (exec RxObj.next o [.arrive byte, .rxfifo]).Inv := RxObj.inv_exec h.inv _
  have hnext : exec RxObj.next o [.arrive byte, .rxfifo] = RxObj.isrRxfifo { o with fifo := [byte] } := by
    change (if (o.arrive byte).Raised then (o.arrive byte).isrRxfifo else o.arrive byte) = _
    rw [harrive, if_pos hraised]
  rw [hnext] at hinv ⊢
  unfold RxObj.isrRxfifo at hinv ⊢
  rw [if_neg hfull] at hinv ⊢
  rcases Ring.send_cases o.ring [byte] with ⟨ring, hsend, hqueue, _⟩ | ⟨_, hroom⟩
  · dsimp only at hinv ⊢
    rw [hsend] at hinv ⊢
    exact ⟨hinv, h.call, rfl, h.ena, h.full, h.cur, hqueue.trans (by rw [h.queue])⟩
  · rw [hout, h.queue, used_nil, used_one, used_one, List.length_singleton] at hroom
    omega

/-- The bytes one after another, each taken by the handler before the next. -/
def line (bytes : List UInt8) : List ListenStep := bytes.flatMap fun byte => [.arrive byte, .rxfifo]

theorem exec_line {queue : List UInt8} (bytes : List UInt8) (h : Ready queue s.obj)
    (hcap : queue.length + bytes.length ≤ cap) :
    Ready (queue ++ bytes) (exec step s (line bytes)).obj ∧ (exec step s (line bytes)).next = s.next ∧
      (exec step s (line bytes)).rx = s.rx ∧ outputs step s (line bytes) = [] := by
  induction bytes generalizing s queue with
  | nil =>
    rw [List.append_nil]
    exact ⟨h, rfl, rfl, rfl⟩
  | cons byte bytes ih =>
    rw [List.length_cons] at hcap
    have hfed : Ready (queue ++ [byte]) (exec step s [.arrive byte, .rxfifo]).obj := h.feed byte (by omega)
    have hroom : (queue ++ [byte]).length + bytes.length ≤ cap := by
      rw [List.length_append, List.length_singleton]
      omega
    obtain ⟨hready, hnext, hrx, hout⟩ := ih hfed hroom
    rw [List.append_assoc] at hready
    exact ⟨hready, hnext, hrx, hout⟩

theorem alive_tasks (h : s.obj.Inv) (hcap : UART_FIFO_LEN ≤ cap) (halive : s.obj.Alive) (m : ℕ) :
    (exec step s (List.replicate m (.task 0))).obj.Alive := by
  induction m generalizing s with
  | zero => exact halive
  | succ m ih => exact ih (inv_step h _) ((alive_step h hcap _).mpr ⟨halive, nofun⟩)

/-- A flush ends with an empty driver. -/
theorem ready_of_flush (h : s.obj.Inv) (hcap : UART_FIFO_LEN ≤ cap) (halive : s.obj.Alive)
    (hcall : s.obj.call = some .uartFlush) (hnext : s.next = .flush) :
    ∃ m, Ready [] (exec step s (List.replicate m (.task 0))).obj ∧
      (exec step s (List.replicate m (.task 0))).next = .header ∧
      outputs step s (List.replicate m (.task 0)) = [] := by
  obtain ⟨m, hnext', hout, hquiet, hflush, _⟩ := exists_return h (hcall ▸ nofun)
  have hinv : (exec step s (List.replicate m (.task 0))).obj.Inv := by
    rw [exec_obj]
    exact RxObj.inv_exec h _
  have hlive : (exec step s (List.replicate (m + 1) (.task 0))).obj.Alive := alive_tasks h hcap halive _
  have hrun : List.replicate (m + 1) (ListenStep.task 0) = List.replicate m (.task 0) ++ [.task 0] :=
    List.replicate_succ'
  refine ⟨m + 1, ?_⟩
  rw [hrun, exec_append, exec_cons, exec_nil] at hlive
  rw [hrun, exec_append, outputs_append, hquiet, outputs_singleton, exec_cons, exec_nil, List.nil_append]
  generalize exec step s (List.replicate m (.task 0)) = t at hnext' hout hflush hinv hlive ⊢
  obtain ⟨hpoint, hleave⟩ := RxObj.flush_returns (hflush hcall) hout
  have hstep : t.step (.task 0) = ({ t with obj := t.obj.flushLeave.1, next := .header }, []) := by
    have hcopied : t.copied t.obj.flushLeave.1.done = t.rx := if_pos (hnext'.trans hnext)
    unfold step taskStep returned
    dsimp only
    rw [hleave, hcopied, hnext'.trans hnext]
    rfl
  rw [hstep] at hlive ⊢
  have hqueue : t.obj.ring.queue = [] := hinv.leave hpoint
  have hfull : t.obj.rxBufferFullFlg = false := by
    rw [Bool.eq_false_iff]
    intro hfull
    have hretries := hlive hfull
    simp [RxObj.Retries, RxObj.flushLeave, hqueue] at hretries
  exact ⟨⟨RxObj.inv_flushLeave hinv hpoint, rfl, rfl, rfl, hfull, rfl, hqueue⟩, rfl, rfl⟩

/-- A step in which a call returns. -/
theorem returning_step (h : s.obj.Inv) (hout : (s.obj.taskStep 0).2 ≠ []) :
    (s.obj.taskStep 0).1.call = none ∧ s.lin (.task 0) = [.call true] := by
  have hmoves := RxObj.moves_taskStep h 0
  change _ ∧ (s.obj.lin (.task 0)).map StreamOp.listenEvent = [.call true]
  generalize s.obj.lin (.task 0) = ops at hmoves ⊢
  generalize (s.obj.taskStep 0).2 = out at hmoves hout
  cases hmoves with
  | rest => exact absurd rfl hout
  | drop => exact absurd rfl hout
  | copy => exact absurd rfl hout
  | read length hcall hcall' hdone => exact ⟨hcall', rfl⟩
  | flush hcall hcall' hdone => exact ⟨hcall', rfl⟩

/-- A read runs to its end, when nothing is kept back, as a read in one go. -/
theorem exists_read (h : s.obj.Inv) (hcall : s.obj.call = none) (hfull : s.obj.rxBufferFullFlg = false) :
    ∃ m, let es := .call true :: List.replicate m (.task 0)
      linearize step lin s es = [.call true] ∧ (exec step s es).obj.call = none ∧
        (exec step s es).obj.rxBufferFullFlg = false := by
  have hstart : s.step (.call true) = ({ s with obj := s.obj.start (s.next.rxCall s.rx) }, []) := by
    change (s.startCall true, _) = _
    unfold startCall RxObj.next
    dsimp only
    rw [if_neg (not_not.mpr hcall), if_neg (fun hand => Bool.noConfusion hand.1), if_pos hcall]
  have hnone : s.lin (.call true) = [] := if_neg fun hand => Bool.noConfusion hand.2.1
  let t : ListenTask cap := (s.step (.call true)).1
  have hinv : t.obj.Inv := inv_step h _
  have hrunning : t.obj.call ≠ none := by
    change (s.step (.call true)).1.obj.call ≠ none
    rw [hstart]
    exact nofun
  have hempty : t.obj.rxBufferFullFlg = false := by
    change (s.step (.call true)).1.obj.rxBufferFullFlg = false
    rw [hstart]
    exact hfull
  obtain ⟨m, _, hout, _, _, hquiet⟩ := exists_return hinv hrunning
  obtain ⟨hfull', hlin⟩ := hquiet hempty
  have hinv' : (exec step t (List.replicate m (.task 0))).obj.Inv := by
    rw [exec_obj]
    exact RxObj.inv_exec hinv _
  have hrun : List.replicate (m + 1) (ListenStep.task 0) = List.replicate m (.task 0) ++ [.task 0] :=
    List.replicate_succ'
  refine ⟨m + 1, ?_⟩
  dsimp only
  rw [hrun, linearize, hnone, exec_cons, linearize_append, hlin, exec_append]
  change _ ∧ (step (exec step t _) (.task 0)).1.obj.call = _ ∧ (step (exec step t _) (.task 0)).1.obj.rxBufferFullFlg = _
  generalize exec step t (List.replicate m (.task 0)) = u at hout hfull' hinv' ⊢
  obtain ⟨hreturned, hcalls⟩ := returning_step hinv' hout
  rw [step_obj]
  refine ⟨?_, hreturned, RxObj.full_taskStep hfull' 0⟩
  rw [linearize, linearize, List.append_nil, List.nil_append, List.nil_append, hcalls]

theorem lineBytes_append (es fs : List ListenStep) : lineBytes (es ++ fs) = lineBytes es ++ lineBytes fs :=
  List.flatMap_append

theorem lineBytes_line (bytes : List UInt8) : lineBytes (line bytes) = bytes := by
  induction bytes with
  | nil => rfl
  | cons byte bytes ih => exact congrArg (byte :: ·) ih

/-- A packet, read in two goes. -/
theorem listen_packet {a : Listener} {opcode : UInt8} {data : List UInt8} (hnext : a.next = .header)
    (hunread : a.unread = packet opcode data) (hdata : data.length ≤ DMX_MAX_SLOTS) :
    outputs Listener.listen a [.call true, .call true] =
        [.stored 0 HEADER_SIZE, .stored HEADER_SIZE data.length, .handle] ∧
      take (exec Listener.listen a [.call true, .call true]).rx (packet opcode data).length =
        packet opcode data := by
  -- The first read takes the header, the second the bytes that it announces.
  let header : List UInt8 :=
    ascii ['C', 'A', 'K'] ++ [opcode, UInt8.ofNat data.length, UInt8.ofNat (data.length / 256)]
  have hsize : header.length = HEADER_SIZE := rfl
  have hfirst : a.unread.take HEADER_SIZE = header := by
    rw [hunread, ← hsize]
    exact List.take_left
  have hrest : a.unread.drop HEADER_SIZE = data := by
    rw [hunread, ← hsize]
    change List.drop header.length (header ++ data) = data
    exact List.drop_left
  obtain ⟨hstored, hcount⟩ := readInto_bytes (i := 0) hfirst
  let b : Listener := { (a.readInto 0 HEADER_SIZE).1 with next := .data }
  have hcak : (a.readInto 0 HEADER_SIZE).1.HasHeader := by
    rw [Listener.HasHeader, hstored]
    rfl
  have hlisten : a.listen (.call true) = (b, [.stored 0 HEADER_SIZE]) := by
    rw [listen_header hnext, hcount, if_neg (not_not.mpr hsize), if_pos hcak]
    rfl
  have hunread' : b.unread = data := (Listener.readInto_unread a 0 HEADER_SIZE).trans hrest
  have hdataCount : b.dataCount = data.length := by
    have hlow : b.rx 4 = UInt8.ofNat data.length := congrFun hstored 4
    have hhigh : b.rx 5 = UInt8.ofNat (data.length / 256) := congrFun hstored 5
    have hmax : DMX_MAX_SLOTS < 65536 := by decide
    rw [Listener.dataCount, hlow, hhigh, UInt8.toNat_ofNat', UInt8.toNat_ofNat']
    omega
  have hall : b.unread.take b.dataCount = data := by
    rw [hdataCount, hunread', List.take_length]
  obtain ⟨hstored', hcount'⟩ := readInto_bytes (i := HEADER_SIZE) hall
  have hlisten' : b.listen (.call true) = ({ (b.readInto HEADER_SIZE b.dataCount).1 with next := .flush },
      [.stored HEADER_SIZE data.length, .handle]) := by
    rw [listen_data rfl, hcount']
  constructor
  · rw [outputs_cons, hlisten, outputs_singleton, hlisten']
    rfl
  · rw [exec_cons, hlisten, exec_cons, hlisten', exec_nil]
    dsimp only
    rw [hstored']
    change take (store (a.readInto 0 HEADER_SIZE).1.rx HEADER_SIZE data) _ = _
    rw [hstored, ← hsize, ← Nat.zero_add header.length, ← store_append]
    exact take_store a.rx (header ++ data)

/-- Two reads, one after the other, with nothing kept back. -/
theorem exists_reads (h : s.obj.Inv) (hcall : s.obj.call = none) (hfull : s.obj.rxBufferFullFlg = false) :
    ∃ es, lineBytes es = [] ∧ .call false ∉ es ∧ linearize step lin s es = [.call true, .call true] ∧
      (exec step s es).obj.call = none := by
  obtain ⟨m, hlin, hcall', hfull'⟩ := exists_read h hcall hfull
  have hinv : (exec step s (.call true :: List.replicate m (.task 0))).obj.Inv := by
    rw [exec_obj]
    exact RxObj.inv_exec h _
  obtain ⟨n, hlin', hcall'', _⟩ := exists_read hinv hcall' hfull'
  refine ⟨(.call true :: List.replicate m (.task 0)) ++ (.call true :: List.replicate n (.task 0)),
    ?_, ?_, ?_, ?_⟩
  · unfold lineBytes
    simp
  · simp
  · rw [linearize_append, hlin, hlin']
    rfl
  · rw [exec_append]
    exact hcall''

/-- A packet in the ring buffer is handled. -/
theorem exists_handles {bytes : List UInt8} (h : Ready bytes s.obj) (hnext : s.next = .header)
    {opcode : UInt8} {data : List UInt8} (hbytes : bytes = packet opcode data)
    (hdata : data.length ≤ DMX_MAX_SLOTS) :
    ∃ es, lineBytes es = [] ∧ .call false ∉ es ∧ (outputs step s es).getLast? = some .handle ∧
      take (exec step s es).rx bytes.length = bytes := by
  obtain ⟨es, hline, hlocked, hreads, hidle⟩ := exists_reads h.inv h.call h.full
  let a : Listener := ⟨s.rx, s.obj.unread, [], [], s.next⟩
  have hunread : a.unread = s.obj.unread := List.append_nil _
  have harrived : a.unread = packet opcode data := by
    rw [hunread, RxObj.unread, (h.inv.idle h.call).2, h.cur, h.queue, ← hbytes]
    rfl
  have hfollows : Follows s a := follows_idle (t := a) h.inv h.call hunread.symm
  have hend := tracks_listen.exec_rel hfollows es
  have houtputs := tracks_listen.outputs_eq hfollows es
  obtain ⟨hout, hrx⟩ := listen_packet (a := a) hnext harrived hdata
  rw [hreads] at hend houtputs
  refine ⟨es, hline, hlocked, ?_, ?_⟩
  · rw [← houtputs, hout]
    rfl
  · have hsame := hend.rx
    rw [(hend.inv.idle hidle).2, store_nil, ite_self] at hsame
    rw [hsame, hbytes]
    exact hrx

/-- From an empty driver on, a packet that comes over the line is handled. -/
theorem hears_of_ready (h : Ready [] s.obj) (hnext : s.next = .header) (hcap : PACKET_SIZE ≤ cap)
    (opcode : UInt8) {data : List UInt8} (hdata : data.length ≤ DMX_MAX_SLOTS) :
    s.Hears (packet opcode data) := by
  have hlength : (packet opcode data).length = HEADER_SIZE + data.length := List.length_append
  have hroom : ([] : List UInt8).length + (packet opcode data).length ≤ cap := by
    rw [List.length_nil, hlength]
    unfold PACKET_SIZE at hcap
    omega
  obtain ⟨hready, hnext', _, hquiet⟩ := exec_line (packet opcode data) h hroom
  obtain ⟨es, hline, hlocked, hhandle, hrx⟩ := exists_handles hready (hnext'.trans hnext) rfl hdata
  refine ⟨line (packet opcode data) ++ es, ?_, ?_, ?_, ?_⟩
  · rw [lineBytes_append, lineBytes_line, hline, List.append_nil]
  · simp [line, hlocked]
  · rw [outputs_append, hquiet, List.nil_append]
    exact hhandle
  · rw [exec_append]
    exact hrx

theorem Hears.of_tasks {m : ℕ} {bytes : List UInt8}
    (hquiet : outputs step s (List.replicate m (.task 0)) = [])
    (h : (exec step s (List.replicate m (.task 0))).Hears bytes) : s.Hears bytes := by
  obtain ⟨es, hline, hlocked, hhandle, hrx⟩ := h
  have hnone : lineBytes (List.replicate m (.task 0)) = [] := by
    unfold lineBytes
    simp
  refine ⟨List.replicate m (.task 0) ++ es, ?_, ?_, ?_, ?_⟩
  · rw [lineBytes_append, hnone, hline, List.nil_append]
  · simp [hlocked]
  · rw [outputs_append, hquiet, List.nil_append]
    exact hhandle
  · rw [exec_append]
    exact hrx

/-- While the task is in its flush, as it is in each turn of its loop: when no flush has begun
with bytes kept back and nothing in the ring buffer, any packet can still be heard; when one
has, no packet ever is. -/
theorem hears_or_stopped (cap : ℕ) (hcap : PACKET_SIZE ≤ cap) (rx : Bytes) (es : List ListenStep)
    (hflush : (exec step (installed cap rx) es).obj.call = some .uartFlush) :
    (Along step FlushesItem (installed cap rx) es →
        ∀ opcode data, data.length ≤ DMX_MAX_SLOTS →
          (exec step (installed cap rx) es).Hears (packet opcode data)) ∧
      (¬ Along step FlushesItem (installed cap rx) es → (exec step (installed cap rx) es).Stopped) := by
  have hfifo : UART_FIFO_LEN ≤ cap := Nat.le_trans (by decide) hcap
  have hfollows := tracks_listen.exec_rel (follows_installed cap rx) es
  have hnext : (exec step (installed cap rx) es).next = .flush := hfollows.calls _ hflush
  constructor
  · intro halong opcode data hdata
    have halive := (alive_iff_along hfifo rx es).mpr halong
    obtain ⟨m, hready, hheader, hquiet⟩ := ready_of_flush hfollows.inv hfifo halive hflush hnext
    exact (hears_of_ready hready hheader hcap opcode hdata).of_tasks hquiet
  · intro hbroken
    have hdead := (alive_or_dead hfifo rx es).resolve_left fun halive =>
      hbroken ((alive_iff_along hfifo rx es).mp halive)
    exact hdead.stopped hfifo

/-- A full FIFO, and its interrupt. -/
def fifoLoad : List ListenStep := List.replicate UART_FIFO_LEN (.arrive 0) ++ [.rxfifo]

/-- The header is read from an item that leaves no room for the next load. -/
def crowdedTurn : List ListenStep :=
  [.call true, .task 0, .task 0, .task 0] ++ (List.replicate 4 fifoLoad).flatten ++
    [.call true, .task 511] ++ fifoLoad ++ [.task 0, .task 0]

/-- In the first flush the task hears, with the buffer that `uart_blizzard_init` asks for; behind
the crowded turn of a smaller one the next flush stops it. -/
theorem hears_or_stopped_turns :
    (exec step (installed (3 * PACKET_SIZE) fun _ => 0) [.call true]).Hears (packet 1 [7, 8]) ∧
      (exec step (installed PACKET_SIZE fun _ => 0) (crowdedTurn ++ [.call true])).Stopped := by
  have hfirst := hears_or_stopped (3 * PACKET_SIZE) (by decide) (fun _ => 0) [.call true] rfl
  refine ⟨hfirst.1 (by decide) 1 [7, 8] (by decide), ?_⟩
  -- the turn is evaluated once; what follows uses these four facts
  have hcrowded : ∃ t, exec step (installed PACKET_SIZE fun _ => 0) crowdedTurn = t ∧ t.next = .flush ∧
      t.obj.call = none ∧ t.obj.rxBufferFullFlg = true ∧ t.obj.ring.queue = [] :=
    ⟨_, rfl, by decide +kernel⟩
  obtain ⟨t, ht, hnext, hcall, hkept⟩ := hcrowded
  have hflush : (t.step (.call true)).1.obj.call = some .uartFlush := by
    simp [step, startCall, RxObj.next, RxObj.start, hcall, hnext, ListenCall.rxCall]
  have hends : (exec step (installed PACKET_SIZE fun _ => 0) (crowdedTurn ++ [.call true])).obj.call =
      some .uartFlush := by
    rw [exec_append, ht]
    exact hflush
  have hbroken : ¬ Along step FlushesItem (installed PACKET_SIZE fun _ => 0) (crowdedTurn ++ [.call true]) := by
    rw [along_append, ht]
    exact fun halong => halong.2.1 true rfl hnext hcall hkept
  exact (hears_or_stopped PACKET_SIZE le_rfl (fun _ => 0) _ hends).2 hbroken

end hears

end ListenTask

end BlizzardBridge
