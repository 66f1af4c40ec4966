import BlizzardBridge.UartRxStream

/-! When the receiver stops for good. Bytes without room are kept back until a read or a flush
has returned an item, and the interrupts stay off meanwhile; so there has to be one to return. -/
namespace BlizzardBridge
open RingBuffer EventMachine

namespace RxObj
variable {cap : ℕ} {s : RxObj cap}

/-- No read returns a byte any more, whatever happens. -/
def Deaf (s : RxObj cap) : Prop :=
  ∀ es length bytes, .read length bytes ∈ outputs next s es → bytes = []

/-- An item will still be returned, with the stash tried again behind it. -/
def Retries (s : RxObj cap) : Prop :=
  s.ring.queue ≠ [] ∨ s.point = .giveBack ∨ s.point = .item ∨ s.cur ≠ [] ∧ s.call ≠ some .uartFlush

def Alive (s : RxObj cap) : Prop := s.rxBufferFullFlg = true → s.Retries

/-- A flush does not begin with bytes kept back and no item in the ring buffer. -/
def FlushesItem (s : RxObj cap) (e : RxEvent) : Prop :=
  e = .call .uartFlush → s.call = none → ¬ (s.rxBufferFullFlg = true ∧ s.ring.queue = [])

instance (s : RxObj cap) (e : RxEvent) : Decidable (s.FlushesItem e) :=
  inferInstanceAs (Decidable (_ → _ → ¬ (_ ∧ _)))

theorem alive_of_queue (h : s.ring.queue ≠ []) : s.Alive := fun _ => Or.inl h

theorem alive_of_not_full (h : s.rxBufferFullFlg = false) : s.Alive :=
  fun hfull => Bool.noConfusion (h.symm.trans hfull)

section step

theorem alive_isrRxfifo (h : s.Inv) (hcap : UART_FIFO_LEN ≤ cap) (hraised : s.Raised) :
    s.isrRxfifo.Alive ↔ s.Alive := by
  have hrunning : s.call ≠ some .uartFlush :=
    fun hflush => Bool.noConfusion ((h.off hflush).symm.trans hraised.1)
  unfold isrRxfifo
  split_ifs with hfull
  · exact Iff.rfl
  · refine iff_of_true ?_ (alive_of_not_full (Bool.eq_false_iff.mpr hfull))
    rcases Ring.send_cases s.ring s.fifo with ⟨ring, hsend, _⟩ | ⟨hsend, _⟩
    · rw [hsend]
      exact alive_of_not_full (Bool.eq_false_iff.mpr hfull)
    · rw [hsend]
      intro _
      have hfits : used (fun _ : UInt8 => 1) s.fifo ≤ cap := by
        rw [used_one]
        exact Nat.le_trans h.fifo hcap
      rcases Ring.occupied_of_send_none hsend hfits with hout | hqueue
      · by_cases hcur : s.cur = []
        · by_cases hpoint : s.point = .giveBack
          · exact Or.inr (Or.inl hpoint)
          · exact absurd (h.out hcur hpoint) hout
        · exact Or.inr (Or.inr (Or.inr ⟨hcur, hrunning⟩))
      · exact Or.inl hqueue

theorem alive_resend (h : s.Inv) (hcap : UART_FIFO_LEN ≤ cap) (hpoint : s.point = .item) :
    s.resend.Alive := by
  have hout : s.ring.out = [] :=
    h.out (h.between (by rw [hpoint]; decide)) (by rw [hpoint]; decide)
  unfold resend
  split_ifs with hfull
  · rcases Ring.send_cases s.ring s.rxStash with ⟨ring, hsend, hqueue, _⟩ | ⟨hsend, _⟩
    · rw [hsend]
      apply alive_of_queue
      rw [hqueue]
      exact List.append_ne_nil_of_right_ne_nil _ (h.kept hfull)
    · have hfits : used (fun _ : UInt8 => 1) s.rxStash ≤ cap := by
        rw [used_one]
        exact Nat.le_trans h.stash hcap
      rw [hsend]
      rcases Ring.occupied_of_send_none hsend hfits with hne | hqueue
      · exact absurd hout hne
      · exact alive_of_queue hqueue
  · exact alive_of_not_full (Bool.eq_false_iff.mpr hfull)

theorem alive_readLoop (hpoint : s.point = .loop) {length : ℕ}
    (hcall : s.call = some (.uartReadBytes length)) (k : ℕ) : (s.readLoop length k).1.Alive ↔ s.Alive := by
  unfold readLoop
  split_ifs with hend hcur
  · simp [Alive, Retries, hpoint, hcall]
  · have hqueue : s.ring.queue ≠ [] := fun hnone => hend (Or.inr ⟨hcur, hnone⟩)
    have hitem : s.ring.queue.take (k + 1) ≠ [] := by
      rw [Ne, List.take_eq_nil_iff]
      exact not_or.mpr ⟨Nat.succ_ne_zero k, hqueue⟩
    refine iff_of_true (fun _ => Or.inr (Or.inr (Or.inr ⟨hitem, ?_⟩))) (alive_of_queue hqueue)
    rw [receiveItem, hcall]
    simp
  · have hnot : s.call ≠ some .uartFlush := by simp [hcall]
    refine iff_of_true ?_ (fun _ => Or.inr (Or.inr (Or.inr ⟨hcur, hnot⟩)))
    unfold copyOut
    dsimp only
    split_ifs with hempty
    · exact fun _ => Or.inr (Or.inr (Or.inl rfl))
    · exact fun _ => Or.inr (Or.inr (Or.inr ⟨hempty, by simp⟩))

theorem alive_flushHead (hpoint : s.point = .loop) (hcall : s.call = some .uartFlush) :
    s.flushHead.Alive ↔ s.Alive := by
  unfold flushHead
  split_ifs with hhead
  · simp [Alive, Retries, hpoint, hcall]
  · simp [Alive, Retries, hpoint, hcall]

theorem alive_flushReceive (hpoint : s.point = .receive) (k : ℕ) :
    (s.flushReceive k).Alive ↔ s.Alive := by
  unfold flushReceive
  split_ifs with hqueue
  · simp [Alive, Retries, hpoint]
  · exact iff_of_true (fun _ => Or.inr (Or.inl rfl)) (alive_of_queue hqueue)

theorem alive_taskStep (h : s.Inv) (hcap : UART_FIFO_LEN ≤ cap) (k : ℕ) :
    (s.taskStep k).1.Alive ↔ s.Alive := by
  unfold taskStep
  cases hpoint : s.point with
  | loop =>
    cases hcall : s.call with
    | none => exact Iff.rfl
    | some c =>
      cases c with
      | uartReadBytes length => exact alive_readLoop hpoint hcall k
      | uartFlush => exact alive_flushHead hpoint hcall
  | receive => exact alive_flushReceive hpoint k
  | giveBack =>
    exact iff_of_true (fun _ => Or.inr (Or.inr (Or.inl rfl))) (fun _ => Or.inr (Or.inl hpoint))
  | item => exact iff_of_true (alive_resend h hcap hpoint) (fun _ => Or.inr (Or.inr (Or.inl hpoint)))
  | sent =>
    have hqueue := (h.resent (Or.inl hpoint)).2
    exact iff_of_true (alive_of_queue hqueue) (alive_of_queue hqueue)
  | counted =>
    have hqueue := (h.resent (Or.inr hpoint)).2
    exact iff_of_true (alive_of_not_full rfl) (alive_of_queue hqueue)
  | cleared => simp [Alive, Retries, hpoint, uartEnableRxIntr]
  | leave =>
    have hcur : s.cur = [] := h.between (by rw [hpoint]; decide)
    simp [Alive, Retries, hpoint, flushLeave, hcur]

theorem alive_start (h : s.Inv) (c : RxCall) (hcall : s.call = none) :
    (s.start c).Alive ↔ s.Alive ∧ s.FlushesItem (.call c) := by
  obtain ⟨hpoint, _⟩ := h.idle hcall
  cases c with
  | uartReadBytes length => simp [Alive, Retries, FlushesItem, start, hpoint, hcall]
  | uartFlush =>
    simp only [Alive, Retries, FlushesItem, start, hpoint, hcall]
    simp
    tauto

theorem alive_next (h : s.Inv) (hcap : UART_FIFO_LEN ≤ cap) (e : RxEvent) :
    (s.next e).1.Alive ↔ s.Alive ∧ s.FlushesItem e := by
  have hother {s' : RxObj cap} (he : e ≠ .call .uartFlush ∨ s.call ≠ none) (h : s'.Alive ↔ s.Alive) :
      s'.Alive ↔ s.Alive ∧ s.FlushesItem e := by
    have hflushes : s.FlushesItem e := by
      intro hflush hidle
      rcases he with hne | hrunning
      · exact absurd hflush hne
      · exact absurd hidle hrunning
    exact h.trans (and_iff_left hflushes).symm
  cases e with
  | arrive byte =>
    apply hother (Or.inl nofun)
    unfold next arrive
    dsimp only
    split_ifs
    · exact Iff.rfl
    · exact Iff.rfl
  | rxfifo =>
    apply hother (Or.inl nofun)
    unfold next
    dsimp only
    split_ifs with hraised
    · exact alive_isrRxfifo h hcap hraised
    · exact Iff.rfl
  | rxfifoOvf => exact hother (Or.inl nofun) Iff.rfl
  | call c =>
    unfold next
    dsimp only
    split_ifs with hcall
    · exact alive_start h c hcall
    · exact hother (Or.inr hcall) Iff.rfl
  | task k => exact hother (Or.inl nofun) (alive_taskStep h hcap k)

theorem alive_exec_iff (hcap : UART_FIFO_LEN ≤ cap) (es : List RxEvent) :
    (exec next (installed cap) es).Alive ↔ Along next FlushesItem (installed cap) es := by
  have hinv : Along next (fun s _ => s.Inv) (installed cap) es :=
    along_invariant (I := Inv) (fun s e h => inv_next h e) inv_installed es
  have hiff := exec_iff_along (I := Alive) (D := FlushesItem) (fun s e h => alive_next h hcap e) hinv
  rw [hiff]
  exact and_iff_right (alive_of_not_full rfl)

end step

section deaf

/-- Without an item to return, a read that runs has copied nothing. -/
structure Silent (s : RxObj cap) : Prop where
  inv : s.Inv
  dead : ¬ s.Alive
  done : s.call ≠ some .uartFlush → s.done = []

theorem Silent.full (h : s.Silent) : s.rxBufferFullFlg = true := by
  by_contra hfull
  exact h.dead (alive_of_not_full (Bool.eq_false_iff.mpr hfull))

theorem Silent.queue (h : s.Silent) : s.ring.queue = [] := by
  by_contra hqueue
  exact h.dead (alive_of_queue hqueue)

theorem Silent.cur (h : s.Silent) (hcall : s.call ≠ some .uartFlush) : s.cur = [] := by
  by_contra hcur
  exact h.dead fun _ => Or.inr (Or.inr (Or.inr ⟨hcur, hcall⟩))

theorem done_next (h : s.Silent) (e : RxEvent) :
    ((s.next e).1.call ≠ some .uartFlush → (s.next e).1.done = []) ∧
      ∀ length bytes, .read length bytes ∈ (s.next e).2 → bytes = [] := by
  have hsame {s' : RxObj cap} (hcall : s'.call = s.call) (hdone : s'.done = s.done) :
      (s'.call ≠ some .uartFlush → s'.done = []) ∧
        ∀ length bytes, .read length bytes ∈ ([] : List RxOutput) → bytes = [] := by
    refine ⟨fun hne => ?_, fun _ _ hmem => absurd hmem List.not_mem_nil⟩
    rw [hdone]
    exact h.done (hcall ▸ hne)
  cases e with
  | arrive byte =>
    unfold next arrive
    dsimp only
    split_ifs
    · exact hsame rfl rfl
    · exact hsame rfl rfl
  | rxfifo =>
    unfold next
    dsimp only
    split_ifs with hraised
    · unfold isrRxfifo
      rw [if_pos h.full]
      exact hsame rfl rfl
    · exact hsame rfl rfl
  | rxfifoOvf => exact hsame rfl rfl
  | call c =>
    unfold next
    dsimp only
    split_ifs with hcall
    · refine ⟨fun _ => (h.inv.idle hcall).2, fun _ _ hmem => absurd hmem List.not_mem_nil⟩
    · exact hsame rfl rfl
  | task k =>
    unfold next taskStep
    dsimp only
    cases hpoint : s.point with
    | loop =>
      cases hcall : s.call with
      | none => exact hsame rfl rfl
      | some c =>
        cases c with
        | uartReadBytes length =>
          have hnot : s.call ≠ some .uartFlush := by simp [hcall]
          have hdone : s.done = [] := h.done hnot
          dsimp only
          rw [readLoop, if_pos (Or.inr ⟨h.cur hnot, h.queue⟩), hdone]
          refine ⟨fun _ => rfl, ?_⟩
          intro n bytes hmem
          have hout := List.mem_singleton.mp hmem
          injection hout
        | uartFlush =>
          have hcall' : s.flushHead.call = some .uartFlush := by
            unfold flushHead
            split_ifs
            · exact hcall
            · exact hcall
          exact ⟨fun hne => absurd hcall' hne, fun _ _ hmem => absurd hmem List.not_mem_nil⟩
    | receive =>
      dsimp only
      rw [flushReceive, if_pos h.queue]
      exact hsame rfl rfl
    | giveBack => exact absurd (fun _ => Or.inr (Or.inl hpoint)) h.dead
    | item => exact absurd (fun _ => Or.inr (Or.inr (Or.inl hpoint))) h.dead
    | sent => exact absurd h.queue (h.inv.resent (Or.inl hpoint)).2
    | counted => exact absurd h.queue (h.inv.resent (Or.inr hpoint)).2
    | cleared => exact hsame rfl rfl
    | leave =>
      refine ⟨fun _ => rfl, ?_⟩
      intro n bytes hmem
      exact absurd (List.mem_singleton.mp hmem) nofun

theorem Silent.deaf (hcap : UART_FIFO_LEN ≤ cap) (h : s.Silent) : s.Deaf := by
  intro es
  induction es generalizing s with
  | nil => exact fun _ _ hmem => absurd hmem List.not_mem_nil
  | cons e es ih =>
    obtain ⟨hdone, hout⟩ := done_next h e
    have hnext : (s.next e).1.Silent :=
      { inv := inv_next h.inv e
        dead := fun halive => h.dead ((alive_next h.inv hcap e).mp halive).1
        done := hdone }
    intro length bytes hmem
    rw [outputs_cons] at hmem
    rcases List.mem_append.mp hmem with hhead | hrest
    · exact hout length bytes hhead
    · exact ih hnext length bytes hrest

/-- The bytes that a read has copied come out when it ends, which it does after a few steps. -/
def Answers (s : RxObj cap) (bytes : List UInt8) : Prop :=
  ∃ es length, .read length bytes ∈ outputs next s es

theorem answers_of_next {bytes : List UInt8} (e : RxEvent) (h : (s.next e).1.Answers bytes) :
    s.Answers bytes := by
  obtain ⟨es, length, hmem⟩ := h
  refine ⟨e :: es, length, ?_⟩
  rw [outputs_cons]
  exact List.mem_append_right _ hmem

theorem answers_loop (hcall : s.call = some (.uartReadBytes 0)) (hpoint : s.point = .loop) :
    s.Answers s.done := by
  have hstep : s.taskStep 0 = s.readLoop 0 0 := by
    unfold taskStep
    rw [hpoint, hcall]
  refine ⟨[.task 0], s.done.length + 0, ?_⟩
  rw [outputs_cons, outputs_nil, List.append_nil]
  change _ ∈ (s.taskStep 0).2
  rw [hstep, readLoop, if_pos (Or.inl rfl)]
  exact List.mem_singleton_self _

theorem answers_sent (hcall : s.call = some (.uartReadBytes 0)) (hpoint : s.point = .sent) :
    s.Answers s.done := by
  let s₁ := s.countStash
  let s₂ := s₁.clearFull
  let s₃ := s₂.uartEnableRxIntr
  have h₀ : s.taskStep 0 = (s₁, []) := by
    unfold taskStep
    rw [hpoint]
  have h₂ : s₂.point = .cleared := if_neg (by simp [s₁, countStash, hcall])
  have h₃ : s₂.taskStep 0 = (s₃, []) := by
    unfold taskStep
    rw [h₂]
  have hdone : s₃.Answers s.done := answers_loop hcall rfl
  apply answers_of_next (.task 0)
  change (s.taskStep 0).1.Answers s.done
  rw [h₀]
  apply answers_of_next (.task 0)
  apply answers_of_next (.task 0)
  change (s₂.taskStep 0).1.Answers s.done
  rw [h₃]
  exact hdone

theorem answers_item (hcall : s.call = some (.uartReadBytes 0)) (hpoint : s.point = .item) :
    s.Answers s.done := by
  have hstep : s.taskStep 0 = (s.resend, []) := by
    unfold taskStep
    rw [hpoint]
  apply answers_of_next (.task 0)
  change (s.taskStep 0).1.Answers s.done
  rw [hstep]
  unfold resend
  split_ifs with hfull
  · rcases Ring.send_cases s.ring s.rxStash with ⟨ring, hsend, _⟩ | ⟨hsend, _⟩
    · rw [hsend]
      exact answers_sent hcall rfl
    · rw [hsend]
      exact answers_loop hcall rfl
  · exact answers_loop hcall rfl

/-- A read of one byte, with an item at `rx_ptr`. -/
theorem answers_copyOut (hcall : s.call = some (.uartReadBytes 1)) (hpoint : s.point = .loop)
    (hdone : s.done = []) (hcur : s.cur ≠ []) : ∃ bytes, bytes ≠ [] ∧ s.Answers bytes := by
  have hstep : s.taskStep 0 = (s.copyOut 1, []) := by
    unfold taskStep
    rw [hpoint, hcall]
    dsimp only
    rw [readLoop, if_neg (by simp [hcur]), if_neg hcur]
  have hone : 1 - s.cur.length = 0 := Nat.sub_eq_zero_of_le (List.length_pos_iff.mpr hcur)
  refine ⟨s.cur.take 1, by simp [hcur], ?_⟩
  apply answers_of_next (.task 0)
  change (s.taskStep 0).1.Answers _
  rw [hstep]
  unfold copyOut
  dsimp only
  rw [hone, hdone, List.nil_append]
  split_ifs with hempty
  · exact answers_item rfl rfl
  · exact answers_loop rfl hpoint

theorem not_deaf_of_answers {bytes : List UInt8} (hne : bytes ≠ []) (h : s.Answers bytes) :
    ¬ s.Deaf := by
  obtain ⟨es, length, hmem⟩ := h
  exact fun hdeaf => hne (hdeaf es length bytes hmem)

theorem not_deaf_of_next (e : RxEvent) (h : ¬ (s.next e).1.Deaf) : ¬ s.Deaf := by
  intro hdeaf
  apply h
  intro es length bytes hmem
  apply hdeaf (e :: es) length bytes
  rw [outputs_cons]
  exact List.mem_append_right _ hmem

theorem not_deaf_of_there (h : s.Inv) (hcall : s.call = none) (hthere : s.cur ≠ [] ∨ s.ring.queue ≠ []) :
    ¬ s.Deaf := by
  obtain ⟨hpoint, hdone⟩ := h.idle hcall
  let s₁ := s.start (.uartReadBytes 1)
  have hstart : s.next (.call (.uartReadBytes 1)) = (s₁, []) := by
    unfold next
    dsimp only
    rw [if_pos hcall]
  apply not_deaf_of_next (.call (.uartReadBytes 1))
  rw [hstart]
  by_cases hcur : s.cur = []
  · have hqueue : s.ring.queue ≠ [] := hthere.resolve_left (not_not.mpr hcur)
    have hstep : s₁.taskStep 0 = (s₁.receiveItem 0, []) := by
      have hloop : s₁.point = .loop := hpoint
      have hcall₁ : s₁.call = some (.uartReadBytes 1) := rfl
      unfold taskStep
      have hcur₁ : s₁.cur = [] := hcur
      rw [hloop, hcall₁]
      dsimp only
      rw [readLoop, if_neg (by simp [s₁, start, hqueue]), if_pos hcur₁]
    have hitem : s.ring.queue.take 1 ≠ [] := by simp [hqueue]
    obtain ⟨bytes, hne, h⟩ := answers_copyOut (s := s₁.receiveItem 0) rfl hpoint hdone hitem
    apply not_deaf_of_next (.task 0)
    change ¬ (s₁.taskStep 0).1.Deaf
    rw [hstep]
    exact not_deaf_of_answers hne h
  · obtain ⟨bytes, hne, h⟩ := answers_copyOut (s := s₁) rfl hpoint hdone hcur
    exact not_deaf_of_answers hne h

/-- With the interrupts on, the next byte finds room in an empty ring buffer. -/
theorem not_deaf_of_empty (h : s.Inv) (hcap : UART_FIFO_LEN ≤ cap) (hcall : s.call = none)
    (hena : s.enaRxfifo = true) (hfull : s.rxBufferFullFlg = false) (hout : s.ring.out = [])
    (hqueue : s.ring.queue = []) : ¬ s.Deaf := by
  obtain ⟨fifo, hfifo, harrive⟩ : ∃ fifo, fifo ≠ [] ∧ s.arrive 0 = { s with fifo := fifo } := by
    unfold arrive
    split_ifs with hroom
    · exact ⟨s.fifo ++ [0], List.concat_ne_nil _ _, rfl⟩
    · refine ⟨s.fifo, ?_, rfl⟩
      intro hnone
      rw [hnone] at hroom
      exact hroom (by decide)
  have hinv : Inv { s with fifo := fifo } := harrive ▸ inv_arrive h 0
  have hraised : Raised { s with fifo := fifo } := ⟨hena, hfifo⟩
  have hfits : used (fun _ : UInt8 => 1) fifo ≤ cap := by
    rw [used_one]
    exact Nat.le_trans hinv.fifo hcap
  apply not_deaf_of_next (.arrive 0)
  change ¬ (s.arrive 0).Deaf
  rw [harrive]
  apply not_deaf_of_next .rxfifo
  have hisr := inv_isrRxfifo hinv hraised
  change ¬ Deaf (if Raised { s with fifo := fifo } then _ else _)
  rw [if_pos hraised]
  unfold isrRxfifo at hisr ⊢
  dsimp only at hisr ⊢
  rw [hfull, if_neg (by decide)] at hisr ⊢
  rcases Ring.send_cases s.ring fifo with ⟨ring, hsend, hqueue', _⟩ | ⟨hsend, _⟩
  · rw [hsend] at hisr ⊢
    apply not_deaf_of_there hisr hcall
    right
    dsimp only
    rw [hqueue', hqueue]
    exact hfifo
  · rcases Ring.occupied_of_send_none hsend hfits with hne | hne
    · exact absurd hout hne
    · exact absurd hqueue hne

theorem deaf_iff (h : s.Inv) (hcap : UART_FIFO_LEN ≤ cap) (hcall : s.call = none) :
    s.Deaf ↔ ¬ s.Alive := by
  obtain ⟨hpoint, hdone⟩ := h.idle hcall
  constructor
  · intro hdeaf halive
    by_cases hthere : s.cur ≠ [] ∨ s.ring.queue ≠ []
    · exact not_deaf_of_there h hcall hthere hdeaf
    · obtain ⟨hcur, hqueue⟩ := not_or.mp hthere
      have hfull : s.rxBufferFullFlg = false := by
        rw [Bool.eq_false_iff]
        intro hfull
        have hretries := halive hfull
        simp [Retries, hpoint, not_not.mp hcur, not_not.mp hqueue] at hretries
      have hena : s.enaRxfifo = true := by
        by_contra hoff
        have hon := h.on (Bool.eq_false_iff.mpr hoff)
        simp [hfull, hcall, hpoint] at hon
      have hout : s.ring.out = [] := h.out (not_not.mp hcur) (by rw [hpoint]; decide)
      exact not_deaf_of_empty h hcap hcall hena hfull hout (not_not.mp hqueue) hdeaf
  · intro hdead
    exact Silent.deaf hcap ⟨h, hdead, fun _ => hdone⟩

/-- When no call runs, the receiver has stopped for good exactly when some flush has begun with
bytes kept back behind the item at `rx_ptr` and nothing else in the ring buffer. -/
theorem deaf_iff_flushed (cap : ℕ) (hcap : UART_FIFO_LEN ≤ cap) (es : List RxEvent)
    (hidle : (exec next (installed cap) es).call = none) :
    (exec next (installed cap) es).Deaf ↔ ¬ Along next FlushesItem (installed cap) es := by
  rw [deaf_iff (inv_exec inv_installed es) hcap hidle]
  exact not_congr (alive_exec_iff hcap es)

/-- An item of 120 bytes of which one is read, 100 bytes for which no room is left, and a flush. -/
def stoppingRun : List RxEvent :=
  List.replicate 120 (.arrive 0) ++ [.rxfifo, .call (.uartReadBytes 1), .task 119, .task 0, .task 0] ++
    List.replicate 100 (.arrive 0) ++ [.rxfifo, .call .uartFlush, .task 0, .task 0, .task 0]

theorem deaf_iff_flushed_stopping : UART_FIFO_LEN ≤ 200 ∧ (exec next (installed 200) stoppingRun).Deaf := by
  have hfits : UART_FIFO_LEN ≤ 200 := by decide
  have hidle : (exec next (installed 200) stoppingRun).call = none := by decide +kernel
  refine ⟨hfits, (deaf_iff_flushed 200 hfits stoppingRun hidle).mpr ?_⟩
  decide +kernel

end deaf

end RxObj

end BlizzardBridge
