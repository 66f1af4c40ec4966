import BlizzardBridge.UartTxPath

/-! What the sending side does with the messages of a run, in whatever order the writing task,
the handler and the transmitter take their steps. -/
namespace BlizzardBridge
open Framing EventMachine

namespace TxObj
variable {s : TxObj}

/-- The bytes of a call that is accepted. -/
def written (s : TxObj) : TxEvent → List UInt8
  | .write src brk => if s.Accepts src brk then src else []
  | _ => []

def sent (maxSize : ℕ) (s : TxObj) (e : TxEvent) : List UInt8 := (s.next maxSize e).2.flatMap TxOutput.bytes

/-- What the handler has not yet moved to the FIFO, and what the call has not yet put into the
ring buffer. -/
def behind (s : TxObj) : List UInt8 :=
  s.cur ++ (s.ring.flatMap Item.payload ++ (s.task.map TxTask.left).getD [])

def pending (s : TxObj) : List UInt8 := s.fifo ++ s.behind

theorem pending_sendHead {t : TxTask} (ht : s.task = some t) : (s.sendHead t).pending = s.pending := by
  simp [pending, behind, sendHead, cur, ht, Item.payload]

theorem pending_sendChunk (maxSize : ℕ) {t : TxTask} (ht : s.task = some t) :
    (s.sendChunk maxSize t).pending = s.pending := by
  simp [pending, behind, sendChunk, cur, ht, Item.payload]

theorem pending_uartEnableTxIntr {t : TxTask} (ht : s.task = some t) :
    (s.uartEnableTxIntr t).pending = s.pending := by
  unfold uartEnableTxIntr
  split_ifs with hleft
  · simp [pending, behind, cur, ht, hleft]
  · simp [pending, behind, cur, ht]

theorem pending_taskStep (maxSize : ℕ) (s : TxObj) : (s.taskStep maxSize).pending = s.pending := by
  unfold taskStep
  cases ht : s.task with
  | none => rfl
  | some t =>
    dsimp only
    cases t.point with
    | head => exact pending_sendHead ht
    | chunk => exact pending_sendChunk maxSize ht
    | enable => exact pending_uartEnableTxIntr ht

theorem pending_receiveItem (h : s.Inv) (rem : ℕ) (enTx : Bool) (hcur : s.txLenTot = 0 ∨ s.cur = []) :
    (s.receiveItem rem enTx).pending = s.pending := by
  have hempty : s.cur = [] := by
    rcases hcur with hzero | hempty
    · exact List.length_eq_zero_iff.mp (Nat.le_zero.mp (hzero ▸ h.cur))
    · exact hempty
  have hptr : s.txPtr = none := (cur_eq_nil_iff h).mp hempty
  unfold receiveItem
  cases hring : s.ring with
  | nil => simp [pending, behind, cur, hring]
  | cons item ring =>
    dsimp only
    split_ifs
    · cases item with
      | header size brk => simp [pending, behind, cur, hring, hptr, Item.payload]
      | chunk xs => simp [pending, behind, cur, hring]
    · cases item with
      | header size brk => simp [pending, behind, cur, hring]
      | chunk xs => simp [pending, behind, cur, hring, hptr, Item.payload]

theorem pending_fillFifo (rem : ℕ) (enTx : Bool) : (s.fillFifo rem enTx).pending = s.pending := by
  have hsplit : s.cur.take rem ++ s.cur.drop rem = s.cur := List.take_append_drop _ _
  have hwhole (h : s.cur.length ≤ rem) : s.cur.take rem = s.cur := List.take_of_length_le h
  unfold fillFifo
  dsimp only
  split_ifs with hall hbrk
  · simp only [pending, behind, hwhole hall]
    simp [cur]
  · simp only [pending, behind, hwhole hall]
    simp [cur]
  · simp only [pending, behind]
    let rest := s.ring.flatMap Item.payload ++ (s.task.map TxTask.left).getD []
    calc s.fifo ++ s.cur.take rem ++ (s.cur.drop rem ++ rest)
        = s.fifo ++ (s.cur.take rem ++ s.cur.drop rem ++ rest) := by simp only [List.append_assoc]
      _ = s.fifo ++ (s.cur ++ rest) := by rw [hsplit]

theorem pending_fillTurn : s.fillTurn.pending = s.pending := by
  unfold fillTurn
  cases s.isr with
  | refill rem enTx =>
    dsimp only
    split_ifs
    · exact pending_fillFifo rem enTx
    · rfl
  | _ => rfl

theorem pending_turn (h : s.Inv) : s.turn.pending = s.pending := by
  unfold turn
  cases s.isr with
  | refill rem enTx =>
    dsimp only
    split_ifs with hrem hcur
    · rfl
    · rw [pending_fillTurn]
      exact pending_receiveItem h rem enTx hcur
    · exact pending_fillTurn
  | _ => rfl

theorem pending_next (maxSize : ℕ) (h : s.Inv) (e : TxEvent) :
    s.pending ++ s.written e = s.sent maxSize e ++ (s.next maxSize e).1.pending := by
  have hnone {s' : TxObj} (h : s'.pending = s.pending) : s.pending ++ [] = [] ++ s'.pending :=
    (List.append_nil _).trans h.symm
  cases e with
  | write src brk =>
    unfold written sent next write
    dsimp only
    split_ifs with haccept
    · simp [pending, behind, cur, haccept.1]
    · exact hnone rfl
  | task => exact hnone (pending_taskStep maxSize s)
  | txfifoEmpty =>
    unfold sent next
    dsimp only
    split_ifs
    · exact hnone rfl
    · exact hnone rfl
  | turn => exact hnone (pending_turn h)
  | txBrkDone =>
    unfold sent next isrTxBrkDone
    dsimp only
    split_ifs
    · exact hnone rfl
    · exact hnone rfl
    · exact hnone rfl
  | shiftOut =>
    have hfirst : s.fifo = ((s.fifo.take 1).map TxOutput.byte).flatMap TxOutput.bytes ++ s.fifo.tail := by
      cases s.fifo with
      | nil => rfl
      | cons b fifo => rfl
    calc s.pending ++ [] = s.fifo ++ s.behind := List.append_nil _
      _ = s.sent maxSize .shiftOut ++ s.fifo.tail ++ s.behind := congrArg (· ++ s.behind) hfirst
      _ = s.sent maxSize .shiftOut ++ (s.next maxSize .shiftOut).1.pending := List.append_assoc _ _ _
  | sendBreak =>
    unfold sent next sendBreak
    dsimp only
    split_ifs
    · exact hnone rfl
    · exact hnone rfl

theorem bytes_outputs (maxSize : ℕ) (s : TxObj) (es : List TxEvent) :
    (outputs (next maxSize) s es).flatMap TxOutput.bytes = linearize (next maxSize) (sent maxSize) s es := by
  induction es generalizing s with
  | nil => rfl
  | cons e es ih =>
    rw [outputs_cons, List.flatMap_append, ih]
    rfl

/-- In every run the bytes on the line are the messages of the calls one behind the other, up to
what has not yet gone out; and no item is ever taken for one of the other kind. -/
theorem line_eq_written (maxSize : ℕ) (hmax : 2 ≤ maxSize) (es : List TxEvent) :
    linearize (next maxSize) written installed es =
        (outputs (next maxSize) installed es).flatMap TxOutput.bytes ++
          (exec (next maxSize) installed es).pending ∧
      (exec (next maxSize) installed es).isr ≠ .misread := by
  constructor
  · rw [bytes_outputs]
    exact linearize_conserve (c := next maxSize) (I := Inv) (k := pending)
      (fun s e h => inv_next hmax h e) (fun s e h => pending_next maxSize h e) inv_installed es
  · exact (inv_exec hmax inv_installed es).read

/-- A message of five bytes in two chunks, of which the handler moves the first. -/
def chunkedRun : List TxEvent :=
  [.write [1, 2, 3, 4, 5] none, .task, .task, .task, .txfifoEmpty, .turn, .turn, .task, .shiftOut]

theorem line_eq_written_chunked : 2 ≤ 6 ∧
    linearize (next 6) written installed chunkedRun =
        (outputs (next 6) installed chunkedRun).flatMap TxOutput.bytes ++
          (exec (next 6) installed chunkedRun).pending ∧
      (exec (next 6) installed chunkedRun).isr ≠ .misread :=
  ⟨by decide, line_eq_written 6 (by decide) chunkedRun⟩

/-- The handler never sleeps over an item that it has been told of. When it is done, no break is
awaited and its interrupt is off, all items in the ring buffer are ones that the running call has
put there since it last enabled the interrupt; without a call everything is in the FIFO. -/
theorem asleep_items (maxSize : ℕ) (hmax : 2 ≤ maxSize) (es : List TxEvent)
    (hisr : (exec (next maxSize) installed es).isr = .idle)
    (hena : (exec (next maxSize) installed es).enaTxfifoEmpty = false)
    (hbrk : (exec (next maxSize) installed es).txWaitingBrk = false) :
    (exec (next maxSize) installed es).items ≤ (exec (next maxSize) installed es).fresh ∧
      ((exec (next maxSize) installed es).task = none →
        (exec (next maxSize) installed es).pending = (exec (next maxSize) installed es).fifo) := by
  have h : (exec (next maxSize) installed es).Inv := inv_exec hmax inv_installed es
  generalize exec (next maxSize) installed es = s at *
  have hitems := h.awake (Or.inl hisr) hena hbrk
  refine ⟨hitems, fun htask => ?_⟩
  have hzero : s.items = 0 := by
    have hfresh : s.fresh = 0 := by
      rw [fresh, htask]
      rfl
    omega
  have hring : s.ring = [] := List.length_eq_zero_iff.mp (Nat.eq_zero_of_add_eq_zero_right hzero)
  have hptr : s.txPtr = none := by
    by_contra hsome
    rw [items, if_neg hsome] at hzero
    omega
  simp [pending, behind, cur, hring, hptr, htask]

/-- A message of one byte, and a second call of the handler that finds nothing more. -/
def drainedRun : List TxEvent :=
  [.write [7] none, .task, .task, .task, .txfifoEmpty, .turn, .turn, .turn, .turn, .txfifoEmpty, .turn, .turn]

theorem asleep_items_drained : (exec (next 6) installed drainedRun).items ≤ 0 ∧
    (exec (next 6) installed drainedRun).pending = (exec (next 6) installed drainedRun).fifo := by
  have hitems := asleep_items 6 (by decide) drainedRun (by decide) (by decide) (by decide)
  exact ⟨hitems.1, hitems.2 (by decide)⟩

section turns

/-- The handler is in its loop over the ring buffer. -/
def InLoop (s : TxObj) : Prop :=
  match s.isr with
  | .refill _ _ => True
  | _ => False

instance (s : TxObj) : Decidable s.InLoop := by
  unfold InLoop
  cases s.isr with
  | refill rem enTx => exact instDecidableTrue
  | _ => exact instDecidableFalse

/-- A turn fills a place of the FIFO, or takes the description of a message in front of one that does. -/
def variant (s : TxObj) : ℕ :=
  match s.isr with
  | .refill rem _ => 2 * rem + (if s.txLenTot = 0 then 1 else 0) + 1
  | _ => 0

theorem variant_fillFifo {rem : ℕ} (enTx : Bool) (hrem : rem ≠ 0) (hcur : s.cur ≠ []) :
    (s.fillFifo rem enTx).variant < 2 * rem + 1 := by
  have hpos : 0 < s.cur.length := List.length_pos_iff.mpr hcur
  have hif (n : ℕ) : (if n = 0 then 1 else 0) ≤ 1 := by split_ifs <;> omega
  unfold fillFifo
  dsimp only
  split_ifs with hall hbrk
  · have hle := hif (s.txLenTot - min s.cur.length rem)
    simp only [variant]
    omega
  · have hle := hif (s.txLenTot - min s.cur.length rem)
    simp only [variant]
    omega
  · have hle := hif (s.txLenTot - min s.cur.length rem)
    simp only [variant]
    omega

theorem fillTurn_of_cur {rem : ℕ} {enTx : Bool} (hisr : s.isr = .refill rem enTx) (htot : 0 < s.txLenTot)
    (hcur : s.cur ≠ []) : s.fillTurn = s.fillFifo rem enTx := by
  unfold fillTurn
  rw [hisr]
  exact if_pos ⟨htot, hcur⟩

theorem variant_fillTurn {rem : ℕ} {enTx : Bool} (hisr : s.isr = .refill rem enTx) (hrem : rem ≠ 0)
    (htot : 0 < s.txLenTot) : s.fillTurn.variant ≤ 2 * rem + 1 := by
  unfold fillTurn
  rw [hisr]
  dsimp only
  split_ifs with hfill
  · exact Nat.le_of_lt (variant_fillFifo enTx hrem hfill.2)
  · rw [variant, hisr]
    dsimp only
    rw [if_neg (Nat.pos_iff_ne_zero.mp htot)]

theorem variant_receiveItem (h : s.Inv) {rem : ℕ} {enTx : Bool} (hisr : s.isr = .refill rem enTx)
    (hrem : rem ≠ 0) (hcur : s.txLenTot = 0 ∨ s.cur = []) :
    (s.receiveItem rem enTx).fillTurn.variant < s.variant := by
  have hempty : s.cur = [] := by
    rcases hcur with hzero | hempty
    · exact List.length_eq_zero_iff.mp (Nat.le_zero.mp (hzero ▸ h.cur))
    · exact hempty
  have hptr : s.txPtr = none := (cur_eq_nil_iff h).mp hempty
  have hvariant : s.variant = 2 * rem + (if s.txLenTot = 0 then 1 else 0) + 1 := by
    rw [variant, hisr]
  have hframed := h.framed
  rw [hempty, List.length_nil, Nat.sub_zero] at hframed
  rw [hvariant]
  unfold receiveItem
  cases hring : s.ring with
  | nil => exact Nat.succ_pos _
  | cons item ring =>
    rw [hring] at hframed
    dsimp only
    split_ifs with hzero
    · cases item with
      | header size brk =>
        have hsize : 0 < size := (outstanding_header hframed).2.1
        exact Nat.lt_of_le_of_lt (variant_fillTurn rfl hrem hsize) (Nat.lt_succ_self _)
      | chunk xs => exact Nat.succ_pos _
    · cases item with
      | header size brk => exact Nat.succ_pos _
      | chunk xs =>
        have hpos : 0 < xs.length := (outstanding_chunk hframed).1
        have hxs : xs ≠ [] := List.length_pos_iff.mp hpos
        let s' : TxObj := { s with ring := ring, txPtr := some xs, isr := .refill rem true }
        have hturn : s'.fillTurn = s'.fillFifo rem true :=
          fillTurn_of_cur (s := s') rfl (Nat.pos_of_ne_zero hzero) hxs
        change s'.fillTurn.variant < _
        rw [hturn]
        exact variant_fillFifo (s := s') true hrem hxs

theorem variant_turn (h : s.Inv) (hloop : s.InLoop) : s.turn.variant < s.variant := by
  unfold InLoop at hloop
  unfold turn
  cases hisr : s.isr with
  | refill rem enTx =>
    have hvariant : s.variant = 2 * rem + (if s.txLenTot = 0 then 1 else 0) + 1 := by
      rw [variant, hisr]
    dsimp only
    split_ifs with hrem hcur
    · rw [hvariant]
      exact Nat.succ_pos _
    · exact variant_receiveItem h hisr hrem hcur
    · obtain ⟨htot, hne⟩ := not_or.mp hcur
      rw [fillTurn_of_cur hisr (Nat.pos_of_ne_zero htot) hne, hvariant, if_neg htot]
      exact variant_fillFifo enTx hrem hne
  | _ => simp [hisr] at hloop

theorem variant_other {maxSize : ℕ} {e : TxEvent} (hloop : s.InLoop) (he : e ≠ .turn) :
    (s.next maxSize e).1.variant ≤ s.variant := by
  have hbusy : s.isr ≠ .idle := by
    intro hidle
    simp [InLoop, hidle] at hloop
  cases e with
  | write src brk =>
    unfold next write
    dsimp only
    split_ifs
    · exact Nat.le_refl _
    · exact Nat.le_refl _
  | task =>
    unfold next taskStep
    dsimp only
    cases s.task with
    | none => exact Nat.le_refl _
    | some t =>
      dsimp only
      cases t.point with
      | head => exact Nat.le_refl _
      | chunk => exact Nat.le_refl _
      | enable => exact Nat.le_refl _
  | txfifoEmpty =>
    rw [next, if_neg fun hand => hbusy hand.1]
  | turn => exact absurd rfl he
  | txBrkDone =>
    rw [next, if_neg fun hand => hbusy hand.1]
  | shiftOut => exact Nat.le_refl _
  | sendBreak =>
    unfold next sendBreak
    dsimp only
    split_ifs
    · exact Nat.le_refl _
    · exact Nat.le_refl _

/-- A call of the handler that finds room for `rem` bytes leaves its loop after `2 * rem + 2` turns
at most, whatever the task puts into the ring buffer meanwhile. -/
theorem turns_le (maxSize : ℕ) (hmax : 2 ≤ maxSize) (es fs : List TxEvent) (rem : ℕ)
    (hentered : (exec (next maxSize) installed es).isr = .refill rem false)
    (hloop : Along (next maxSize) (fun s _ => s.InLoop) (exec (next maxSize) installed es) fs) :
    fs.count .turn ≤ 2 * rem + 2 := by
  have h : (exec (next maxSize) installed es).Inv := inv_exec hmax inv_installed es
  have hbound : fs.countP (· == .turn) ≤ (exec (next maxSize) installed es).variant := by
    apply countP_le_variant (I := Inv) (v := variant) _ _ _ h hloop
    · exact fun s e h _ => inv_next hmax h e
    · intro s e h hloop he
      obtain rfl : e = .turn := by simpa using he
      exact variant_turn h hloop
    · intro s e _ hloop he
      exact variant_other hloop (by simpa using he)
  have hvariant : (exec (next maxSize) installed es).variant ≤ 2 * rem + 2 := by
    rw [variant, hentered]
    dsimp only
    split_ifs
    · exact Nat.le_refl _
    · exact Nat.le_succ _
  exact Nat.le_trans hbound hvariant

/-- Of sixty-five messages of one byte each takes two turns, which is more than the 128 turns that
the comment in the handler promises. -/
def shortMessages : List TxEvent :=
  (List.replicate 65 [.write [0] none, .task, .task, .task]).flatten ++ [.txfifoEmpty]

theorem turns_le_short : 128 < (List.replicate 130 TxEvent.turn).count .turn ∧
    (List.replicate 130 TxEvent.turn).count .turn ≤ 2 * 128 + 2 := by
  have hmax : 2 ≤ 6 := by decide
  have hentered : (exec (next 6) installed shortMessages).isr = .refill 128 false := by decide +kernel
  have hloop : Along (next 6) (fun s _ => s.InLoop) (exec (next 6) installed shortMessages)
      (List.replicate 130 .turn) := by decide +kernel
  exact ⟨by decide +kernel, turns_le 6 hmax shortMessages (List.replicate 130 .turn) 128 hentered hloop⟩

end turns

end TxObj

end BlizzardBridge
