import BlizzardBridge.UartTxStream

/-! Breaks behind a message. While a break is awaited, an empty FIFO sends the handler into a
loop without end, and a message that fits into the FIFO leaves its interrupt on. -/
namespace BlizzardBridge
open Framing EventMachine

namespace TxObj
variable {s : TxObj}

def NoBreak (_ : TxObj) (e : TxEvent) : Prop := ∀ src len, e ≠ .write src (some len)

/-- No break has been asked for. -/
structure Unbroken (s : TxObj) : Prop where
  flag : s.txBrkFlg = false
  waiting : s.txWaitingBrk = false
  ring : ∀ size brk, .header size brk ∈ s.ring → brk = none
  task : ∀ t, s.task = some t → t.brk = none
  isr : s.isr ≠ .spin

theorem unbroken_installed : installed.Unbroken where
  flag := rfl
  waiting := rfl
  ring _ _ hmem := absurd hmem List.not_mem_nil
  task := nofun
  isr := nofun

theorem unbroken_taskStep {maxSize : ℕ} (h : s.Unbroken) : (s.taskStep maxSize).Unbroken := by
  unfold taskStep
  cases ht : s.task with
  | none => exact h
  | some t =>
    have hbrk : t.brk = none := h.task t ht
    dsimp only
    cases t.point with
    | head =>
      exact { h with
        ring := fun size brk hmem => by
          rcases List.mem_append.mp hmem with hold | hnew
          · exact h.ring size brk hold
          · have hheader := List.mem_singleton.mp hnew
            injection hheader with _ htag
            exact htag.trans hbrk
        task := fun t' ht' => (Option.some.inj ht') ▸ hbrk }
    | chunk =>
      exact { h with
        ring := fun size brk hmem => by
          rcases List.mem_append.mp hmem with hold | hnew
          · exact h.ring size brk hold
          · exact absurd (List.mem_singleton.mp hnew) nofun
        task := fun t' ht' => (Option.some.inj ht') ▸ hbrk }
    | enable =>
      unfold uartEnableTxIntr
      exact { h with
        task := fun t' ht' => by
          dsimp only at ht'
          split_ifs at ht'
          exact (Option.some.inj ht') ▸ hbrk }

theorem unbroken_receiveItem (h : s.Unbroken) (rem : ℕ) (enTx : Bool) : (s.receiveItem rem enTx).Unbroken := by
  unfold receiveItem
  cases hring : s.ring with
  | nil =>
    have hnone (size : ℕ) (brk : Option ℕ) (hmem : .header size brk ∈ ([] : List TxItem)) : brk = none :=
      absurd hmem List.not_mem_nil
    exact { h with ring := hnone, isr := nofun }
  | cons item ring =>
    have hrest (size : ℕ) (brk : Option ℕ) (hmem : .header size brk ∈ ring) : brk = none :=
      h.ring size brk (hring ▸ List.mem_cons_of_mem _ hmem)
    have hall (size : ℕ) (brk : Option ℕ) (hmem : .header size brk ∈ item :: ring) : brk = none :=
      h.ring size brk (hring ▸ hmem)
    dsimp only
    split_ifs
    · cases item with
      | header size brk =>
        have hbrk : brk = none := hall size brk List.mem_cons_self
        exact { h with
          flag := by simp [h.flag, hbrk]
          ring := hrest
          isr := nofun }
      | chunk xs => exact { h with ring := hall, isr := nofun }
    · cases item with
      | header size brk => exact { h with ring := hall, isr := nofun }
      | chunk xs => exact { h with ring := hrest, isr := nofun }
    · exact { h with ring := hrest, isr := nofun }

theorem unbroken_fillTurn (h : s.Unbroken) : s.fillTurn.Unbroken := by
  have hflag : ¬ s.txBrkFlg = true := Bool.eq_false_iff.mp h.flag
  unfold fillTurn
  cases s.isr with
  | refill rem enTx =>
    dsimp only
    split_ifs
    · unfold fillFifo
      dsimp only
      split_ifs with hall hbrk
      · exact absurd hbrk.1 hflag
      · exact { h with isr := nofun }
      · exact { h with isr := nofun }
    · exact h
  | _ => exact h

theorem unbroken_turn (h : s.Unbroken) : s.turn.Unbroken := by
  unfold turn
  cases s.isr with
  | refill rem enTx =>
    dsimp only
    split_ifs
    · exact { h with isr := nofun }
    · exact unbroken_fillTurn (unbroken_receiveItem h rem enTx)
    · exact unbroken_fillTurn h
  | leave enTx => exact { h with isr := nofun }
  | _ => exact h

theorem unbroken_next {maxSize : ℕ} (h : s.Unbroken) (e : TxEvent) (he : s.NoBreak e) :
    (s.next maxSize e).1.Unbroken := by
  cases e with
  | write src brk =>
    unfold next write
    dsimp only
    split_ifs
    · refine { h with task := fun t ht => ?_ }
      obtain rfl := Option.some.inj ht
      cases brk with
      | none => rfl
      | some len => exact absurd rfl (he src len)
    · exact h
  | task => exact unbroken_taskStep h
  | txfifoEmpty =>
    unfold next isrTxfifoEmpty
    dsimp only
    split_ifs with hraised hwaiting
    · exact absurd hwaiting (Bool.eq_false_iff.mp h.waiting)
    · exact { h with isr := nofun }
    · exact h
  | turn => exact unbroken_turn h
  | txBrkDone =>
    unfold next isrTxBrkDone
    dsimp only
    split_ifs with hraised hflag
    · exact absurd hflag (Bool.eq_false_iff.mp h.flag)
    · exact { h with }
    · exact h
  | shiftOut => exact { h with }
  | sendBreak =>
    unfold next sendBreak
    dsimp only
    split_ifs
    · exact { h with }
    · exact h

/-- The handler is in the loop without end, or the next empty FIFO sends it there before it looks
at the break. -/
def Wedged (s : TxObj) : Prop :=
  s.isr = .spin ∨ s.isr = .idle ∧ s.txWaitingBrk = true ∧ s.enaTxfifoEmpty = true ∧
    (s.rawTxBrkDone = true → s.fifo = [])

theorem wedged_taskStep {maxSize : ℕ} (h : s.Wedged) :
    (s.taskStep maxSize).Wedged ∧ (s.taskStep maxSize).fifo = s.fifo := by
  unfold taskStep
  cases s.task with
  | none => exact ⟨h, rfl⟩
  | some t =>
    dsimp only
    cases t.point with
    | head => exact ⟨h, rfl⟩
    | chunk => exact ⟨h, rfl⟩
    | enable =>
      refine ⟨?_, rfl⟩
      rcases h with hspin | ⟨hidle, hwaiting, _, hdone⟩
      · exact Or.inl hspin
      · exact Or.inr ⟨hidle, hwaiting, rfl, hdone⟩

theorem wedged_next {maxSize : ℕ} (h : s.Wedged) (e : TxEvent) :
    (s.next maxSize e).1.Wedged ∧ s.fifo = s.sent maxSize e ++ (s.next maxSize e).1.fifo := by
  cases e with
  | write src brk =>
    unfold sent next write
    dsimp only
    split_ifs
    · exact ⟨h, rfl⟩
    · exact ⟨h, rfl⟩
  | task => exact ⟨(wedged_taskStep h).1, (wedged_taskStep h).2.symm⟩
  | txfifoEmpty =>
    unfold sent next
    dsimp only
    split_ifs with hraised
    · rcases h with hspin | ⟨_, hwaiting, _⟩
      · exact absurd (hspin.symm.trans hraised.1) nofun
      · exact ⟨Or.inl (if_pos hwaiting), rfl⟩
    · exact ⟨h, rfl⟩
  | turn =>
    have hturn : s.turn = s := by
      unfold turn
      rcases h with hspin | ⟨hidle, _⟩
      · rw [hspin]
      · rw [hidle]
    unfold sent next
    dsimp only
    rw [hturn]
    exact ⟨h, rfl⟩
  | txBrkDone =>
    unfold sent next
    dsimp only
    split_ifs with hraised
    · obtain ⟨hisr, _, hraw, hnot⟩ := hraised
      rcases h with hspin | ⟨_, _, hena, hdone⟩
      · exact absurd (hspin.symm.trans hisr) nofun
      · refine absurd ⟨hena, ?_⟩ hnot
        rw [hdone hraw]
        decide
    · exact ⟨h, rfl⟩
  | shiftOut =>
    have hfirst : s.fifo = s.sent maxSize .shiftOut ++ s.fifo.tail := by
      unfold sent next shiftOut
      cases s.fifo with
      | nil => rfl
      | cons b fifo => rfl
    refine ⟨?_, hfirst⟩
    rcases h with hspin | ⟨hidle, hwaiting, hena, hdone⟩
    · exact Or.inl hspin
    · refine Or.inr ⟨hidle, hwaiting, hena, fun hraw => ?_⟩
      exact congrArg List.tail (hdone hraw)
  | sendBreak =>
    unfold sent next sendBreak
    dsimp only
    split_ifs with hsend
    · refine ⟨?_, rfl⟩
      rcases h with hspin | ⟨hidle, hwaiting, hena, _⟩
      · exact Or.inl hspin
      · exact Or.inr ⟨hidle, hwaiting, hena, fun _ => hsend.2.2⟩
    · exact ⟨h, rfl⟩

theorem wedged_exec (maxSize : ℕ) (h : s.Wedged) (es : List TxEvent) :
    s.fifo = (outputs (next maxSize) s es).flatMap TxOutput.bytes ++ (exec (next maxSize) s es).fifo := by
  have hconserve := linearize_conserve (c := next maxSize) (I := Wedged) (f := fun _ _ => ([] : List UInt8))
    (k := fifo) (fun s e h => (wedged_next h e).1)
    (fun s e h => (List.append_nil _).trans (wedged_next h e).2) h es
  rw [linearize_none, List.append_nil, ← bytes_outputs] at hconserve
  exact hconserve

theorem turn_of_receive {rem : ℕ} {enTx : Bool} (hisr : s.isr = .refill rem enTx) (hrem : rem ≠ 0)
    (hcur : s.cur = []) : s.turn = (s.receiveItem rem enTx).fillTurn := by
  unfold turn
  rw [hisr]
  dsimp only
  rw [if_neg hrem, if_pos (Or.inr hcur)]

/-- A message with a break is written to a driver at rest, and the handler runs once. -/
def breakRun (src : List UInt8) (len : ℕ) : List TxEvent :=
  [.write src (some len), .task, .task, .task, .txfifoEmpty, .turn, .turn, .turn, .turn]

theorem exec_breakRun {maxSize : ℕ} {src : List UInt8} {len : ℕ} (hsrc : src ≠ [])
    (hroom : src.length ≤ UART_FIFO_LEN) (hchunk : src.length ≤ maxSize / 2) (hlen : 0 < len ∧ len < 256) :
    (exec (next maxSize) installed (breakRun src len)).Wedged ∧
      (exec (next maxSize) installed (breakRun src len)).fifo = src := by
  have htake : src.take (maxSize / 2) = src := List.take_of_length_le hchunk
  have hdrop : src.drop (maxSize / 2) = [] := List.drop_eq_nil_of_le hchunk
  have hpos : 0 < src.length := List.length_pos_iff.mpr hsrc
  have haccept : installed.Accepts src (some len) :=
    ⟨rfl, hsrc, fun len' hlen' => (Option.some.inj hlen') ▸ hlen⟩
  -- The call puts both items into the ring buffer and enables the interrupt.
  let s₁ : TxObj := { installed with task := some ⟨src, some len, .head, 0⟩ }
  let s₂ : TxObj := s₁.sendHead ⟨src, some len, .head, 0⟩
  let s₄ : TxObj :=
    { installed with ring := [.header src.length (some len), .chunk src], enaTxfifoEmpty := true }
  have h₁ : installed.write src (some len) = s₁ := if_pos haccept
  have h₂ : s₁.taskStep maxSize = s₂ := rfl
  have h₄ : (s₂.taskStep maxSize).taskStep maxSize = s₄ := by
    change (s₂.sendChunk maxSize ⟨src, some len, .chunk, 1⟩).taskStep maxSize = s₄
    unfold sendChunk
    dsimp only
    rw [htake, hdrop]
    rfl
  -- The handler finds both.
  let s₅ : TxObj := { s₄ with enaTxfifoEmpty := false, isr := .refill UART_FIFO_LEN false }
  let s₆ : TxObj :=
    { s₅ with ring := [.chunk src], txLenTot := src.length, txBrkFlg := true, txBrkLen := len }
  let s₇ : TxObj :=
    { s₆ with
      ring := []
      fifo := src
      txLenTot := 0
      txBrkNum := len
      txdBrk := true
      enaTxBrkDone := true
      txWaitingBrk := true
      isr := .refill (UART_FIFO_LEN - src.length) true }
  have h₅ : (s₄.next maxSize .txfifoEmpty).1 = s₅ := rfl
  have h₆ : s₅.turn = s₆ := by
    have hturn : s₅.turn = s₆.fillTurn := turn_of_receive (s := s₅) rfl (by decide) rfl
    rw [hturn]
    exact if_neg fun hand => hand.2 rfl
  have h₇ : s₆.turn = s₇ := by
    let s' : TxObj := { s₆ with ring := [], txPtr := some src, isr := .refill UART_FIFO_LEN true }
    have hreceive : s₆.receiveItem UART_FIFO_LEN false = s' := if_neg (Nat.pos_iff_ne_zero.mp hpos)
    have hturn : s₆.turn = s'.fillTurn :=
      (turn_of_receive (s := s₆) rfl (by decide) rfl).trans (congrArg fillTurn hreceive)
    have hmin : min src.length UART_FIFO_LEN = src.length := Nat.min_eq_left hroom
    have hall : src.take UART_FIFO_LEN = src := List.take_of_length_le hroom
    rw [hturn, fillTurn_of_cur (s := s') rfl hpos hsrc]
    simp only [fillFifo, s', s₇, s₆, s₅, s₄, installed, cur, Option.getD_some, hmin, hall, Nat.sub_self,
      if_pos hroom]
    rfl
  have h₈ : s₇.turn = { s₇ with isr := .leave true } := by
    by_cases hfull : UART_FIFO_LEN - src.length = 0
    · exact if_pos hfull
    · exact turn_of_receive (s := s₇) rfl hfull rfl
  have hexec : exec (next maxSize) installed (breakRun src len) = { s₇ with enaTxfifoEmpty := true, isr := .idle } := by
    change (((((((installed.write src (some len)).taskStep maxSize).taskStep maxSize).taskStep maxSize).next
      maxSize .txfifoEmpty).1.turn.turn.turn).turn) = _
    rw [h₁, h₂, h₄, h₅, h₆, h₇, h₈]
    rfl
  rw [hexec]
  exact ⟨Or.inr ⟨rfl, rfl, rfl, Bool.noConfusion⟩, rfl⟩

theorem exec_shiftOut (maxSize n : ℕ) (s : TxObj) :
    exec (next maxSize) s (List.replicate n .shiftOut) = { s with fifo := s.fifo.drop n } := by
  induction n generalizing s with
  | zero => rfl
  | succ n ih =>
    rw [List.replicate_succ, exec_cons, ih]
    change { s with fifo := s.fifo.tail.drop n } = { s with fifo := s.fifo.drop (n + 1) }
    rw [List.drop_tail]

theorem spins_of_wedged (maxSize : ℕ) (h : s.Wedged) : ∃ fs, (exec (next maxSize) s fs).isr = .spin := by
  rcases h with hspin | ⟨hidle, hwaiting, hena, _⟩
  · exact ⟨[], hspin⟩
  · refine ⟨List.replicate s.fifo.length .shiftOut ++ [.txfifoEmpty], ?_⟩
    let s' : TxObj := { s with fifo := s.fifo.drop s.fifo.length }
    have hempty : s'.TxfifoEmpty := by
      refine ⟨hena, ?_⟩
      change (s.fifo.drop s.fifo.length).length < UART_EMPTY_THRESH_DEFAULT
      rw [List.drop_length]
      decide
    have hnext : (s'.next maxSize .txfifoEmpty).1 = s'.isrTxfifoEmpty := if_pos ⟨hidle, hempty⟩
    rw [exec_append, exec_shiftOut]
    change (s'.next maxSize .txfifoEmpty).1.isr = .spin
    rw [hnext]
    exact if_pos hwaiting

/-- The handler never hangs in a run without breaks. But any message with a break that fits into
the FIFO, written to a driver at rest, is the last of which a byte goes out, and the handler hangs
when the FIFO runs empty behind it. -/
theorem spins_with_break (maxSize : ℕ) :
    (∀ es, Along (next maxSize) NoBreak installed es → (exec (next maxSize) installed es).isr ≠ .spin) ∧
      ∀ src len, src ≠ [] → src.length ≤ UART_FIFO_LEN → src.length ≤ maxSize / 2 →
        0 < len ∧ len < 256 →
          (∀ fs, (outputs (next maxSize) installed (breakRun src len ++ fs)).flatMap TxOutput.bytes <+: src) ∧
            ∃ fs, (exec (next maxSize) installed (breakRun src len ++ fs)).isr = .spin := by
  constructor
  · intro es hes
    have h : (exec (next maxSize) installed es).Unbroken :=
      exec_invariant (I := Unbroken) (fun s e h he => unbroken_next h e he) unbroken_installed hes
    exact h.isr
  · intro src len hsrc hroom hchunk hlen
    obtain ⟨hwedged, hfifo⟩ := exec_breakRun hsrc hroom hchunk hlen
    constructor
    · intro fs
      have hsilent : outputs (next maxSize) installed (breakRun src len) = [] := rfl
      have hout := wedged_exec maxSize hwedged fs
      rw [hfifo] at hout
      rw [outputs_append, hsilent, List.nil_append]
      exact ⟨_, hout.symm⟩
    · obtain ⟨fs, hspin⟩ := spins_of_wedged maxSize hwedged
      refine ⟨fs, ?_⟩
      rw [exec_append]
      exact hspin

theorem spins_with_break_two :
    ∃ fs, (exec (next 8) installed (breakRun [1, 2] 5 ++ fs)).isr = .spin :=
  ((spins_with_break 8).2 [1, 2] 5 (by decide) (by decide) (by decide) (by decide)).2

end TxObj

end BlizzardBridge
