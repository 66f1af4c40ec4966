import BlizzardBridge.Framing
import BlizzardBridge.Refinement
import BlizzardBridge.UartShared

/-! The sending side of the driver of a UART with a ring buffer: `uart_tx_all` puts a
description of the data and the data into the buffer, and the interrupt handler moves it to
the FIFO. The two run at the same time; each turn of the loop in the handler is a step. One
task writes: `tx_mux` does not keep two apart, since `uart_tx_all` gives it twice. -/
namespace BlizzardBridge
open Framing EventMachine

/-- An item of `tx_ring_buf`: a `uart_tx_data_t`, with the `brk_len` of a `UART_DATA_BREAK`, or data. -/
abbrev TxItem := Item UInt8 (Option ℕ)

inductive TxPoint where
  | head
  | chunk
  | enable
  deriving DecidableEq, Repr

/-- A call of `uart_tx_all` with `left` bytes to send. `fresh` counts the items that it has sent
since it last enabled the interrupt. -/
structure TxTask where
  left : List UInt8
  brk : Option ℕ
  point : TxPoint
  fresh : ℕ
  deriving DecidableEq, Repr

/-- Where the handler is: in its loop with `tx_fifo_rem` and `en_tx_flg`, behind the loop, or in
a loop that it does not leave. It has misread an item that it takes for one of the other kind. -/
inductive TxIsr where
  | idle
  | refill (rem : ℕ) (enTx : Bool)
  | leave (enTx : Bool)
  | spin
  | misread
  deriving DecidableEq, Repr

/-- The driver object with the sending registers. `tx_ptr` points to `tx_len_cur` bytes. -/
structure TxObj where
  ring : List TxItem
  txLenTot : ℕ
  txPtr : Option (List UInt8)
  txBrkFlg : Bool
  txBrkLen : ℕ
  txWaitingBrk : Bool
  fifo : List UInt8
  enaTxfifoEmpty : Bool
  txBrkNum : ℕ
  txdBrk : Bool
  enaTxBrkDone : Bool
  rawTxBrkDone : Bool
  isr : TxIsr
  task : Option TxTask

inductive TxEvent where
  | write (src : List UInt8) (brk : Option ℕ)
  | task
  | txfifoEmpty
  | turn
  | txBrkDone
  | shiftOut
  | sendBreak
  deriving DecidableEq, Repr

/-- What is seen on the line. -/
inductive TxOutput where
  | byte (b : UInt8)
  | brk (num : ℕ)
  deriving DecidableEq, Repr

def TxOutput.bytes : TxOutput → List UInt8
  | .byte b => [b]
  | .brk _ => []

namespace TxObj

def installed : TxObj := ⟨[], 0, none, false, 0, false, [], false, 0, false, false, false, .idle, none⟩

/-- The bytes that `tx_ptr` points to. -/
def cur (s : TxObj) : List UInt8 := s.txPtr.getD []

/-- The task that writes has no call running, there is data, and the length of a break is one
that is allowed. -/
def Accepts (src : List UInt8) (brk : Option ℕ) (s : TxObj) : Prop :=
  s.task = none ∧ src ≠ [] ∧ ∀ len ∈ brk, 0 < len ∧ len < 256

instance (src : List UInt8) (brk : Option ℕ) (s : TxObj) : Decidable (s.Accepts src brk) :=
  inferInstanceAs (Decidable (_ ∧ _ ∧ _))

def write (src : List UInt8) (brk : Option ℕ) (s : TxObj) : TxObj :=
  if s.Accepts src brk then { s with task := some ⟨src, brk, .head, 0⟩ } else s

-- The next step of `uart_tx_all`, when the ring buffer has room for the item.
def sendHead (t : TxTask) (s : TxObj) : TxObj :=
  { s with
    ring := s.ring ++ [.header t.left.length t.brk]
    task := some { t with point := .chunk, fresh := t.fresh + 1 } }

def sendChunk (maxSize : ℕ) (t : TxTask) (s : TxObj) : TxObj :=
  { s with
    ring := s.ring ++ [.chunk (t.left.take (maxSize / 2))]
    task := some { t with left := t.left.drop (maxSize / 2), point := .enable, fresh := t.fresh + 1 } }

-- Behind the last chunk `tx_mux` is given, and once more at the end of the function. No one
-- else waits for it, so the second give changes nothing.
def uartEnableTxIntr (t : TxTask) (s : TxObj) : TxObj :=
  { s with
    enaTxfifoEmpty := true
    task := if t.left = [] then none else some { t with point := .chunk, fresh := 0 } }

def taskStep (maxSize : ℕ) (s : TxObj) : TxObj :=
  match s.task with
  | none => s
  | some t =>
    match t.point with
    | .head => s.sendHead t
    | .chunk => s.sendChunk maxSize t
    | .enable => s.uartEnableTxIntr t

/-- The hardware reports an empty FIFO while it holds less than the threshold. -/
def TxfifoEmpty (s : TxObj) : Prop :=
  s.enaTxfifoEmpty = true ∧ s.fifo.length < UART_EMPTY_THRESH_DEFAULT

instance (s : TxObj) : Decidable s.TxfifoEmpty := inferInstanceAs (Decidable (_ ∧ _))

-- `continue` leaves `uart_intr_status` as it is, and comes back here.
def isrTxfifoEmpty (s : TxObj) : TxObj :=
  { s with
    enaTxfifoEmpty := false
    isr := if s.txWaitingBrk then .spin else .refill (UART_FIFO_LEN - s.fifo.length) false }

def receiveItem (rem : ℕ) (enTx : Bool) (s : TxObj) : TxObj :=
  match s.ring with
  | [] => { s with isr := .leave enTx }
  | item :: ring =>
    if s.txLenTot = 0 then
      match item with
      | .header size brk =>
        { s with
          ring := ring
          txPtr := none
          txLenTot := size
          txBrkFlg := s.txBrkFlg || brk.isSome
          txBrkLen := brk.getD s.txBrkLen
          isr := .refill rem enTx }
      | .chunk _ => { s with isr := .misread }
    else if s.txPtr = none then
      match item with
      | .header _ _ => { s with isr := .misread }
      | .chunk xs => { s with ring := ring, txPtr := some xs, isr := .refill rem true }
    else { s with ring := ring, isr := .refill rem enTx }

def fillFifo (rem : ℕ) (enTx : Bool) (s : TxObj) : TxObj :=
  let s' :=
    { s with
      fifo := s.fifo ++ s.cur.take rem
      txLenTot := s.txLenTot - min s.cur.length rem }
  let rem' := rem - min s.cur.length rem
  if s.cur.length ≤ rem then
    if s.txBrkFlg = true ∧ s'.txLenTot = 0 then
      { s' with
        txPtr := none
        txBrkNum := s.txBrkLen
        txdBrk := true
        rawTxBrkDone := false
        enaTxBrkDone := true
        txWaitingBrk := true
        isr := .refill rem' enTx }
    else { s' with txPtr := none, isr := .refill rem' true }
  else { s' with txPtr := some (s.cur.drop rem), isr := .refill rem' true }

def fillTurn (s : TxObj) : TxObj :=
  match s.isr with
  | .refill rem enTx => if 0 < s.txLenTot ∧ s.cur ≠ [] then s.fillFifo rem enTx else s
  | _ => s

-- A turn of `while(tx_fifo_rem)`, or what follows the loop.
def turn (s : TxObj) : TxObj :=
  match s.isr with
  | .refill rem enTx =>
    if rem = 0 then { s with isr := .leave enTx }
    else if s.txLenTot = 0 ∨ s.cur = [] then (s.receiveItem rem enTx).fillTurn
    else s.fillTurn
  | .leave enTx => { s with enaTxfifoEmpty := s.enaTxfifoEmpty || enTx, isr := .idle }
  | _ => s

/-- The handler looks at the break only when the FIFO does not report to be empty. -/
def TxBrkDone (s : TxObj) : Prop := s.enaTxBrkDone = true ∧ s.rawTxBrkDone = true ∧ ¬ s.TxfifoEmpty

instance (s : TxObj) : Decidable s.TxBrkDone := inferInstanceAs (Decidable (_ ∧ _ ∧ _))

def isrTxBrkDone (s : TxObj) : TxObj :=
  let s' := { s with txdBrk := false, enaTxBrkDone := false, rawTxBrkDone := false }
  if s.txBrkFlg then { s' with enaTxfifoEmpty := true, txBrkFlg := false, txWaitingBrk := false } else s'

def shiftOut (s : TxObj) : TxObj × List TxOutput :=
  ({ s with fifo := s.fifo.tail }, (s.fifo.take 1).map .byte)

-- The transmitter sends a break behind the last byte.
def sendBreak (s : TxObj) : TxObj × List TxOutput :=
  if s.txdBrk = true ∧ s.rawTxBrkDone = false ∧ s.fifo = [] then
    ({ s with rawTxBrkDone := true }, [.brk s.txBrkNum])
  else (s, [])

def next (maxSize : ℕ) (s : TxObj) : TxEvent → TxObj × List TxOutput
  | .write src brk => (s.write src brk, [])
  | .task => (s.taskStep maxSize, [])
  | .txfifoEmpty => (if s.isr = .idle ∧ s.TxfifoEmpty then s.isrTxfifoEmpty else s, [])
  | .turn => (s.turn, [])
  | .txBrkDone => (if s.isr = .idle ∧ s.TxBrkDone then s.isrTxBrkDone else s, [])
  | .shiftOut => s.shiftOut
  | .sendBreak => s.sendBreak

section inv
variable {s : TxObj}

/-- The bytes that are still to be sent of the message whose description is in the buffer. -/
def due (s : TxObj) : ℕ :=
  match s.task with
  | none => 0
  | some t => if t.point = .head then 0 else t.left.length

/-- The items that the handler has not been told of. -/
def fresh (s : TxObj) : ℕ := (s.task.map TxTask.fresh).getD 0

/-- The items that the handler has not finished. -/
def items (s : TxObj) : ℕ := s.ring.length + if s.txPtr = none then 0 else 1

/-- Holds between any two steps of a run. -/
structure Inv (s : TxObj) : Prop where
  framed : outstanding (s.txLenTot - s.cur.length) s.ring = some s.due
  cur : s.cur.length ≤ s.txLenTot
  ptr : s.txPtr ≠ some []
  left : ∀ t, s.task = some t → t.point ≠ .enable → t.left ≠ []
  read : s.isr ≠ .misread
  waiting : s.txWaitingBrk = true → s.txBrkFlg = true ∧ s.txdBrk = true ∧ s.enaTxBrkDone = true
  full : s.isr = .refill 0 false → s.txWaitingBrk = true
  awake : s.isr = .idle ∨ s.isr = .leave false → s.enaTxfifoEmpty = false → s.txWaitingBrk = false →
    s.items ≤ s.fresh

theorem cur_eq_nil_iff (h : s.Inv) : s.cur = [] ↔ s.txPtr = none := by
  unfold cur
  cases hptr : s.txPtr with
  | none => simp
  | some xs =>
    have hne : xs ≠ [] := fun hnone => h.ptr (hptr.trans (congrArg some hnone))
    simp [hne]

theorem inv_installed : installed.Inv where
  framed := rfl
  cur := Nat.le_refl _
  ptr := nofun
  left := nofun
  read := nofun
  waiting := nofun
  full := nofun
  awake _ _ _ := Nat.le_refl _

theorem inv_write (h : s.Inv) (src : List UInt8) (brk : Option ℕ) : (s.write src brk).Inv := by
  unfold write
  split_ifs with hcall
  · obtain ⟨hnone, hsrc, _⟩ := hcall
    have hdue : s.due = 0 := by
      rw [due, hnone]
    have hfresh : s.fresh = 0 := by
      rw [fresh, hnone]
      rfl
    exact { h with
      framed := h.framed.trans (congrArg some hdue)
      left := fun t ht _ => (Option.some.inj ht) ▸ hsrc
      awake := fun hisr hena hbrk => Nat.le_trans (h.awake hisr hena hbrk) (Nat.le_of_eq hfresh) }
  · exact h

theorem inv_sendHead (h : s.Inv) {t : TxTask} (ht : s.task = some t) (hpoint : t.point = .head) :
    (s.sendHead t).Inv := by
  have hleft : t.left ≠ [] := h.left t ht (by rw [hpoint]; decide)
  have hdue : s.due = 0 := by
    rw [due, ht]
    exact if_pos hpoint
  have hfresh : s.fresh = t.fresh := by
    rw [fresh, ht]
    rfl
  have hframed := h.framed
  rw [hdue] at hframed
  unfold sendHead
  exact { h with
    framed := outstanding_concat_header hframed (List.length_pos_iff.mpr hleft)
    left := fun t' ht' _ => (Option.some.inj ht') ▸ hleft
    awake := fun hisr hena hbrk => by
      have hbefore := h.awake hisr hena hbrk
      rw [hfresh, items] at hbefore
      simp only [items, fresh, List.length_append, List.length_singleton, Option.map_some, Option.getD_some]
      omega }

theorem inv_sendChunk {maxSize : ℕ} (hmax : 2 ≤ maxSize) (h : s.Inv) {t : TxTask} (ht : s.task = some t)
    (hpoint : t.point = .chunk) : (s.sendChunk maxSize t).Inv := by
  have hleft : t.left ≠ [] := h.left t ht (by rw [hpoint]; decide)
  have hdue : s.due = t.left.length := by
    rw [due, ht]
    exact if_neg (by rw [hpoint]; decide)
  have hfresh : s.fresh = t.fresh := by
    rw [fresh, ht]
    rfl
  have hframed := h.framed
  rw [hdue] at hframed
  have hpos : 0 < t.left.length := List.length_pos_iff.mpr hleft
  have hhalf : 1 ≤ maxSize / 2 := (Nat.one_le_div_iff (by decide)).mpr hmax
  have hsize : (t.left.take (maxSize / 2)).length = min (maxSize / 2) t.left.length := List.length_take
  have hrest : (t.left.drop (maxSize / 2)).length = t.left.length - (t.left.take (maxSize / 2)).length := by
    rw [List.length_drop, hsize]
    omega
  have hchunk : outstanding (s.txLenTot - s.cur.length) (s.ring ++ [.chunk (t.left.take (maxSize / 2))]) =
      some (t.left.length - (t.left.take (maxSize / 2)).length) :=
    outstanding_concat_chunk hframed (by omega) (by omega)
  unfold sendChunk
  exact { h with
    framed := hchunk.trans (congrArg some hrest.symm)
    left := fun t' ht' hne => absurd (congrArg TxTask.point (Option.some.inj ht')).symm hne
    awake := fun hisr hena hbrk => by
      have hbefore := h.awake hisr hena hbrk
      rw [hfresh, items] at hbefore
      simp only [items, fresh, List.length_append, List.length_singleton, Option.map_some, Option.getD_some]
      omega }

theorem inv_uartEnableTxIntr (h : s.Inv) {t : TxTask} (ht : s.task = some t) (hpoint : t.point = .enable) :
    (s.uartEnableTxIntr t).Inv := by
  have hdue : s.due = t.left.length := by
    rw [due, ht]
    exact if_neg (by rw [hpoint]; decide)
  have hframed := h.framed
  rw [hdue] at hframed
  unfold uartEnableTxIntr
  split_ifs with hleft
  · exact { h with
      framed := hframed.trans (by rw [hleft]; rfl)
      left := nofun
      awake := nofun }
  · exact { h with
      framed := hframed
      left := fun t' ht' _ => (Option.some.inj ht') ▸ hleft
      awake := nofun }

theorem inv_taskStep {maxSize : ℕ} (hmax : 2 ≤ maxSize) (h : s.Inv) : (s.taskStep maxSize).Inv := by
  unfold taskStep
  cases ht : s.task with
  | none => exact h
  | some t =>
    dsimp only
    cases hpoint : t.point with
    | head => exact inv_sendHead h ht hpoint
    | chunk => exact inv_sendChunk hmax h ht hpoint
    | enable => exact inv_uartEnableTxIntr h ht hpoint

theorem inv_isrTxfifoEmpty (h : s.Inv) (hraised : s.TxfifoEmpty) : s.isrTxfifoEmpty.Inv := by
  have hroom : UART_FIFO_LEN - s.fifo.length ≠ 0 := by
    have hlt : s.fifo.length < 10 := hraised.2
    have hlen : UART_FIFO_LEN = 128 := rfl
    omega
  unfold isrTxfifoEmpty
  split_ifs with hwaiting
  · exact { h with
      read := nofun
      full := nofun
      awake := by simp }
  · exact { h with
      read := nofun
      full := fun hisr => absurd (by injection hisr) hroom
      awake := by simp }

theorem inv_receiveItem (h : s.Inv) {rem : ℕ} {enTx : Bool} (hrem : rem ≠ 0)
    (hcur : s.txLenTot = 0 ∨ s.cur = []) : (s.receiveItem rem enTx).Inv := by
  have hempty : s.cur = [] := by
    rcases hcur with hzero | hempty
    · exact List.length_eq_zero_iff.mp (Nat.le_zero.mp (hzero ▸ h.cur))
    · exact hempty
  have hptr : s.txPtr = none := (cur_eq_nil_iff h).mp hempty
  have hframed := h.framed
  rw [hempty, List.length_nil, Nat.sub_zero] at hframed
  unfold receiveItem
  cases hring : s.ring with
  | nil =>
    have hnil := h.framed
    rw [hring] at hnil
    exact { h with
      framed := hnil
      read := nofun
      full := nofun
      awake := fun _ _ _ => by simp [items, hptr] }
  | cons item ring =>
    rw [hring] at hframed
    dsimp only
    split_ifs with hzero
    · cases item with
      | header size brk =>
        obtain ⟨_, hsize, hrest⟩ := outstanding_header hframed
        exact { h with
          framed := hrest
          cur := Nat.zero_le _
          ptr := nofun
          read := nofun
          waiting := fun hwaiting => by
            obtain ⟨hflag, hbrk⟩ := h.waiting hwaiting
            exact ⟨by simp [hflag], hbrk⟩
          full := fun hisr => absurd (by injection hisr) hrem
          awake := by simp }
      | chunk xs =>
        obtain ⟨hpos, hle, _⟩ := outstanding_chunk hframed
        omega
    · cases item with
      | header size brk => exact absurd (outstanding_header hframed).1 hzero
      | chunk xs =>
        obtain ⟨hpos, hle, hrest⟩ := outstanding_chunk hframed
        exact { h with
          framed := hrest
          cur := hle
          ptr := fun hnone => absurd hpos (by rw [Option.some.inj hnone]; decide)
          read := nofun
          full := nofun
          awake := by simp }

theorem inv_fillFifo (h : s.Inv) (rem : ℕ) (enTx : Bool) : (s.fillFifo rem enTx).Inv := by
  have hcur := h.cur
  have hframed := h.framed
  unfold fillFifo
  dsimp only
  by_cases hall : s.cur.length ≤ rem
  · have htot : s.txLenTot - min s.cur.length rem = s.txLenTot - s.cur.length := by
      rw [Nat.min_eq_left hall]
    rw [if_pos hall]
    split_ifs with hbrk
    · exact { h with
        framed := (congrArg (outstanding · s.ring) htot).trans hframed
        cur := Nat.zero_le _
        ptr := nofun
        read := nofun
        waiting := fun _ => ⟨hbrk.1, rfl, rfl⟩
        full := fun _ => rfl
        awake := by simp }
    · exact { h with
        framed := (congrArg (outstanding · s.ring) htot).trans hframed
        cur := Nat.zero_le _
        ptr := nofun
        read := nofun
        full := by simp
        awake := by simp }
  · have hmin : min s.cur.length rem = rem := Nat.min_eq_right (Nat.le_of_not_le hall)
    have hdrop : (s.cur.drop rem).length = s.cur.length - rem := List.length_drop
    have htot : s.txLenTot - min s.cur.length rem - (s.cur.drop rem).length =
        s.txLenTot - s.cur.length := by omega
    rw [if_neg hall]
    exact { h with
      framed := (congrArg (outstanding · s.ring) htot).trans hframed
      cur := by
        change (s.cur.drop rem).length ≤ s.txLenTot - min s.cur.length rem
        omega
      ptr := fun hnone => hall (List.drop_eq_nil_iff.mp (Option.some.inj hnone))
      read := nofun
      full := by simp
      awake := by simp }

theorem inv_fillTurn (h : s.Inv) : s.fillTurn.Inv := by
  unfold fillTurn
  cases s.isr with
  | refill rem enTx =>
    dsimp only
    split_ifs
    · exact inv_fillFifo h rem enTx
    · exact h
  | _ => exact h

theorem inv_turn (h : s.Inv) : s.turn.Inv := by
  unfold turn
  cases hisr : s.isr with
  | refill rem enTx =>
    dsimp only
    split_ifs with hrem hcur
    · subst hrem
      exact { h with
        read := nofun
        full := nofun
        awake := fun hleave _ hbrk => by
          obtain rfl : enTx = false := by simpa using hleave
          exact Bool.noConfusion (hbrk.symm.trans (h.full hisr)) }
    · exact inv_fillTurn (inv_receiveItem h hrem hcur)
    · exact inv_fillTurn h
  | leave enTx =>
    exact { h with
      read := nofun
      full := nofun
      awake := fun _ hena hbrk => by
        obtain ⟨hoff, rfl⟩ := Bool.or_eq_false_iff.mp hena
        exact h.awake (Or.inr hisr) hoff hbrk }
  | _ => exact h

theorem inv_isrTxBrkDone (h : s.Inv) (hidle : s.isr = .idle) : s.isrTxBrkDone.Inv := by
  unfold isrTxBrkDone
  dsimp only
  split_ifs
  · exact { h with
      waiting := nofun
      full := fun hisr => absurd (hidle.symm.trans hisr) nofun
      awake := nofun }
  · rename_i hflag
    exact { h with waiting := fun hwaiting => absurd (h.waiting hwaiting).1 hflag }

theorem inv_next {maxSize : ℕ} (hmax : 2 ≤ maxSize) (h : s.Inv) (e : TxEvent) : (s.next maxSize e).1.Inv := by
  cases e with
  | write src brk => exact inv_write h src brk
  | task => exact inv_taskStep hmax h
  | txfifoEmpty =>
    unfold next
    dsimp only
    split_ifs with hraised
    · exact inv_isrTxfifoEmpty h hraised.2
    · exact h
  | turn => exact inv_turn h
  | txBrkDone =>
    unfold next
    dsimp only
    split_ifs with hraised
    · exact inv_isrTxBrkDone h hraised.1
    · exact h
  | shiftOut => exact { h with }
  | sendBreak =>
    unfold next sendBreak
    dsimp only
    split_ifs
    · exact { h with }
    · exact h

theorem inv_exec {maxSize : ℕ} (hmax : 2 ≤ maxSize) (h : s.Inv) (es : List TxEvent) :
    (exec (next maxSize) s es).Inv := by
  apply exec_invariant (I := Inv) (C := fun _ _ => True)
  · exact fun s e h _ => inv_next hmax h e
  · exact h
  · exact along_of_forall (fun _ _ => trivial) s es

end inv

section shows
variable {s : TxObj}

/-- The fields that the model of all three UARTs has of UART `n`. -/
structure Shows (s : TxObj) (n : UartNum) (d : Driver) : Prop where
  ena : (d.dev n).enaTxfifoEmpty = s.enaTxfifoEmpty
  pending : (d.dev n).txPending = s.fifo.length
  flag : (d.obj n).txBrkFlg = s.txBrkFlg
  waiting : (d.obj n).txWaitingBrk = s.txWaitingBrk

/-- Nothing leaves the FIFO in a turn, and no break is forgotten. -/
def Grows (s s' : TxObj) : Prop :=
  s.fifo.length ≤ s'.fifo.length ∧ (s.txBrkFlg = true → s'.txBrkFlg = true)

theorem grows_receiveItem (rem : ℕ) (enTx : Bool) : s.Grows (s.receiveItem rem enTx) := by
  unfold receiveItem
  cases s.ring with
  | nil => exact ⟨Nat.le_refl _, id⟩
  | cons item ring =>
    dsimp only
    split_ifs
    · cases item with
      | header size brk => exact ⟨Nat.le_refl _, fun hflag => by simp [hflag]⟩
      | chunk xs => exact ⟨Nat.le_refl _, id⟩
    · cases item with
      | header size brk => exact ⟨Nat.le_refl _, id⟩
      | chunk xs => exact ⟨Nat.le_refl _, id⟩
    · exact ⟨Nat.le_refl _, id⟩

theorem grows_fillTurn : s.Grows s.fillTurn := by
  have hfifo (xs : List UInt8) : s.fifo.length ≤ (s.fifo ++ xs).length := by
    rw [List.length_append]
    exact Nat.le_add_right _ _
  unfold fillTurn
  cases s.isr with
  | refill rem enTx =>
    dsimp only
    split_ifs
    · unfold fillFifo
      dsimp only
      split_ifs
      · exact ⟨hfifo _, id⟩
      · exact ⟨hfifo _, id⟩
      · exact ⟨hfifo _, id⟩
    · exact ⟨Nat.le_refl _, id⟩
  | _ => exact ⟨Nat.le_refl _, id⟩

theorem grows_turn : s.Grows s.turn := by
  unfold turn
  cases s.isr with
  | refill rem enTx =>
    dsimp only
    split_ifs
    · exact ⟨Nat.le_refl _, id⟩
    · have hreceive : s.Grows (s.receiveItem rem enTx) := grows_receiveItem rem enTx
      have hfill : (s.receiveItem rem enTx).Grows (s.receiveItem rem enTx).fillTurn := grows_fillTurn
      exact ⟨Nat.le_trans hreceive.1 hfill.1, fun hflag => hfill.2 (hreceive.2 hflag)⟩
    · exact grows_fillTurn
  | _ => exact ⟨Nat.le_refl _, id⟩

theorem grows_turns (k : ℕ) (s : TxObj) : s.Grows (turn^[k] s) := by
  induction k generalizing s with
  | zero => exact ⟨Nat.le_refl _, id⟩
  | succ k ih =>
    have hrest := ih s.turn
    exact ⟨Nat.le_trans grows_turn.1 hrest.1, fun hflag => hrest.2 (grows_turn.2 hflag)⟩

theorem writeFifo_iterate_eq (k : ℕ) (p : Port) :
    Port.writeFifo^[k] p = { p with txPending := p.txPending + k, txFresh := p.txFresh + k } := by
  induction k generalizing p with
  | zero => rfl
  | succ k ih =>
    rw [Function.iterate_succ_apply, ih]
    simp only [Port.writeFifo, Nat.add_assoc, Nat.add_comm 1 k]

/-- There the loop of the handler is one step, of which only the outcome is known. -/
theorem shows_isrTxfifoEmpty {n : UartNum} {d : Driver} (hn : n ≠ DMX_UART) (hsize : (d.obj n).txBufSize ≠ 0)
    (h : s.Shows n d) (hwaiting : s.txWaitingBrk = false) (k : ℕ) :
    ∃ r, (turn^[k] s.isrTxfifoEmpty).Shows n (d.isrTxfifoEmpty n r) := by
  obtain ⟨hfifo, hflag⟩ := grows_turns k s.isrTxfifoEmpty
  generalize turn^[k] s.isrTxfifoEmpty = s' at hfifo hflag ⊢
  let r : Refill := ⟨s'.fifo.length - s.fifo.length, s'.enaTxfifoEmpty, s'.txBrkFlg, s'.txWaitingBrk⟩
  have hnotWaiting : (d.obj n).txWaitingBrk = false := h.waiting.trans hwaiting
  have hpending : (d.dev n).txPending + (s'.fifo.length - s.fifo.length) = s'.fifo.length := by
    have hbefore := h.pending
    have hle : s.fifo.length ≤ s'.fifo.length := hfifo
    omega
  have hflags : ((d.obj n).txBrkFlg || s'.txBrkFlg) = s'.txBrkFlg := by
    rw [h.flag]
    cases hbrk : s.txBrkFlg with
    | true => rw [hflag hbrk, Bool.or_true]
    | false => exact Bool.false_or _
  refine ⟨r, ?_⟩
  unfold Driver.isrTxfifoEmpty
  dsimp only
  rw [if_neg hn]
  simp only [Driver.setPort, Driver.setObj, hnotWaiting, hsize, writeFifo_iterate_eq, Bool.false_eq_true,
    and_false, if_false]
  exact ⟨by simp [Driver.port, r], by simpa [Driver.port, r] using hpending, by simpa [r] using hflags,
    by simp [r]⟩

/-- And it hangs there when it hangs here. -/
theorem hung_isrTxfifoEmpty {n : UartNum} {d : Driver} (hn : n ≠ DMX_UART) (hsize : (d.obj n).txBufSize ≠ 0)
    (h : s.Shows n d) (r : Refill) :
    (d.isrTxfifoEmpty n r).hung = true ↔ d.hung = true ∨ s.isrTxfifoEmpty.isr = .spin := by
  unfold Driver.isrTxfifoEmpty isrTxfifoEmpty
  dsimp only
  rw [if_neg hn]
  simp only [Driver.setPort, Driver.setObj, hsize, h.waiting, and_false, if_false]
  cases s.txWaitingBrk with
  | true => exact iff_of_true rfl (Or.inr rfl)
  | false =>
    refine (or_iff_left fun hspin => ?_).symm
    cases hspin

end shows

end TxObj

end BlizzardBridge
