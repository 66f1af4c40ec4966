import BlizzardBridge.Refinement
import BlizzardBridge.RingBuffer
import BlizzardBridge.UartShared
import Mathlib.Data.Int.Notation

/-! The receiving side of the driver of a UART other than DMX_UART: the interrupt handler
moves what the FIFO holds to the ring buffer, and the task that reads takes it from there.
The interrupt comes between any two steps of the task. -/
namespace BlizzardBridge
open RingBuffer EventMachine

/-- A buffer of the type `RINGBUF_TYPE_BYTEBUF`. -/
abbrev ByteRing (cap : ℕ) := Ring (fun _ : UInt8 => 1) cap

/-- A call, with the bytes that it still wants. -/
inductive RxCall where
  | uartReadBytes (length : ℕ)
  | uartFlush
  deriving DecidableEq, Repr

/-- Where the call stands. Both loops come to `item` when they have returned one, and the
points behind it lead through the second try to send the stash. -/
inductive RxPoint where
  | loop
  | receive
  | giveBack
  | item
  | sent
  | counted
  | cleared
  | leave
  deriving DecidableEq, Repr

/-- The driver object with the receiving registers. `cur` is what `rx_ptr` points to, which is
`rx_cur_remain` bytes; `done` is what the call has copied or dropped so far. -/
structure RxObj (cap : ℕ) where
  fifo : List UInt8
  enaRxfifo : Bool
  ring : ByteRing cap
  rxHeadPtr : Bool
  cur : List UInt8
  rxBufferFullFlg : Bool
  rxStash : List UInt8
  rxBufferedLen : ℤ
  call : Option RxCall
  point : RxPoint
  done : List UInt8

/-- A byte from the line, an interrupt, a call, or the next step of the call that runs, in which
the ring buffer hands out `k + 1` bytes at most. -/
inductive RxEvent where
  | arrive (byte : UInt8)
  | rxfifo
  | rxfifoOvf
  | call (c : RxCall)
  | task (k : ℕ)
  deriving DecidableEq, Repr

inductive RxOutput where
  | read (length : ℕ) (bytes : List UInt8)
  | flushed (bytes : List UInt8)
  deriving DecidableEq, Repr

namespace RxObj
variable {cap : ℕ}

/-- As `uart_driver_install` leaves it. -/
def installed (cap : ℕ) : RxObj cap :=
  ⟨[], true, Ring.create _ cap, false, [], false, [], 0, none, .loop, []⟩

def arrive (byte : UInt8) (s : RxObj cap) : RxObj cap :=
  if s.fifo.length < UART_FIFO_LEN then { s with fifo := s.fifo ++ [byte] } else s

/-- The interrupt is raised by bytes in the FIFO. -/
def Raised (s : RxObj cap) : Prop := s.enaRxfifo = true ∧ s.fifo ≠ []

instance (s : RxObj cap) : Decidable s.Raised := inferInstanceAs (Decidable (_ ∧ _))

def isrRxfifo (s : RxObj cap) : RxObj cap :=
  if s.rxBufferFullFlg then { s with enaRxfifo := false }
  else
    match s.ring.send s.fifo with
    | some ring =>
      { s with
        fifo := []
        ring := ring
        rxStash := s.fifo
        rxBufferedLen := s.rxBufferedLen + s.fifo.length }
    | none => { s with fifo := [], rxStash := s.fifo, enaRxfifo := false, rxBufferFullFlg := true }

-- `xRingbufferSend` of the stash, when there is one.
def resend (s : RxObj cap) : RxObj cap :=
  if s.rxBufferFullFlg then
    match s.ring.send s.rxStash with
    | some ring => { s with ring := ring, point := .sent }
    | none => { s with point := .loop }
  else { s with point := .loop }

def countStash (s : RxObj cap) : RxObj cap :=
  { s with rxBufferedLen := s.rxBufferedLen + s.rxStash.length, point := .counted }

-- Only a read enables the interrupts here.
def clearFull (s : RxObj cap) : RxObj cap :=
  { s with rxBufferFullFlg := false, point := if s.call = some .uartFlush then .loop else .cleared }

def uartEnableRxIntr (s : RxObj cap) : RxObj cap := { s with enaRxfifo := true, point := .loop }

def receiveItem (k : ℕ) (s : RxObj cap) : RxObj cap :=
  { s with ring := (s.ring.receive (k + 1)).2, cur := (s.ring.receive (k + 1)).1, rxHeadPtr := true }

-- The `memcpy`, and the return of the item when nothing of it remains.
def copyOut (length : ℕ) (s : RxObj cap) : RxObj cap :=
  let s' :=
    { s with
      cur := s.cur.drop length
      call := some (.uartReadBytes (length - s.cur.length))
      done := s.done ++ s.cur.take length }
  if s'.cur = [] then { s' with ring := s'.ring.giveBack, rxHeadPtr := false, point := .item } else s'

def readLoop (length k : ℕ) (s : RxObj cap) : RxObj cap × List RxOutput :=
  if length = 0 ∨ s.cur = [] ∧ s.ring.queue = [] then
    ({ s with rxBufferedLen := s.rxBufferedLen - s.done.length, call := none, done := [] },
      [.read (s.done.length + length) s.done])
  else if s.cur = [] then (s.receiveItem k, [])
  else (s.copyOut length, [])

def flushHead (s : RxObj cap) : RxObj cap :=
  if s.rxHeadPtr then
    { s with
      ring := s.ring.giveBack
      rxBufferedLen := s.rxBufferedLen - s.cur.length
      rxHeadPtr := false
      cur := []
      point := .receive
      done := s.done ++ s.cur }
  else { s with point := .receive }

def flushReceive (k : ℕ) (s : RxObj cap) : RxObj cap :=
  if s.ring.queue = [] then { s with point := .leave }
  else
    { s with
      ring := (s.ring.receive (k + 1)).2
      rxBufferedLen := s.rxBufferedLen - (s.ring.receive (k + 1)).1.length
      point := .giveBack
      done := s.done ++ (s.ring.receive (k + 1)).1 }

-- `uart_reset_fifo` and `uart_enable_rx_intr`
def flushLeave (s : RxObj cap) : RxObj cap × List RxOutput :=
  ({ s with
      fifo := []
      enaRxfifo := true
      rxHeadPtr := false
      cur := []
      call := none
      point := .loop
      done := [] },
    [.flushed s.done])

def taskStep (k : ℕ) (s : RxObj cap) : RxObj cap × List RxOutput :=
  match s.point with
  | .loop =>
    match s.call with
    | none => (s, [])
    | some (.uartReadBytes length) => s.readLoop length k
    | some .uartFlush => (s.flushHead, [])
  | .receive => (s.flushReceive k, [])
  | .giveBack => ({ s with ring := s.ring.giveBack, point := .item }, [])
  | .item => (s.resend, [])
  | .sent => (s.countStash, [])
  | .counted => (s.clearFull, [])
  | .cleared => (s.uartEnableRxIntr, [])
  | .leave => s.flushLeave

-- A flush begins with `uart_disable_rx_intr`.
def start (c : RxCall) (s : RxObj cap) : RxObj cap :=
  { s with call := some c, enaRxfifo := if c = .uartFlush then false else s.enaRxfifo }

-- `rx_mux` keeps a second call out until the first has returned.
def next (s : RxObj cap) : RxEvent → RxObj cap × List RxOutput
  | .arrive byte => (s.arrive byte, [])
  | .rxfifo => (if s.Raised then s.isrRxfifo else s, [])
  | .rxfifoOvf => ({ s with fifo := [] }, [])
  | .call c => (if s.call = none then s.start c else s, [])
  | .task k => s.taskStep k

/-- Holds between any two steps of a run. -/
structure Inv (s : RxObj cap) : Prop where
  fifo : s.fifo.length ≤ UART_FIFO_LEN
  stash : s.rxStash.length ≤ UART_FIFO_LEN
  kept : s.rxBufferFullFlg = true → s.rxStash ≠ []
  head : s.rxHeadPtr = true ↔ s.cur ≠ []
  idle : s.call = none → s.point = .loop ∧ s.done = []
  off : s.call = some .uartFlush → s.enaRxfifo = false
  on : s.enaRxfifo = false → s.rxBufferFullFlg = true ∨ s.call = some .uartFlush ∨ s.point = .cleared
  between : s.point ≠ .loop → s.cur = []
  flush : s.point = .receive ∨ s.point = .giveBack ∨ s.point = .leave → s.call = some .uartFlush
  leave : s.point = .leave → s.ring.queue = []
  cleared : s.point = .cleared → s.call ≠ some .uartFlush
  out : s.cur = [] → s.point ≠ .giveBack → s.ring.out = []
  resent : s.point = .sent ∨ s.point = .counted → s.rxBufferFullFlg = true ∧ s.ring.queue ≠ []
  count : s.rxBufferedLen + (if s.point = .sent then s.rxStash.length else 0) =
    (if s.call = some .uartFlush then 0 else s.done.length) + s.cur.length + s.ring.queue.length

section inv
variable {s : RxObj cap}

theorem inv_installed : (installed cap).Inv where
  fifo := Nat.zero_le _
  stash := Nat.zero_le _
  kept := nofun
  head := by simp [installed]
  idle _ := ⟨rfl, rfl⟩
  off := nofun
  on := nofun
  between _ := rfl
  flush := by simp [installed]
  leave := nofun
  cleared := nofun
  out _ _ := rfl
  resent := by simp [installed]
  count := rfl

theorem inv_arrive (h : s.Inv) (byte : UInt8) : (s.arrive byte).Inv := by
  unfold arrive
  split_ifs with hroom
  · refine { h with fifo := ?_ }
    rw [List.length_append, List.length_singleton]
    exact hroom
  · exact h

theorem inv_isrRxfifo (h : s.Inv) (hraised : s.Raised) : s.isrRxfifo.Inv := by
  obtain ⟨hena, hfifo⟩ := hraised
  have hrunning : s.call ≠ some .uartFlush :=
    fun hflush => Bool.noConfusion ((h.off hflush).symm.trans hena)
  unfold isrRxfifo
  split_ifs with hfull
  · exact { h with
      off := fun _ => rfl
      on := fun _ => Or.inl hfull }
  · have hsent : s.point ≠ .sent := fun hsent => hfull (h.resent (Or.inl hsent)).1
    have hcount := h.count
    rw [if_neg hsent] at hcount
    rcases Ring.send_cases s.ring s.fifo with ⟨ring, hsend, hqueue, hout⟩ | ⟨hsend, _⟩
    · rw [hsend]
      exact { h with
        fifo := Nat.zero_le _
        stash := h.fifo
        kept := fun hkept => absurd hkept hfull
        leave := fun hleave => absurd (h.flush (Or.inr (Or.inr hleave))) hrunning
        out := fun hcur hpoint => hout.trans (h.out hcur hpoint)
        resent := fun hresent => absurd (h.resent hresent).1 hfull
        count := by
          dsimp only
          rw [if_neg hsent, hqueue, List.length_append]
          omega }
    · rw [hsend]
      exact { h with
        fifo := Nat.zero_le _
        stash := h.fifo
        kept := fun _ => hfifo
        off := fun _ => rfl
        on := fun _ => Or.inl rfl
        resent := fun hresent => absurd (h.resent hresent).1 hfull
        count := by
          dsimp only
          rw [if_neg hsent]
          exact hcount }

theorem inv_resend (h : s.Inv) (hpoint : s.point = .item) : s.resend.Inv := by
  have hcur : s.cur = [] := h.between (by rw [hpoint]; decide)
  have hout : s.ring.out = [] := h.out hcur (by rw [hpoint]; decide)
  have hcount := h.count
  have hon := h.on
  rw [hpoint, if_neg (by decide)] at hcount
  have hloop : Inv { s with point := .loop } :=
    { h with
      idle := fun hidle => ⟨rfl, (h.idle hidle).2⟩
      on := by simpa [hpoint] using hon
      between := fun hne => absurd rfl hne
      flush := by simp
      leave := nofun
      cleared := nofun
      out := fun _ _ => hout
      resent := by simp
      count := by simpa using hcount }
  unfold resend
  split_ifs with hfull
  · rcases Ring.send_cases s.ring s.rxStash with ⟨ring, hsend, hqueue, hout'⟩ | ⟨hsend, _⟩
    · rw [hsend]
      exact { h with
        idle := fun hidle => absurd ((h.idle hidle).1.symm.trans hpoint) (by decide)
        on := fun _ => Or.inl hfull
        between := fun _ => hcur
        flush := by simp
        leave := nofun
        cleared := nofun
        out := fun _ _ => hout'.trans hout
        resent := fun _ => ⟨hfull, by
          rw [hqueue]
          exact List.append_ne_nil_of_right_ne_nil _ (h.kept hfull)⟩
        count := by
          dsimp only
          rw [if_pos rfl, hqueue, List.length_append]
          omega }
    · rw [hsend]
      exact hloop
  · exact hloop

theorem inv_countStash (h : s.Inv) (hpoint : s.point = .sent) : s.countStash.Inv := by
  have hresent := h.resent (Or.inl hpoint)
  have hcount := h.count
  rw [if_pos hpoint] at hcount
  unfold countStash
  exact { h with
    idle := fun hidle => absurd ((h.idle hidle).1.symm.trans hpoint) (by decide)
    on := fun _ => Or.inl hresent.1
    between := fun _ => h.between (by rw [hpoint]; decide)
    flush := by simp
    leave := nofun
    cleared := nofun
    out := fun hcur _ => h.out hcur (by rw [hpoint]; decide)
    resent := fun _ => hresent
    count := by
      dsimp only
      rw [if_neg (by decide)]
      omega }

theorem inv_clearFull (h : s.Inv) (hpoint : s.point = .counted) : s.clearFull.Inv := by
  have hcur : s.cur = [] := h.between (by rw [hpoint]; decide)
  have hcount := h.count
  rw [if_neg (by rw [hpoint]; decide)] at hcount
  unfold clearFull
  by_cases hcall : s.call = some .uartFlush
  · rw [if_pos hcall]
    exact { h with
      kept := nofun
      idle := fun hidle => absurd (hidle.symm.trans hcall) (by simp)
      on := fun _ => Or.inr (Or.inl hcall)
      between := fun _ => hcur
      flush := by simp
      leave := nofun
      cleared := nofun
      out := fun _ _ => h.out hcur (by rw [hpoint]; decide)
      resent := by simp
      count := by simpa using hcount }
  · rw [if_neg hcall]
    exact { h with
      kept := nofun
      idle := fun hidle => absurd ((h.idle hidle).1.symm.trans hpoint) (by decide)
      on := fun _ => Or.inr (Or.inr rfl)
      between := fun _ => hcur
      flush := by simp
      leave := nofun
      cleared := fun _ => hcall
      out := fun _ _ => h.out hcur (by rw [hpoint]; decide)
      resent := by simp
      count := by simpa using hcount }

theorem inv_uartEnableRxIntr (h : s.Inv) (hpoint : s.point = .cleared) : s.uartEnableRxIntr.Inv := by
  have hcall := h.cleared hpoint
  have hcount := h.count
  rw [if_neg (by rw [hpoint]; decide)] at hcount
  unfold uartEnableRxIntr
  exact { h with
    idle := fun hidle => ⟨rfl, (h.idle hidle).2⟩
    off := fun hflush => absurd hflush hcall
    on := nofun
    between := fun hne => absurd rfl hne
    flush := by simp
    leave := nofun
    cleared := nofun
    out := fun hcur _ => h.out hcur (by rw [hpoint]; decide)
    resent := by simp
    count := by simpa using hcount }

theorem inv_receiveItem (h : s.Inv) (hpoint : s.point = .loop) (hcur : s.cur = [])
    (hqueue : s.ring.queue ≠ []) (k : ℕ) : (s.receiveItem k).Inv := by
  have hitem : s.ring.queue.take (k + 1) ≠ [] := by
    rw [Ne, List.take_eq_nil_iff]
    exact not_or.mpr ⟨Nat.succ_ne_zero k, hqueue⟩
  have hcount := h.count
  rw [if_neg (by rw [hpoint]; decide), hcur, List.length_nil] at hcount
  have hall := congrArg List.length (List.take_append_drop (k + 1) s.ring.queue)
  rw [List.length_append] at hall
  unfold receiveItem
  exact { h with
    head := ⟨fun _ => hitem, fun _ => rfl⟩
    between := fun hne => absurd hpoint hne
    leave := fun hleave => absurd (hpoint.symm.trans hleave) (by decide)
    out := fun hempty => absurd hempty hitem
    resent := by simp [hpoint]
    count := by
      dsimp only [Ring.receive_fst, Ring.receive_queue]
      rw [if_neg (by rw [hpoint]; decide)]
      omega }

theorem inv_copyOut (h : s.Inv) (hpoint : s.point = .loop) {length : ℕ}
    (hcall : s.call = some (.uartReadBytes length)) (hcur : s.cur ≠ []) : (s.copyOut length).Inv := by
  have hcount := h.count
  rw [if_neg (by rw [hpoint]; decide), hcall, if_neg (by simp)] at hcount
  have hall := congrArg List.length (List.take_append_drop length s.cur)
  rw [List.length_append] at hall
  have hlen : ((s.done ++ s.cur.take length).length : ℤ) + (s.cur.drop length).length =
      s.done.length + s.cur.length := by
    rw [List.length_append]
    omega
  have hon : s.enaRxfifo = false → s.rxBufferFullFlg = true := by
    intro hena
    rcases h.on hena with hfull | hflush | hcleared
    · exact hfull
    · exact absurd (hcall.symm.trans hflush) (by simp)
    · exact absurd (hpoint.symm.trans hcleared) (by decide)
  unfold copyOut
  dsimp only
  split_ifs with hempty
  · exact { h with
      head := by simp [hempty]
      idle := nofun
      off := by simp
      on := fun hena => Or.inl (hon hena)
      between := fun _ => hempty
      flush := by simp
      leave := nofun
      cleared := nofun
      out := fun _ _ => rfl
      resent := by simp
      count := by
        dsimp only [Ring.giveBack_queue]
        rw [if_neg (by decide), if_neg (by simp)]
        omega }
  · exact { h with
      head := ⟨fun _ => hempty, fun _ => h.head.mpr hcur⟩
      idle := nofun
      off := by simp
      on := fun hena => Or.inl (hon hena)
      between := fun hne => absurd hpoint hne
      flush := by simp [hpoint]
      cleared := by simp
      out := fun hnone => absurd hnone hempty
      count := by
        dsimp only
        rw [if_neg (by rw [hpoint]; decide), if_neg (by simp)]
        omega }

theorem inv_readLoop (h : s.Inv) (hpoint : s.point = .loop) {length : ℕ}
    (hcall : s.call = some (.uartReadBytes length)) (k : ℕ) : (s.readLoop length k).1.Inv := by
  have hcount := h.count
  rw [if_neg (by rw [hpoint]; decide), hcall, if_neg (by simp)] at hcount
  unfold readLoop
  split_ifs with hend hcur
  · exact { h with
      idle := fun _ => ⟨hpoint, rfl⟩
      off := nofun
      on := fun hena => by
        rcases h.on hena with hfull | hflush | hcleared
        · exact Or.inl hfull
        · exact absurd (hcall.symm.trans hflush) (by simp)
        · exact Or.inr (Or.inr hcleared)
      flush := by simp [hpoint]
      cleared := by simp
      count := by
        dsimp only
        rw [if_neg (by rw [hpoint]; decide), if_neg (by simp)]
        simp only [List.length_nil]
        omega }
  · exact inv_receiveItem h hpoint hcur (fun hnone => hend (Or.inr ⟨hcur, hnone⟩)) k
  · exact inv_copyOut h hpoint hcall hcur

theorem inv_flushHead (h : s.Inv) (hpoint : s.point = .loop) (hcall : s.call = some .uartFlush) :
    s.flushHead.Inv := by
  have hcount := h.count
  rw [if_neg (by rw [hpoint]; decide), if_pos hcall] at hcount
  have hidle : s.call ≠ none := by
    rw [hcall]
    exact Option.some_ne_none _
  unfold flushHead
  split_ifs with hhead
  · exact { h with
      head := by simp
      idle := fun hnone => absurd hnone hidle
      on := fun _ => Or.inr (Or.inl hcall)
      between := fun _ => rfl
      flush := fun _ => hcall
      leave := nofun
      cleared := nofun
      out := fun _ _ => rfl
      resent := by simp
      count := by
        dsimp only [Ring.giveBack_queue]
        rw [if_neg (by decide), if_pos hcall, List.length_nil]
        omega }
  · have hcur : s.cur = [] := not_not.mp fun hne => hhead (h.head.mpr hne)
    exact { h with
      idle := fun hnone => absurd hnone hidle
      on := fun _ => Or.inr (Or.inl hcall)
      between := fun _ => hcur
      flush := fun _ => hcall
      leave := nofun
      cleared := nofun
      out := fun _ _ => h.out hcur (by rw [hpoint]; decide)
      resent := by simp
      count := by
        dsimp only
        rw [if_neg (by decide), if_pos hcall]
        exact hcount }

theorem inv_flushReceive (h : s.Inv) (hpoint : s.point = .receive) (k : ℕ) :
    (s.flushReceive k).Inv := by
  have hcall : s.call = some .uartFlush := h.flush (Or.inl hpoint)
  have hcur : s.cur = [] := h.between (by rw [hpoint]; decide)
  have hidle : s.call ≠ none := by
    rw [hcall]
    exact Option.some_ne_none _
  have hcount := h.count
  rw [if_neg (by rw [hpoint]; decide), if_pos hcall] at hcount
  have hall := congrArg List.length (List.take_append_drop (k + 1) s.ring.queue)
  rw [List.length_append] at hall
  unfold flushReceive
  split_ifs with hqueue
  · exact { h with
      idle := fun hnone => absurd hnone hidle
      on := fun _ => Or.inr (Or.inl hcall)
      between := fun _ => hcur
      flush := fun _ => hcall
      leave := fun _ => hqueue
      cleared := nofun
      out := fun _ _ => h.out hcur (by rw [hpoint]; decide)
      resent := by simp
      count := by
        dsimp only
        rw [if_neg (by decide), if_pos hcall]
        exact hcount }
  · exact { h with
      idle := fun hnone => absurd hnone hidle
      on := fun _ => Or.inr (Or.inl hcall)
      between := fun _ => hcur
      flush := fun _ => hcall
      leave := nofun
      cleared := nofun
      out := fun _ hne => absurd rfl hne
      resent := by simp
      count := by
        dsimp only [Ring.receive_fst, Ring.receive_queue]
        rw [if_neg (by decide), if_pos hcall]
        omega }

theorem inv_giveBack (h : s.Inv) (hpoint : s.point = .giveBack) :
    Inv { s with ring := s.ring.giveBack, point := .item } := by
  have hcall : s.call = some .uartFlush := h.flush (Or.inr (Or.inl hpoint))
  have hcount := h.count
  rw [if_neg (by rw [hpoint]; decide)] at hcount
  exact { h with
    idle := fun hnone => absurd (hnone.symm.trans hcall) (by simp)
    on := fun _ => Or.inr (Or.inl hcall)
    between := fun _ => h.between (by rw [hpoint]; decide)
    flush := fun _ => hcall
    leave := nofun
    cleared := nofun
    out := fun _ _ => rfl
    resent := by simp
    count := by
      dsimp only [Ring.giveBack_queue]
      rw [if_neg (by decide)]
      exact hcount }

theorem inv_flushLeave (h : s.Inv) (hpoint : s.point = .leave) : s.flushLeave.1.Inv := by
  have hcall : s.call = some .uartFlush := h.flush (Or.inr (Or.inr hpoint))
  have hcur : s.cur = [] := h.between (by rw [hpoint]; decide)
  have hcount := h.count
  rw [if_neg (by rw [hpoint]; decide), if_pos hcall, hcur] at hcount
  unfold flushLeave
  exact { h with
    fifo := Nat.zero_le _
    head := by simp
    idle := fun _ => ⟨rfl, rfl⟩
    off := nofun
    on := nofun
    between := fun _ => rfl
    flush := by simp
    leave := nofun
    cleared := nofun
    out := fun _ _ => h.out hcur (by rw [hpoint]; decide)
    resent := by simp
    count := by
      dsimp only
      rw [if_neg (by decide), if_neg (by simp)]
      simpa using hcount }

theorem inv_taskStep (h : s.Inv) (k : ℕ) : (s.taskStep k).1.Inv := by
  unfold taskStep
  cases hpoint : s.point with
  | loop =>
    cases hcall : s.call with
    | none => exact h
    | some c =>
      cases c with
      | uartReadBytes length => exact inv_readLoop h hpoint hcall k
      | uartFlush => exact inv_flushHead h hpoint hcall
  | receive => exact inv_flushReceive h hpoint k
  | giveBack => exact inv_giveBack h hpoint
  | item => exact inv_resend h hpoint
  | sent => exact inv_countStash h hpoint
  | counted => exact inv_clearFull h hpoint
  | cleared => exact inv_uartEnableRxIntr h hpoint
  | leave => exact inv_flushLeave h hpoint

theorem inv_start (h : s.Inv) (c : RxCall) (hcall : s.call = none) : (s.start c).Inv := by
  obtain ⟨hpoint, hdone⟩ := h.idle hcall
  have hcount := h.count
  rw [if_neg (by rw [hpoint]; decide), if_neg (by rw [hcall]; simp), hdone] at hcount
  have hon : s.enaRxfifo = false → s.rxBufferFullFlg = true := by
    intro hena
    rcases h.on hena with hfull | hflush | hcleared
    · exact hfull
    · exact absurd (hcall.symm.trans hflush) (by simp)
    · exact absurd (hpoint.symm.trans hcleared) (by decide)
  unfold start
  exact { h with
    idle := nofun
    off := fun hflush => if_pos (Option.some.inj hflush)
    on := by
      intro hena
      by_cases hc : c = .uartFlush
      · exact Or.inr (Or.inl (congrArg some hc))
      · exact Or.inl (hon ((if_neg hc).symm.trans hena))
    flush := by simp [hpoint]
    cleared := by simp [hpoint]
    count := by
      dsimp only
      rw [if_neg (by rw [hpoint]; decide), hdone, List.length_nil, ite_self]
      exact hcount }

theorem inv_next (h : s.Inv) (e : RxEvent) : (s.next e).1.Inv := by
  cases e with
  | arrive byte => exact inv_arrive h byte
  | rxfifo =>
    unfold next
    dsimp only
    split_ifs with hraised
    · exact inv_isrRxfifo h hraised
    · exact h
  | rxfifoOvf => exact { h with fifo := Nat.zero_le _ }
  | call c =>
    unfold next
    dsimp only
    split_ifs with hcall
    · exact inv_start h c hcall
    · exact h
  | task k => exact inv_taskStep h k

theorem inv_exec (h : s.Inv) (es : List RxEvent) : (exec next s es).Inv := by
  apply exec_invariant (I := Inv) (C := fun _ _ => True)
  · exact fun s e h _ => inv_next h e
  · exact h
  · exact along_of_forall (fun _ _ => trivial) s es

end inv

/-- The fields that the model of all three UARTs has of UART `n`. -/
structure Shows (s : RxObj cap) (n : UartNum) (d : Driver) : Prop where
  full : (d.dev n).enaRxfifoFull = s.enaRxfifo
  tout : (d.dev n).enaRxfifoTout = s.enaRxfifo
  flag : (d.dev n).rxBufferFullFlg = s.rxBufferFullFlg
  buffered : (d.obj n).rxBufferedLen = s.rxBufferedLen

/-- There the ring buffer's answer comes with the interrupt. -/
theorem shows_isrRxfifo {s : RxObj cap} {n : UartNum} {d : Driver} (hn : n ≠ DMX_UART) (h : s.Shows n d)
    (byte : UInt8) :
    s.isrRxfifo.Shows n (d.isrRxfifo n byte s.fifo.length (s.ring.send s.fifo).isSome) := by
  have hflag : (d.port n).rxBufferFullFlg = s.rxBufferFullFlg := h.flag
  unfold isrRxfifo Driver.isrRxfifo
  dsimp only
  cases hfull : s.rxBufferFullFlg with
  | true =>
    rw [hflag, hfull, if_pos rfl]
    exact ⟨by simp [Driver.setPort], by simp [Driver.setPort],
      by simp [Driver.setPort], h.buffered⟩
  | false =>
    have hdefault : ¬ (n = DMX_UART ∧ (d.port n).txRunning = false) := fun hand => hn hand.1
    rw [hflag, hfull, if_neg (by decide), if_neg hdefault, if_neg (by decide)]
    rcases Ring.send_cases s.ring s.fifo with ⟨ring, hsend, _⟩ | ⟨hsend, _⟩
    · rw [hsend]
      have hbuffered : (((d.obj n).rxBufferedLen + s.fifo.length : ℕ) : ℤ) =
          s.rxBufferedLen + s.fifo.length := by
        have hbefore := h.buffered
        omega
      exact ⟨h.full, h.tout, hflag.trans hfull, by simpa [Driver.setObj] using hbuffered⟩
    · rw [hsend]
      exact ⟨by simp [Driver.setPort], by simp [Driver.setPort], by simp [Driver.setPort], h.buffered⟩

end RxObj

end BlizzardBridge
