import BlizzardBridge.UartShared
import BlizzardBridge.UartSwitch

/-! The DMX variables of a run, compared with those of the run in which the other UARTs do
nothing. Of the shared functions only `uart_enable_tx_intr` writes one of the variables
without asking for the number of the UART. -/
namespace BlizzardBridge
open EventMachine

def DriverEvent.isDmx : DriverEvent → Bool
  | .uart n _ => n = DMX_UART
  | _ => true

/-- The variables that are watched. -/
structure Watched where
  dmxState : DmxState
  currentSlot : ℕ
  txRunning : Bool
  dmxData : CArray.Bytes

namespace Driver

def watch (d : Driver) : Watched :=
  ⟨d.globals.dmxState, d.globals.currentSlot, d.globals.txRunning, d.globals.dmxData⟩

/-- The variables are looked at behind every event of DMX_UART that comes to pass. -/
def step (d : Driver) (e : DriverEvent) : Driver × List Watched :=
  (d.next e, if e.isDmx && !d.hung then [(d.next e).watch] else [])

def watched (d : Driver) (es : List DriverEvent) : List Watched := (trace step d es).map Prod.snd

def assignsUart (n : UartNum) (d : Driver) : UartOp → Option Bool
  | .uartEnableTxIntr _ thresh => if thresh < UART_FIFO_LEN then some true else none
  | .uartDisableTxIntr => if n = DMX_UART then some false else none
  | .txAllTurn size =>
    if 0 < (d.obj n).txBufSize ∨ UART_FIFO_LEN - (d.dev n).txPending < size then some true else none
  | _ => none

/-- The value that an event gives to `_tx_running`, if it writes the variable. -/
def assigns (d : Driver) : DriverEvent → Option Bool
  | .changeDirectionDMXUart dir => some (dir = .send)
  | .setBuffer _ => none
  | .uart n op => assignsUart n d op

/-- TX empty is served for another UART while a break is awaited there, or while there is neither
a ring buffer nor a task that waits for the FIFO. -/
def Hangs (d : Driver) : DriverEvent → Prop
  | .uart n (.isr (.txfifoEmpty _)) => n ≠ DMX_UART ∧ ((d.obj n).txWaitingBrk = true ∨
      (d.obj n).txBufSize = 0 ∧ (d.obj n).txWaitingFifo = false)
  | _ => False

/-- The next event of DMX_UART, if there is one, writes `_tx_running` itself. -/
def Rejoins : Driver → List DriverEvent → Prop
  | _, [] => True
  | d, e :: es => if e.isDmx then (d.assigns e).isSome = true else Rejoins (d.next e) es

/-- Another UART enables its transmit interrupt only while the DMX port is sending, or right
before an event of DMX_UART that writes `_tx_running`; and no handler hangs before an event of
DMX_UART. -/
def Clean : Driver → List DriverEvent → Prop
  | _, [] => True
  | d, e :: es =>
    (d.hung = false → e.isDmx = false →
      (d.assigns e = some true → d.globals.txRunning = true ∨ Rejoins (d.next e) es) ∧
      (d.Hangs e → ∀ e' ∈ es, e'.isDmx = false)) ∧ Clean (d.next e) es

end Driver

def Port.running (b : Bool) (p : Port) : Port := { p with txRunning := b }

namespace Driver
variable {d : Driver} {n : UartNum}

theorem running_self (d : Driver) : (d.port DMX_UART).running d.globals.txRunning = d.port DMX_UART := rfl

/-- Another UART that writes its registers, and of the DMX variables `_tx_running` at most. -/
theorem setPort_other (hn : n ≠ DMX_UART) {p : Port} {b : Bool}
    (hglobals : p.toDmxGlobals = { d.globals with txRunning := b })
    (hpin : p.directionPin = d.directionPin) :
    (d.setPort n p).port DMX_UART = (d.port DMX_UART).running b := by
  have hdev : Function.update d.dev n p.toUartDev DMX_UART = d.dev DMX_UART := by
    rw [Function.update_of_ne hn.symm]
  simp only [port, setPort, Port.running, hglobals, hpin, hdev]

theorem setPort_keeps (hn : n ≠ DMX_UART) {p : Port} (hglobals : p.toDmxGlobals = d.globals)
    (hpin : p.directionPin = d.directionPin) : (d.setPort n p).port DMX_UART = d.port DMX_UART := by
  have hsame : p.toDmxGlobals = { d.globals with txRunning := d.globals.txRunning } := hglobals
  rw [setPort_other hn hsame hpin, running_self]

theorem setObj_other (hn : n ≠ DMX_UART) (o : UartObj) : (d.setObj n o).obj DMX_UART = d.obj DMX_UART := by
  simp only [setObj, Function.update_of_ne hn.symm]

theorem writeFifo_iterate (k : ℕ) (p : Port) :
    (Port.writeFifo^[k] p).toDmxGlobals = p.toDmxGlobals ∧
      (Port.writeFifo^[k] p).directionPin = p.directionPin := by
  induction k generalizing p with
  | zero => exact ⟨rfl, rfl⟩
  | succ k ih =>
    rw [Function.iterate_succ_apply]
    exact ih p.writeFifo

theorem enable_other (hn : n ≠ DMX_UART) (enable : Bool) (thresh : ℕ) :
    (d.uartEnableTxIntr n enable thresh).port DMX_UART =
      if thresh < UART_FIFO_LEN then (d.port DMX_UART).running true else d.port DMX_UART := by
  unfold uartEnableTxIntr Port.uartEnableTxIntr
  split
  -- the state is guarded by the number of the UART, `_tx_running` is not
  · exact setPort_other hn rfl rfl
  · exact setPort_keeps hn rfl rfl

theorem disable_other (hn : n ≠ DMX_UART) : (d.uartDisableTxIntr n).port DMX_UART = d.port DMX_UART := by
  unfold uartDisableTxIntr Port.uartDisableTxIntr
  rw [if_neg hn]
  exact setPort_keeps hn rfl rfl

theorem txAllTurn_other (hn : n ≠ DMX_UART) (size : ℕ) :
    (d.txAllTurn n size).port DMX_UART =
        (if 0 < (d.obj n).txBufSize ∨ UART_FIFO_LEN - (d.dev n).txPending < size then
          (d.port DMX_UART).running true else d.port DMX_UART) ∧
      (d.txAllTurn n size).obj DMX_UART = d.obj DMX_UART := by
  have hthresh : UART_EMPTY_THRESH_DEFAULT < UART_FIFO_LEN := by decide
  unfold txAllTurn
  by_cases hring : 0 < (d.obj n).txBufSize
  · rw [if_pos hring, if_pos (Or.inl hring), enable_other hn, if_pos hthresh]
    exact ⟨rfl, rfl⟩
  · let sent := min size (UART_FIFO_LEN - (d.dev n).txPending)
    have hfilled : (d.setPort n (Port.writeFifo^[sent] (d.port n))).port DMX_UART = d.port DMX_UART :=
      setPort_keeps hn (writeFifo_iterate sent (d.port n)).1 (writeFifo_iterate sent (d.port n)).2
    have hrest : sent < size ↔ UART_FIFO_LEN - (d.dev n).txPending < size := by omega
    rw [if_neg hring]
    by_cases hsent : sent < size
    · rw [if_pos hsent, if_pos (Or.inr (hrest.mp hsent)), enable_other hn, if_pos hthresh, port_setObj,
        hfilled]
      exact ⟨rfl, setObj_other hn _⟩
    · rw [if_neg hsent, if_neg (not_or.mpr ⟨hring, fun h => hsent (hrest.mpr h)⟩)]
      exact ⟨hfilled, rfl⟩

/-- The interrupts of another UART leave the DMX variables alone. -/
theorem isr_other (hn : n ≠ DMX_UART) (i : Interrupt) :
    (d.uartRxIntrHandlerDefault n i).port DMX_UART = d.port DMX_UART ∧
      (d.uartRxIntrHandlerDefault n i).obj DMX_UART = d.obj DMX_UART := by
  cases i with
  | txDone =>
    simp only [uartRxIntrHandlerDefault, isrTxDone, if_neg hn]
    exact ⟨setPort_keeps hn rfl rfl, rfl⟩
  | txfifoEmpty r =>
    have hoff : (d.setPort n { d.port n with enaTxfifoEmpty := false }).port DMX_UART = d.port DMX_UART :=
      setPort_keeps hn rfl rfl
    simp only [uartRxIntrHandlerDefault, isrTxfifoEmpty, if_neg hn]
    split_ifs
    · exact ⟨hoff, rfl⟩
    · exact ⟨hoff, setObj_other hn _⟩
    · exact ⟨hoff, rfl⟩
    · have hsent := fun p => writeFifo_iterate r.sent p
      constructor
      · rw [setPort_keeps hn (hsent _).1 (hsent _).2]
        exact hoff
      · exact setObj_other hn _
  | brkDet =>
    have hguard : ¬ (n = DMX_UART ∧ d.globals.txRunning = false) := fun h => hn h.1
    have hsame : d.isrBrkDet n = d := if_neg hguard
    change (d.isrBrkDet n).port DMX_UART = _ ∧ (d.isrBrkDet n).obj DMX_UART = _
    rw [hsame]
    exact ⟨rfl, rfl⟩
  | rxfifo byte len queued =>
    have hguard : ¬ (n = DMX_UART ∧ (d.port n).txRunning = false) := fun h => hn h.1
    simp only [uartRxIntrHandlerDefault, isrRxfifo, if_neg hguard]
    split_ifs
    · exact ⟨setPort_keeps hn rfl rfl, rfl⟩
    · exact ⟨rfl, setObj_other hn _⟩
    · exact ⟨setPort_keeps hn rfl rfl, rfl⟩
  | txBrkDone =>
    simp only [uartRxIntrHandlerDefault, isrTxBrkDone]
    split_ifs
    · rw [port_setObj]
      exact ⟨setPort_keeps hn rfl rfl, setObj_other hn _⟩
    · exact ⟨rfl, rfl⟩
  | other => exact ⟨rfl, rfl⟩

/-- What an event of another UART does to the DMX port: it writes `_tx_running` at most. -/
theorem uart_other (hn : n ≠ DMX_UART) (op : UartOp) :
    (d.uartStep n op).port DMX_UART =
        (d.port DMX_UART).running ((assignsUart n d op).getD d.globals.txRunning) ∧
      (d.uartStep n op).obj DMX_UART = d.obj DMX_UART := by
  cases op with
  | uartEnableTxIntr enable thresh =>
    refine ⟨?_, rfl⟩
    change (d.uartEnableTxIntr n enable thresh).port DMX_UART = _
    rw [enable_other hn, assignsUart]
    split <;> rfl
  | uartDisableTxIntr =>
    refine ⟨?_, rfl⟩
    change (d.uartDisableTxIntr n).port DMX_UART = _
    rw [disable_other hn, assignsUart, if_neg hn]
    rfl
  | txAllTurn size =>
    obtain ⟨hport, hobj⟩ := txAllTurn_other (d := d) hn size
    refine ⟨?_, hobj⟩
    change (d.txAllTurn n size).port DMX_UART = _
    rw [hport, assignsUart]
    split <;> rfl
  | isr i => exact isr_other hn i
  | shiftOut => exact ⟨setPort_keeps hn rfl rfl, rfl⟩

theorem assignsUart_other (hn : n ≠ DMX_UART) (op : UartOp) :
    assignsUart n d op = none ∨ assignsUart n d op = some true := by
  have hif (c : Prop) [Decidable c] : (if c then some true else none) = none ∨
      (if c then some true else none) = some true := by
    split
    · exact Or.inr rfl
    · exact Or.inl rfl
  cases op with
  | uartEnableTxIntr enable thresh => exact hif _
  | uartDisableTxIntr => exact Or.inl (if_neg hn)
  | txAllTurn size => exact hif _
  | isr i => exact Or.inl rfl
  | shiftOut => exact Or.inl rfl

section dmx
variable {d' : Driver}

theorem isr_local (hport : d'.port DMX_UART = d.port DMX_UART) (hobj : d'.obj DMX_UART = d.obj DMX_UART)
    (i : Interrupt) : (d'.uartRxIntrHandlerDefault DMX_UART i).port DMX_UART =
        (d.uartRxIntrHandlerDefault DMX_UART i).port DMX_UART ∧
      (d'.uartRxIntrHandlerDefault DMX_UART i).obj DMX_UART =
        (d.uartRxIntrHandlerDefault DMX_UART i).obj DMX_UART := by
  cases i with
  | txDone =>
    refine ⟨?_, hobj⟩
    change (d'.isrTxDone DMX_UART).port DMX_UART = (d.isrTxDone DMX_UART).port DMX_UART
    simp only [isrTxDone, if_true, port_setPort, hport]
  | txfifoEmpty r =>
    refine ⟨?_, hobj⟩
    change (d'.isrTxfifoEmpty DMX_UART r).port DMX_UART = (d.isrTxfifoEmpty DMX_UART r).port DMX_UART
    simp only [isrTxfifoEmpty, if_true, port_setPort, hport]
  | brkDet =>
    have hframe (d₁ : Driver) : (d₁.isrBrkDet DMX_UART).obj = d₁.obj := by
      unfold isrBrkDet
      split <;> rfl
    change (d'.isrBrkDet DMX_UART).port DMX_UART = (d.isrBrkDet DMX_UART).port DMX_UART ∧
      (d'.isrBrkDet DMX_UART).obj DMX_UART = (d.isrBrkDet DMX_UART).obj DMX_UART
    rw [isrBrkDet_dmx d', isrBrkDet_dmx d, hport, hframe, hframe]
    exact ⟨rfl, hobj⟩
  | rxfifo byte len queued =>
    simp only [uartRxIntrHandlerDefault, isrRxfifo, hport, hobj]
    split_ifs
    · exact ⟨by simp only [port_setPort], hobj⟩
    · exact ⟨by simp only [port_setPort], hobj⟩
    · exact ⟨hport, by simp only [setObj, Function.update_self]⟩
    · exact ⟨by simp only [port_setPort], hobj⟩
  | txBrkDone =>
    simp only [uartRxIntrHandlerDefault, isrTxBrkDone, hport, hobj]
    split_ifs
    · exact ⟨by simp only [port_setObj, port_setPort], by simp only [setObj, Function.update_self]⟩
    · exact ⟨hport, hobj⟩
  | other => exact ⟨hport, hobj⟩

/-- An event of DMX_UART depends on the port of that UART and on its driver object only. -/
theorem dmx_local (hport : d'.port DMX_UART = d.port DMX_UART) (hobj : d'.obj DMX_UART = d.obj DMX_UART)
    (e : DriverEvent) (he : e.isDmx = true) :
    (d'.deliver e).port DMX_UART = (d.deliver e).port DMX_UART ∧
      (d'.deliver e).obj DMX_UART = (d.deliver e).obj DMX_UART := by
  have hpending : (d'.dev DMX_UART).txPending = (d.dev DMX_UART).txPending :=
    congrArg (fun p : Port => p.txPending) hport
  cases e with
  | changeDirectionDMXUart dir =>
    refine ⟨?_, hobj⟩
    simp only [deliver, port_setPort, hport]
  | setBuffer dmx => exact ⟨congrArg (fun p : Port => { p with dmxData := dmx }) hport, hobj⟩
  | uart n op =>
    obtain rfl : n = DMX_UART := of_decide_eq_true he
    cases op with
    | uartEnableTxIntr enable thresh =>
      refine ⟨?_, hobj⟩
      simp only [deliver, uartStep, uartEnableTxIntr, port_setPort, hport]
    | uartDisableTxIntr =>
      refine ⟨?_, hobj⟩
      simp only [deliver, uartStep, uartDisableTxIntr, port_setPort, hport]
    | txAllTurn size =>
      simp only [deliver, uartStep, txAllTurn, hobj, hpending]
      split_ifs
      · refine ⟨?_, hobj⟩
        simp only [uartEnableTxIntr, port_setPort, hport]
      · simp only [uartEnableTxIntr, port_setPort, port_setObj, hport]
        simp only [setPort, setObj, Function.update_self, hobj, and_self]
      · refine ⟨?_, hobj⟩
        simp only [port_setPort, hport]
    | isr i => exact isr_local hport hobj i
    | shiftOut =>
      refine ⟨?_, hobj⟩
      simp only [deliver, uartStep, port_setPort, hport]

theorem assigns_local {b : Bool} (hport : d'.port DMX_UART = (d.port DMX_UART).running b)
    (hobj : d'.obj DMX_UART = d.obj DMX_UART) (e : DriverEvent) (he : e.isDmx = true) :
    d'.assigns e = d.assigns e := by
  have hpending : (d'.dev DMX_UART).txPending = (d.dev DMX_UART).txPending :=
    congrArg (fun p : Port => p.txPending) hport
  cases e with
  | changeDirectionDMXUart dir => rfl
  | setBuffer dmx => rfl
  | uart n op =>
    obtain rfl : n = DMX_UART := of_decide_eq_true he
    cases op with
    | txAllTurn size => simp only [assigns, assignsUart, hobj, hpending]
    | _ => rfl

/-- The driver with another value of `_tx_running`. -/
def turn (b : Bool) (d : Driver) : Driver := { d with globals := { d.globals with txRunning := b } }

/-- An event that writes `_tx_running` does not look at what it was. -/
theorem turn_rejoins (b : Bool) (e : DriverEvent) (he : e.isDmx = true)
    (hassigns : (d.assigns e).isSome = true) :
    ((d.turn b).deliver e).port DMX_UART = (d.deliver e).port DMX_UART ∧
      ((d.turn b).deliver e).obj DMX_UART = (d.deliver e).obj DMX_UART := by
  have henable (p : Port) (enable : Bool) {thresh : ℕ} (hlt : thresh < UART_FIFO_LEN) :
      (p.running b).uartEnableTxIntr DMX_UART enable thresh = p.uartEnableTxIntr DMX_UART enable thresh := by
    simp only [Port.uartEnableTxIntr, hlt, if_true]
    rfl
  have hthresh : UART_EMPTY_THRESH_DEFAULT < UART_FIFO_LEN := by decide
  have hport : (d.turn b).port DMX_UART = (d.port DMX_UART).running b := rfl
  have hobj : (d.turn b).obj DMX_UART = d.obj DMX_UART := rfl
  have hdev : (d.turn b).dev = d.dev := rfl
  cases e with
  | changeDirectionDMXUart dir =>
    refine ⟨?_, rfl⟩
    simp only [deliver, port_setPort]
    cases dir <;> rfl
  | setBuffer dmx => cases hassigns
  | uart n op =>
    obtain rfl : n = DMX_UART := of_decide_eq_true he
    cases op with
    | uartEnableTxIntr enable thresh =>
      refine ⟨?_, rfl⟩
      by_cases hlt : thresh < UART_FIFO_LEN
      · simp only [deliver, uartStep, uartEnableTxIntr, port_setPort, hport, henable _ _ hlt]
      · have hnone : d.assigns (.uart DMX_UART (.uartEnableTxIntr enable thresh)) = none := if_neg hlt
        rw [hnone] at hassigns
        cases hassigns
    | uartDisableTxIntr =>
      refine ⟨?_, rfl⟩
      simp only [deliver, uartStep, uartDisableTxIntr, port_setPort]
      rfl
    | txAllTurn size =>
      have hfill (k : ℕ) (p : Port) : Port.writeFifo^[k] (p.running b) = (Port.writeFifo^[k] p).running b := by
        have hcommute : Function.Commute Port.writeFifo (Port.running b) := fun _ => rfl
        exact hcommute.iterate_left k p
      simp only [deliver, uartStep, txAllTurn, hobj, hdev]
      split_ifs with hring hsent
      · simp only [uartEnableTxIntr, port_setPort, hport, henable _ _ hthresh]
        exact ⟨trivial, hobj⟩
      · simp only [uartEnableTxIntr, port_setPort, port_setObj, hport, hfill, henable _ _ hthresh]
        simp only [setPort, setObj, Function.update_self, hobj, and_self]
      · -- all bytes fit, so `_tx_running` is not written
        have hnone : d.assigns (.uart DMX_UART (.txAllTurn size)) = none := if_neg (by omega)
        rw [hnone] at hassigns
        cases hassigns
    | isr i => cases hassigns
    | shiftOut => cases hassigns

theorem isr_keeps (i : Interrupt) :
    (d.uartRxIntrHandlerDefault DMX_UART i).globals.txRunning = d.globals.txRunning := by
  have hstep (e : Event) (he : ∀ dir, e ≠ .changeDirection dir) {d₁ : Driver}
      (hport : d₁.port DMX_UART = ((d.port DMX_UART).step e).1) :
      d₁.globals.txRunning = d.globals.txRunning := by
    calc d₁.globals.txRunning
        = (d₁.port DMX_UART).txRunning := rfl
      _ = ((d.port DMX_UART).step e).1.txRunning := by rw [hport]
      _ = d.globals.txRunning := Port.step_txRunning (d.port DMX_UART) e he
  cases i with
  | txDone => exact hstep .txDone nofun (isrTxDone_dmx d)
  | txfifoEmpty r => exact hstep .txfifoEmpty nofun (isrTxfifoEmpty_dmx d r)
  | brkDet => exact hstep .brkDet nofun (isrBrkDet_dmx d)
  | rxfifo byte len queued => exact hstep (.rxByte byte queued) nofun (isrRxfifo_dmx d byte len queued)
  | txBrkDone =>
    simp only [uartRxIntrHandlerDefault, isrTxBrkDone]
    split <;> rfl
  | other => rfl

/-- An event that does not write `_tx_running` leaves it. -/
theorem dmx_keeps (e : DriverEvent) (he : e.isDmx = true) (hassigns : d.assigns e = none) :
    (d.deliver e).globals.txRunning = d.globals.txRunning := by
  cases e with
  | changeDirectionDMXUart dir => cases hassigns
  | setBuffer dmx => rfl
  | uart n op =>
    obtain rfl : n = DMX_UART := of_decide_eq_true he
    cases op with
    | uartEnableTxIntr enable thresh =>
      have hge : ¬ thresh < UART_FIFO_LEN := by
        intro hlt
        have hsome : d.assigns (.uart DMX_UART (.uartEnableTxIntr enable thresh)) = some true := if_pos hlt
        rw [hsome] at hassigns
        cases hassigns
      change ((d.port DMX_UART).uartEnableTxIntr DMX_UART enable thresh).txRunning = _
      rw [Port.uartEnableTxIntr, if_neg hge]
      rfl
    | uartDisableTxIntr => cases hassigns
    | txAllTurn size =>
      have hfits : ¬ (0 < (d.obj DMX_UART).txBufSize ∨ UART_FIFO_LEN - (d.dev DMX_UART).txPending < size) := by
        intro hmore
        have hsome : d.assigns (.uart DMX_UART (.txAllTurn size)) = some true := if_pos hmore
        rw [hsome] at hassigns
        cases hassigns
      have hall : ¬ min size (UART_FIFO_LEN - (d.dev DMX_UART).txPending) < size := by omega
      change (d.txAllTurn DMX_UART size).globals.txRunning = _
      rw [txAllTurn, if_neg (not_or.mp hfits).1, if_neg hall]
      exact congrArg DmxGlobals.txRunning (writeFifo_iterate _ (d.port DMX_UART)).1
    | isr i => exact isr_keeps i
    | shiftOut => rfl

end dmx

/-- The empty FIFO of another UART hangs the handler at its two `continue`s, and nowhere else. -/
theorem isrTxfifoEmpty_hung_iff (n : UartNum) (r : Refill) : (d.isrTxfifoEmpty n r).hung = true ↔
    d.hung = true ∨ n ≠ DMX_UART ∧
      ((d.obj n).txWaitingBrk = true ∨ (d.obj n).txBufSize = 0 ∧ (d.obj n).txWaitingFifo = false) := by
  have hobj (p : Port) : (d.setPort n p).obj n = d.obj n := rfl
  unfold isrTxfifoEmpty
  dsimp only
  simp only [hobj]
  split_ifs with hn hbrk hfifo hsize
  · exact (or_iff_left fun h => h.1 hn).symm
  · exact iff_of_true rfl (Or.inr ⟨hn, Or.inl hbrk⟩)
  -- a task that waits for the FIFO is woken, and the handler goes on
  · refine (or_iff_left fun h => ?_).symm
    rcases h.2 with hw | ⟨_, hw⟩
    · exact hbrk hw
    · rw [hfifo.1] at hw
      cases hw
  · have hwaits : (d.obj n).txWaitingFifo = false := by
      by_contra hne
      exact hfifo ⟨Bool.of_not_eq_false hne, hsize⟩
    exact iff_of_true rfl (Or.inr ⟨hn, Or.inr ⟨hsize, hwaits⟩⟩)
  -- the ring buffer is there
  · refine (or_iff_left fun h => ?_).symm
    rcases h.2 with hw | ⟨hw, _⟩
    · exact hbrk hw
    · exact hsize hw

/-- No other event hangs it. -/
theorem deliver_hung_iff (e : DriverEvent) : (d.deliver e).hung = true ↔ d.hung = true ∨ d.Hangs e := by
  have hkeeps {d' : Driver} (hsame : d'.hung = d.hung) : d'.hung = true ↔ d.hung = true ∨ False := by
    rw [hsame]
    exact (or_iff_left id).symm
  cases e with
  | changeDirectionDMXUart dir => exact hkeeps rfl
  | setBuffer dmx => exact hkeeps rfl
  | uart n op =>
    cases op with
    | uartEnableTxIntr enable thresh => exact hkeeps rfl
    | uartDisableTxIntr => exact hkeeps rfl
    | txAllTurn size =>
      refine hkeeps ?_
      change (d.txAllTurn n size).hung = d.hung
      unfold txAllTurn
      dsimp only
      split_ifs <;> rfl
    | shiftOut => exact hkeeps rfl
    | isr i =>
      cases i with
      | txfifoEmpty r => exact d.isrTxfifoEmpty_hung_iff n r
      | txDone =>
        refine hkeeps ?_
        change (d.isrTxDone n).hung = d.hung
        unfold isrTxDone
        dsimp only
        split_ifs <;> rfl
      | brkDet =>
        refine hkeeps ?_
        change (d.isrBrkDet n).hung = d.hung
        unfold isrBrkDet
        split_ifs <;> rfl
      | rxfifo byte len queued =>
        refine hkeeps ?_
        change (d.isrRxfifo n byte len queued).hung = d.hung
        unfold isrRxfifo
        dsimp only
        split_ifs <;> rfl
      | txBrkDone =>
        refine hkeeps ?_
        change (d.isrTxBrkDone n).hung = d.hung
        unfold isrTxBrkDone
        dsimp only
        split_ifs <;> rfl
      | other => exact hkeeps rfl

theorem not_hangs_of_dmx {e : DriverEvent} (he : e.isDmx = true) : ¬ d.Hangs e := by
  intro hhangs
  match e, hhangs with
  | .uart n (.isr (.txfifoEmpty _)), hhangs => exact hhangs.1 (of_decide_eq_true he)

section runs
variable {d' : Driver}

theorem next_eq (h : d.hung = false) (e : DriverEvent) : d.next e = d.deliver e :=
  if_neg (by rw [h]; decide)

theorem next_hung (h : d.hung = true) (e : DriverEvent) : d.next e = d := if_pos h

theorem hung_of_not_hangs (h : d.hung = false) {e : DriverEvent} (he : ¬ d.Hangs e) :
    (d.next e).hung = false := by
  rw [next_eq h]
  by_contra hhung
  rcases (deliver_hung_iff e).mp (Bool.of_not_eq_false hhung) with hd | hd
  · rw [h] at hd
    cases hd
  · exact he hd

theorem watched_cons (d : Driver) (e : DriverEvent) (es : List DriverEvent) :
    watched d (e :: es) =
      (if e.isDmx && !d.hung then [(d.next e).watch] else []) ++ watched (d.next e) es := by
  unfold watched
  rw [trace_cons, List.map_append, List.map_map]
  exact congrArg (· ++ _) (List.map_id _)

theorem watched_dmx (h : d.hung = false) {e : DriverEvent} (he : e.isDmx = true) (es : List DriverEvent) :
    watched d (e :: es) = (d.next e).watch :: watched (d.next e) es := by
  rw [watched_cons, he, h]
  rfl

theorem watched_other {e : DriverEvent} (he : e.isDmx = false) (es : List DriverEvent) :
    watched d (e :: es) = watched (d.next e) es := by
  rw [watched_cons, he]
  rfl

theorem watched_hung (h : d.hung = true) (es : List DriverEvent) : watched d es = [] := by
  induction es with
  | nil => rfl
  | cons e es ih =>
    rw [watched_cons, h, Bool.not_true, Bool.and_false, next_hung h, ih]
    rfl

theorem watched_filter_nil_iff (h : d.hung = false) (es : List DriverEvent) :
    watched d (es.filter DriverEvent.isDmx) = [] ↔ ∀ e ∈ es, e.isDmx = false := by
  induction es with
  | nil => exact iff_of_true rfl nofun
  | cons e es ih =>
    rw [List.forall_mem_cons]
    cases he : e.isDmx with
    | true =>
      rw [List.filter_cons_of_pos he, watched_dmx h he]
      exact iff_of_false (List.cons_ne_nil _ _) fun hall => Bool.noConfusion hall.1
    | false =>
      rw [List.filter_cons_of_neg (by rw [he]; decide), ih]
      exact (and_iff_right rfl).symm

theorem watch_of_port (hport : d'.port DMX_UART = d.port DMX_UART) : d'.watch = d.watch :=
  congrArg (fun p : Port => (⟨p.dmxState, p.currentSlot, p.txRunning, p.dmxData⟩ : Watched)) hport

theorem clean_hung (h : d.hung = true) (es : List DriverEvent) : Clean d es := by
  induction es with
  | nil => trivial
  | cons e es ih =>
    refine ⟨fun hnot => ?_, ?_⟩
    · rw [h] at hnot
      cases hnot
    · rw [next_hung h]
      exact ih

theorem clean_dmx {e : DriverEvent} (he : e.isDmx = true) (es : List DriverEvent) :
    Clean d (e :: es) ↔ Clean (d.next e) es :=
  and_iff_right fun _ hother => Bool.noConfusion (he.symm.trans hother)

theorem clean_other (h : d.hung = false) {e : DriverEvent} (he : e.isDmx = false) (es : List DriverEvent) :
    Clean d (e :: es) ↔
      ((d.assigns e = some true → d.globals.txRunning = true ∨ Rejoins (d.next e) es) ∧
        (d.Hangs e → ∀ e' ∈ es, e'.isDmx = false)) ∧ Clean (d.next e) es := by
  rw [Clean, forall_prop_of_true h, forall_prop_of_true he]

theorem rejoins_dmx {e : DriverEvent} (he : e.isDmx = true) (es : List DriverEvent) :
    Rejoins d (e :: es) ↔ (d.assigns e).isSome = true := by
  rw [Rejoins, if_pos he]

theorem rejoins_other {e : DriverEvent} (he : e.isDmx = false) (es : List DriverEvent) :
    Rejoins d (e :: es) ↔ Rejoins (d.next e) es := by
  rw [Rejoins, he]
  exact Iff.rfl

theorem rejoins_of_others (d : Driver) {es : List DriverEvent} (hes : ∀ e ∈ es, e.isDmx = false) :
    Rejoins d es := by
  induction es generalizing d with
  | nil => trivial
  | cons e es ih =>
    obtain ⟨he, hes⟩ := List.forall_mem_cons.mp hes
    exact (rejoins_other he es).mpr (ih _ hes)

theorem next_other (h : d.hung = false) {e : DriverEvent} (he : e.isDmx = false) :
    (d.next e).port DMX_UART = (d.port DMX_UART).running ((d.assigns e).getD d.globals.txRunning) ∧
      (d.next e).obj DMX_UART = d.obj DMX_UART ∧ (d.assigns e = none ∨ d.assigns e = some true) := by
  rw [next_eq h]
  cases e with
  | changeDirectionDMXUart dir => cases he
  | setBuffer dmx => cases he
  | uart n op =>
    have hn : n ≠ DMX_UART := of_decide_eq_false he
    obtain ⟨hport, hobj⟩ := uart_other (d := d) hn op
    exact ⟨hport, hobj, assignsUart_other hn op⟩

/-- A step of DMX_UART in two runs whose ports differ in `_tx_running` at most, at an event
that writes the variable. -/
theorem deliver_rejoins {b : Bool} (hport : d'.port DMX_UART = (d.port DMX_UART).running b)
    (hobj : d'.obj DMX_UART = d.obj DMX_UART) {e : DriverEvent} (he : e.isDmx = true)
    (hassigns : (d'.assigns e).isSome = true) :
    (d'.deliver e).port DMX_UART = (d.deliver e).port DMX_UART ∧
      (d'.deliver e).obj DMX_UART = (d.deliver e).obj DMX_UART := by
  rw [assigns_local hport hobj e he] at hassigns
  have hturned : (d.turn b).port DMX_UART = (d.port DMX_UART).running b := rfl
  have hlocal := dmx_local (d := d.turn b) (hport.trans hturned.symm) hobj e he
  have hrejoins := turn_rejoins b e he hassigns
  exact ⟨hlocal.1.trans hrejoins.1, hlocal.2.trans hrejoins.2⟩

/-- What the list `es` makes of two runs: from ports that agree, and from ports of which only
the second one's `_tx_running` is set. -/
def Matches (es : List DriverEvent) : Prop :=
  ∀ d d' : Driver, d.hung = false → d'.hung = false → d'.obj DMX_UART = d.obj DMX_UART →
    (d'.port DMX_UART = d.port DMX_UART →
      (watched d' es = watched d (es.filter DriverEvent.isDmx) ↔ Clean d' es)) ∧
    (d'.port DMX_UART = (d.port DMX_UART).running true → d.globals.txRunning = false →
      (watched d' es = watched d (es.filter DriverEvent.isDmx) ↔ Rejoins d' es ∧ Clean d' es))

theorem matches_nil : Matches [] := by
  intro d d' _ _ _
  exact ⟨fun _ => iff_of_true rfl trivial, fun _ _ => iff_of_true rfl ⟨trivial, trivial⟩⟩

theorem matches_dmx {e : DriverEvent} (he : e.isDmx = true) {es : List DriverEvent} (ih : Matches es) :
    Matches (e :: es) := by
  intro d d' h h' hobj
  have hnext : (d.next e).hung = false := hung_of_not_hangs h (not_hangs_of_dmx he)
  have hnext' : (d'.next e).hung = false := hung_of_not_hangs h' (not_hangs_of_dmx he)
  rw [List.filter_cons_of_pos he, watched_dmx h' he, watched_dmx h he, List.cons.injEq, clean_dmx he]
  rw [next_eq h, next_eq h'] at *
  constructor
  · intro hport
    obtain ⟨hport', hobj'⟩ := dmx_local hport hobj e he
    rw [and_iff_right (watch_of_port hport')]
    exact (ih _ _ hnext hnext' hobj').1 hport'
  · intro hport hoff
    rw [rejoins_dmx he]
    cases hassigns : d'.assigns e with
    | some v =>
      have hsome : (d'.assigns e).isSome = true := by rw [hassigns]; rfl
      obtain ⟨hport', hobj'⟩ := deliver_rejoins hport hobj he hsome
      rw [and_iff_right (watch_of_port hport'),
        and_iff_right (show (some v).isSome = true from rfl)]
      exact (ih _ _ hnext hnext' hobj').1 hport'
    | none =>
      -- the two values of `_tx_running` are seen
      have hrun' : (d'.deliver e).globals.txRunning = true :=
        (dmx_keeps e he hassigns).trans (congrArg (fun p : Port => p.txRunning) hport)
      have hrun : (d.deliver e).globals.txRunning = false :=
        (dmx_keeps e he ((assigns_local hport hobj e he).symm.trans hassigns)).trans hoff
      refine iff_of_false (fun h => ?_) (fun h => Bool.noConfusion h.1)
      have hsame : (d'.deliver e).globals.txRunning = (d.deliver e).globals.txRunning :=
        congrArg Watched.txRunning h.1
      rw [hrun', hrun] at hsame
      cases hsame

/-- Behind a handler that hangs nothing is seen any more. -/
theorem watched_hangs_iff (h : d.hung = false) (h' : d'.hung = false) {e : DriverEvent}
    (hhangs : d'.Hangs e) (es : List DriverEvent) :
    watched (d'.next e) es = watched d (es.filter DriverEvent.isDmx) ↔ ∀ e' ∈ es, e'.isDmx = false := by
  have hhung : (d'.next e).hung = true := by
    rw [next_eq h']
    exact (deliver_hung_iff e).mpr (Or.inr hhangs)
  rw [watched_hung hhung, eq_comm, watched_filter_nil_iff h]

theorem clean_hangs_iff (h : d.hung = false) {e : DriverEvent} (he : e.isDmx = false) (hhangs : d.Hangs e)
    (es : List DriverEvent) : Clean d (e :: es) ↔ ∀ e' ∈ es, e'.isDmx = false := by
  have hhung : (d.next e).hung = true := by
    rw [next_eq h]
    exact (deliver_hung_iff e).mpr (Or.inr hhangs)
  rw [clean_other h he, and_iff_left (clean_hung hhung es), forall_prop_of_true hhangs]
  constructor
  · exact fun hclean => hclean.2
  · exact fun hes => ⟨fun _ => Or.inr (rejoins_of_others _ hes), hes⟩

theorem clean_serves_iff (h : d.hung = false) {e : DriverEvent} (he : e.isDmx = false) (hserves : ¬ d.Hangs e)
    (es : List DriverEvent) : Clean d (e :: es) ↔
      (d.assigns e = some true → d.globals.txRunning = true ∨ Rejoins (d.next e) es) ∧
        Clean (d.next e) es := by
  rw [clean_other h he, and_iff_left fun hhangs => absurd hhangs hserves]

theorem matches_other {e : DriverEvent} (he : e.isDmx = false) {es : List DriverEvent} (ih : Matches es) :
    Matches (e :: es) := by
  intro d d' h h' hobj
  have hne : ¬ e.isDmx = true := by rw [he]; decide
  rw [List.filter_cons_of_neg hne, watched_other he, rejoins_other he]
  by_cases hhangs : d'.Hangs e
  · rw [watched_hangs_iff h h' hhangs, clean_hangs_iff h' he hhangs]
    exact ⟨fun _ => Iff.rfl, fun _ _ => (and_iff_right_of_imp (rejoins_of_others _)).symm⟩
  obtain ⟨hnext, hobj', hassigns⟩ := next_other h' he
  have hobj'' : (d'.next e).obj DMX_UART = d.obj DMX_UART := hobj'.trans hobj
  have hnotHung : (d'.next e).hung = false := hung_of_not_hangs h' hhangs
  rw [clean_serves_iff h' he hhangs]
  constructor
  · intro hport
    have hsame : d'.globals.txRunning = d.globals.txRunning := congrArg (fun p : Port => p.txRunning) hport
    by_cases hset : d'.assigns e = some true ∧ d'.globals.txRunning = false
    · -- from here on the runs differ in `_tx_running`
      have hport' : (d'.next e).port DMX_UART = (d.port DMX_UART).running true := by
        rw [hnext, hset.1, hport]
        rfl
      have hneeds : (d'.assigns e = some true →
          d'.globals.txRunning = true ∨ Rejoins (d'.next e) es) ↔ Rejoins (d'.next e) es := by
        simp [hset.1, hset.2]
      rw [hneeds]
      exact (ih d _ h hnotHung hobj'').2 hport' (hsame.symm.trans hset.2)
    · have hport' : (d'.next e).port DMX_UART = d.port DMX_UART := by
        rcases hassigns with hnone | hsome
        · rw [hnext, hnone]
          exact hport
        · have hrun : d'.globals.txRunning = true := by
            by_contra hoff
            exact hset ⟨hsome, Bool.not_eq_true _ ▸ hoff⟩
          rw [hnext, hsome, ← hport, Option.getD_some, ← hrun]
          rfl
      have hneeds : d'.assigns e = some true →
          d'.globals.txRunning = true ∨ Rejoins (d'.next e) es := by
        intro hsome
        left
        by_contra hoff
        exact hset ⟨hsome, Bool.not_eq_true _ ▸ hoff⟩
      rw [and_iff_right hneeds]
      exact (ih d _ h hnotHung hobj'').1 hport'
  · intro hport hoff
    have hrun : d'.globals.txRunning = true := congrArg (fun p : Port => p.txRunning) hport
    have hport' : (d'.next e).port DMX_UART = (d.port DMX_UART).running true := by
      rcases hassigns with hnone | hsome
      · rw [hnext, hnone, Option.getD_none, hrun, hport]
        rfl
      · rw [hnext, hsome, Option.getD_some, hport]
        rfl
    have hneeds : d'.assigns e = some true →
        d'.globals.txRunning = true ∨ Rejoins (d'.next e) es := fun _ => Or.inl hrun
    rw [and_iff_right hneeds]
    exact (ih d _ h hnotHung hobj'').2 hport' hoff

theorem matches_all (es : List DriverEvent) : Matches es := by
  induction es with
  | nil => exact matches_nil
  | cons e es ih =>
    cases he : e.isDmx with
    | true => exact matches_dmx he ih
    | false => exact matches_other he ih

end runs

/-- The events of the other UARTs change nothing that is watched exactly when the run is clean. -/
theorem watched_iff (d : Driver) (es : List DriverEvent) :
    watched d es = watched d (es.filter DriverEvent.isDmx) ↔ Clean d es := by
  cases h : d.hung with
  | false => exact (matches_all es d d h h rfl).1 rfl
  | true =>
    rw [watched_hung h, watched_hung h]
    exact iff_of_true rfl (clean_hung h es)

/-- DMX_UART after its installation in receive mode, and the other UARTs with a ring buffer. -/
def receiving : Driver :=
  let p := Port.receive (Port.installed (fun _ => 0) 9600)
  { globals := p.toDmxGlobals
    directionPin := p.directionPin
    dev := fun _ => p.toUartDev
    obj := fun _ => ⟨0, 258, false, false, false⟩
    hung := false }

/-- UART0 is to send a byte, and a break comes in on DMX_UART. -/
def writeThenBreak : List DriverEvent := [.uart .uart0 (.txAllTurn 1), .uart DMX_UART (.isr .brkDet)]

theorem watched_fails : ¬ ∀ (d : Driver) (es : List DriverEvent),
    watched d es = watched d (es.filter DriverEvent.isDmx) := by
  intro hall
  have hsame := hall receiving writeThenBreak
  have hstate := congrArg (List.map Watched.dmxState) hsame
  -- the break is missed
  exact absurd hstate (by decide)

end Driver

end BlizzardBridge
