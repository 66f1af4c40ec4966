import BlizzardBridge.UartHandler
import Mathlib.Logic.Function.Iterate

/-! The driver as its three UARTs share it: one set of DMX variables, and for each UART its
registers and its driver object. Every function takes the number of a UART and guards the
DMX variables the way the source does. -/
namespace BlizzardBridge

def UART_EMPTY_THRESH_DEFAULT : ℕ := 10

/-- The fields of a driver object that only Espressif's paths use. The ring buffers and the
semaphores are outside: what they answer comes with the event. -/
structure UartObj where
  rxBufferedLen : ℕ
  txBufSize : ℕ
  txWaitingFifo : Bool
  txBrkFlg : Bool
  txWaitingBrk : Bool

structure Driver where
  globals : DmxGlobals
  directionPin : Direction
  dev : UartNum → UartDev
  obj : UartNum → UartObj
  -- a handler loops for ever, and with it the one core of the build
  hung : Bool

/-- What the loop over `tx_ring_buf` comes to: the bytes that it has written, `en_tx_flg`,
and whether it has met an item with a break, or the end of one. -/
structure Refill where
  sent : ℕ
  enTx : Bool
  brkFlg : Bool
  waitingBrk : Bool
  deriving DecidableEq, Repr

inductive Interrupt where
  | txDone
  | txfifoEmpty (r : Refill)
  | brkDet
  -- the byte that the FIFO gives next, how many there are, and the ring buffer's answer
  | rxfifo (byte : UInt8) (len : ℕ) (queued : Bool)
  | txBrkDone
  -- errors, patterns and the rest: nothing but an event is sent
  | other
  deriving DecidableEq, Repr

inductive UartOp where
  | uartEnableTxIntr (enable : Bool) (thresh : ℕ)
  | uartDisableTxIntr
  -- a turn of the loop of `uart_tx_all`, with `size` bytes left
  | txAllTurn (size : ℕ)
  | isr (i : Interrupt)
  | shiftOut
  deriving DecidableEq, Repr

inductive DriverEvent where
  | changeDirectionDMXUart (dir : Direction)
  | setBuffer (dmx : CArray.Bytes)
  | uart (n : UartNum) (op : UartOp)

namespace Driver

/-- The driver as UART `n` has it. -/
def port (n : UartNum) (d : Driver) : Port :=
  { toDmxGlobals := d.globals, toUartDev := d.dev n, directionPin := d.directionPin }

def setPort (n : UartNum) (p : Port) (d : Driver) : Driver :=
  { d with
    globals := p.toDmxGlobals
    directionPin := p.directionPin
    dev := Function.update d.dev n p.toUartDev }

def setObj (n : UartNum) (o : UartObj) (d : Driver) : Driver :=
  { d with obj := Function.update d.obj n o }

def uartEnableTxIntr (n : UartNum) (enable : Bool) (thresh : ℕ) (d : Driver) : Driver :=
  d.setPort n ((d.port n).uartEnableTxIntr n enable thresh)

def uartDisableTxIntr (n : UartNum) (d : Driver) : Driver :=
  d.setPort n ((d.port n).uartDisableTxIntr n)

/-- One turn of `uart_tx_all`, behind the wait for the ring buffer or for the FIFO. -/
def txAllTurn (n : UartNum) (size : ℕ) (d : Driver) : Driver :=
  if 0 < (d.obj n).txBufSize then d.uartEnableTxIntr n true UART_EMPTY_THRESH_DEFAULT
  else
    let sent := min size (UART_FIFO_LEN - (d.dev n).txPending)
    let d := d.setPort n (Port.writeFifo^[sent] (d.port n))
    if sent < size then
      let d := d.setObj n { d.obj n with txWaitingFifo := true }
      d.uartEnableTxIntr n true UART_EMPTY_THRESH_DEFAULT
    else d

def isrTxDone (n : UartNum) (d : Driver) : Driver :=
  let p := d.port n
  if n = DMX_UART then d.setPort n p.handleTxDone
  else d.setPort n { p.clearTxDone with enaTxDone := false }

def isrTxfifoEmpty (n : UartNum) (r : Refill) (d : Driver) : Driver :=
  let p := d.port n
  if n = DMX_UART then d.setPort n p.handleTxfifoEmpty.1
  else
    let d := d.setPort n { p with enaTxfifoEmpty := false }
    let o := d.obj n
    -- `continue` leaves `uart_intr_status` as it is: the loop comes back here for ever
    if o.txWaitingBrk then { d with hung := true }
    else if o.txWaitingFifo = true ∧ o.txBufSize = 0 then d.setObj n { o with txWaitingFifo := false }
    -- "We don't use TX ring buffer, because the size is zero.", and another `continue`
    else if o.txBufSize = 0 then { d with hung := true }
    else
      let d := d.setObj n { o with txBrkFlg := o.txBrkFlg || r.brkFlg, txWaitingBrk := r.waitingBrk }
      let p := Port.writeFifo^[r.sent] (d.port n)
      d.setPort n { p with enaTxfifoEmpty := p.enaTxfifoEmpty || r.enTx }

def isrBrkDet (n : UartNum) (d : Driver) : Driver :=
  if n = DMX_UART ∧ d.globals.txRunning = false then
    { d with globals := { d.globals with dmxState := .brk, currentSlot := 0 } }
  else d

def isrRxfifo (n : UartNum) (byte : UInt8) (len : ℕ) (queued : Bool) (d : Driver) : Driver :=
  let p := d.port n
  let o := d.obj n
  if p.rxBufferFullFlg then d.setPort n { p with enaRxfifoFull := false, enaRxfifoTout := false }
  else if n = DMX_UART ∧ p.txRunning = false then d.setPort n (p.receiveByte byte).1
  else if queued then d.setObj n { o with rxBufferedLen := o.rxBufferedLen + len }
  else d.setPort n { p with enaRxfifoFull := false, enaRxfifoTout := false, rxBufferFullFlg := true }

def isrTxBrkDone (n : UartNum) (d : Driver) : Driver :=
  let o := d.obj n
  if o.txBrkFlg then
    let d := d.setPort n { d.port n with enaTxfifoEmpty := true }
    d.setObj n { o with txBrkFlg := false, txWaitingBrk := false }
  else d

/-- One turn of the interrupt handler of UART `n`. -/
def uartRxIntrHandlerDefault (n : UartNum) (d : Driver) : Interrupt → Driver
  | .txDone => d.isrTxDone n
  | .txfifoEmpty r => d.isrTxfifoEmpty n r
  | .brkDet => d.isrBrkDet n
  | .rxfifo byte len queued => d.isrRxfifo n byte len queued
  | .txBrkDone => d.isrTxBrkDone n
  | .other => d

def uartStep (n : UartNum) (d : Driver) : UartOp → Driver
  | .uartEnableTxIntr enable thresh => d.uartEnableTxIntr n enable thresh
  | .uartDisableTxIntr => d.uartDisableTxIntr n
  | .txAllTurn size => d.txAllTurn n size
  | .isr i => d.uartRxIntrHandlerDefault n i
  | .shiftOut => d.setPort n (d.port n).shiftOut

def deliver (d : Driver) : DriverEvent → Driver
  | .changeDirectionDMXUart dir => d.setPort DMX_UART ((d.port DMX_UART).changeDirectionDMXUart dir).1
  | .setBuffer dmx => { d with globals := { d.globals with dmxData := dmx } }
  | .uart n op => d.uartStep n op

/-- Behind a handler that hangs no task and no other handler runs. -/
def next (d : Driver) (e : DriverEvent) : Driver := if d.hung then d else d.deliver e

@[simp] theorem port_setPort (n : UartNum) (p : Port) (d : Driver) : (d.setPort n p).port n = p := by
  simp only [port, setPort, Function.update_self]

@[simp] theorem port_setObj (n m : UartNum) (o : UartObj) (d : Driver) : (d.setObj m o).port n = d.port n :=
  rfl

-- An interrupt of DMX_UART does to its port what the driver of that port does.

theorem isrTxDone_dmx (d : Driver) :
    (d.isrTxDone DMX_UART).port DMX_UART = ((d.port DMX_UART).step .txDone).1 :=
  port_setPort DMX_UART _ d

theorem isrTxfifoEmpty_dmx (d : Driver) (r : Refill) :
    (d.isrTxfifoEmpty DMX_UART r).port DMX_UART = ((d.port DMX_UART).step .txfifoEmpty).1 :=
  port_setPort DMX_UART _ d

theorem isrBrkDet_dmx (d : Driver) :
    (d.isrBrkDet DMX_UART).port DMX_UART = ((d.port DMX_UART).step .brkDet).1 := by
  change (d.isrBrkDet DMX_UART).port DMX_UART = (d.port DMX_UART).handleBrkDet
  cases hrun : (d.port DMX_UART).txRunning with
  | true =>
    have hoff : ¬ (DMX_UART = DMX_UART ∧ d.globals.txRunning = false) := fun h =>
      absurd (hrun.symm.trans h.2) (by decide)
    rw [Port.handleBrkDet_send _ hrun, isrBrkDet, if_neg hoff]
  | false =>
    have hon : DMX_UART = DMX_UART ∧ d.globals.txRunning = false := ⟨rfl, hrun⟩
    rw [Port.handleBrkDet_receive _ hrun, isrBrkDet, if_pos hon]
    rfl

theorem isrRxfifo_dmx (d : Driver) (byte : UInt8) (len : ℕ) (queued : Bool) :
    (d.isrRxfifo DMX_UART byte len queued).port DMX_UART =
      ((d.port DMX_UART).step (.rxByte byte queued)).1 := by
  change _ = ((d.port DMX_UART).handleRxfifo byte queued).1
  unfold isrRxfifo Port.handleRxfifo
  cases hflag : (d.port DMX_UART).rxBufferFullFlg with
  | true => simp [hflag]
  | false =>
    cases hrun : (d.port DMX_UART).txRunning with
    | true => cases queued <;> simp [hflag, hrun]
    | false => simp [hflag, hrun]

end Driver

end BlizzardBridge
