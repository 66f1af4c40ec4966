import BlizzardBridge.Dmx
import BlizzardBridge.EventMachine

/-! The modified UART driver as it drives DMX_UART. A port is the file-level DMX
state of the driver together with the registers and the driver object of one
UART. The interrupt handler is split into its branches; each is one turn of the
handler's loop. -/
namespace BlizzardBridge
open CArray

inductive UartNum where
  | uart0
  | uart1
  | uart2
  deriving DecidableEq, Repr

def DMX_UART : UartNum := .uart2
def DMX_DATA_BAUD : ℕ := 250000
def DMX_BREAK_BAUD : ℕ := 88000
def UART_FIFO_LEN : ℕ := 128

-- `DMX_STATE_START` to `DMX_STATE_RDM`.
inductive DmxState where
  | start
  | data
  | brk
  | mab
  | idle
  | rdm
  deriving DecidableEq, Repr

/-- The file-level variables that the driver shares between its three UARTs. -/
structure DmxGlobals where
  dmxState : DmxState
  incomingByte : UInt8
  currentSlot : ℕ
  startByte : UInt8
  txRunning : Bool
  dmxData : Bytes
  rxRdmPacket : Bytes

/-- The registers of one UART that the driver uses, and its driver object. Of the
transmitter only counts are kept: the bytes that have not left it, and how many
of these were written since the TX-done status was last cleared. -/
structure UartDev where
  enaRxfifoFull : Bool
  enaRxfifoTout : Bool
  enaBrkDet : Bool
  enaTxfifoEmpty : Bool
  enaTxDone : Bool
  txfifoEmptyThrhd : ℕ
  baud : ℕ
  txPending : ℕ
  txFresh : ℕ
  rawTxDone : Bool
  rxBufferFullFlg : Bool

structure Port extends DmxGlobals, UartDev where
  -- The level of `DIRECTION_PIN`.
  directionPin : Direction

/-- What an event does that is seen outside the port, in order. -/
inductive Effect where
  | readDmx (slot : ℕ)
  | writeDmx (slot : ℕ) (byte : UInt8)
  | writeRdm (index : ℕ) (byte : UInt8)
  | writeFifo (byte : UInt8) (baud : ℕ)
  | setBaud (baud : ℕ)
  deriving DecidableEq, Repr

namespace Port

def uartSetBaudrate (baud : ℕ) (p : Port) : Port := { p with baud := baud }

def clearTxDone (p : Port) : Port := { p with rawTxDone := false, txFresh := 0 }

-- uart_enable_intr_mask(DMX_UART, UART_TX_DONE_INT_ENA_M) clears the status first
def uartEnableTxDone (p : Port) : Port := { p.clearTxDone with enaTxDone := true }

def writeFifo (p : Port) : Port :=
  { p with txPending := p.txPending + 1, txFresh := p.txFresh + 1 }

def uartDisableTxIntr (n : UartNum) (p : Port) : Port :=
  let p := if n = DMX_UART then { p with dmxState := .idle, txRunning := false } else p
  { p with enaTxfifoEmpty := false }

def uartEnableTxIntr (n : UartNum) (enable : Bool) (thresh : ℕ) (p : Port) : Port :=
  if thresh < UART_FIFO_LEN then
    let p := { p with txfifoEmptyThrhd := thresh, enaTxfifoEmpty := enable }
    -- the source's if has no braces: only the state is guarded by the UART number
    let p := if n = DMX_UART then { p with dmxState := .start } else p
    { p with txRunning := true }
  else p

/-- `uart_driver_install(DMX_UART, ..)` on a UART without a driver object. -/
def uartDriverInstall (p : Port) : Port :=
  { p.clearTxDone with
    rxBufferFullFlg := false
    -- int_ena.val is the mask of the DMX branch: RXFIFO_FULL, TX_DONE and BRK_DET
    enaRxfifoFull := true
    enaRxfifoTout := false
    enaBrkDet := true
    enaTxfifoEmpty := false
    enaTxDone := true }

def changeDirectionDMXUart (dir : Direction) (p : Port) : Port × List Effect :=
  let p := { p with directionPin := dir }
  match dir with
  | .send => (p.uartEnableTxIntr DMX_UART true 1, [])
  | .receive =>
    ((p.uartSetBaudrate DMX_DATA_BAUD).uartDisableTxIntr DMX_UART, [.setBaud DMX_DATA_BAUD])

def handleTxDone (p : Port) : Port :=
  let p := { p.clearTxDone with enaTxDone := false }
  -- two tests in turn: BREAK has become START when DATA is tested
  let p := if p.dmxState = .brk then { p with dmxState := .start } else p
  let p := if p.dmxState = .data then { p with dmxState := .brk } else p
  { p with enaTxfifoEmpty := true }

def handleTxfifoEmpty (p : Port) : Port × List Effect :=
  let p := { p with enaTxfifoEmpty := false }
  match p.dmxState with
  | .start =>
    let p := p.uartSetBaudrate DMX_DATA_BAUD
    let p := { p.writeFifo with currentSlot := 1, dmxState := .data }
    ({ p with enaTxfifoEmpty := true },
      [.setBaud DMX_DATA_BAUD, .writeFifo p.startByte DMX_DATA_BAUD])
  | .data =>
    let slot := p.currentSlot
    let out := [.readDmx slot, .writeFifo (p.dmxData slot) p.baud]
    let p := { p.writeFifo with currentSlot := (slot + 1) % 65536 }
    -- wait for TX done: the handler returns with this interrupt disabled
    if p.currentSlot ≥ DMX_MAX_SLOTS then (p.uartEnableTxDone, out)
    else ({ p with enaTxfifoEmpty := true }, out)
  | .brk =>
    ((p.uartSetBaudrate DMX_BREAK_BAUD).writeFifo.uartEnableTxDone,
      [.setBaud DMX_BREAK_BAUD, .writeFifo 0 DMX_BREAK_BAUD])
  | _ => ({ p with dmxState := .start, enaTxfifoEmpty := true }, [])

def handleBrkDet (p : Port) : Port :=
  if p.txRunning then p else { p with dmxState := .brk, currentSlot := 0 }

def receiveByte (byte : UInt8) (p : Port) : Port × List Effect :=
  let p := { p with incomingByte := byte }
  match p.dmxState with
  | .data =>
    -- slot 0 is the start byte, which must be zero
    if p.currentSlot = 0 ∧ byte ≠ 0 then ({ p with dmxState := .idle }, [])
    else
      let slot := p.currentSlot
      let p := { p with
        dmxData := Function.update p.dmxData slot byte
        currentSlot := (slot + 1) % 65536 }
      (if p.currentSlot ≥ DMX_MAX_SLOTS then { p with dmxState := .idle } else p,
        [.writeDmx slot byte])
  | .brk =>
    if byte = 0 then ({ p with dmxState := .data, currentSlot := 0 }, [])
    else ({ p with dmxState := .idle }, [])
  | .rdm =>
    let slot := p.currentSlot
    let p := { p with
      rxRdmPacket := Function.update p.rxRdmPacket slot byte
      currentSlot := (slot + 1) % 65536 }
    (if p.currentSlot ≥ DMX_MAX_SLOTS then { p with dmxState := .idle } else p,
      [.writeRdm slot byte])
  | _ => (p, [])

/-- `byte` is what the FIFO gives; `queued` is the answer of `xRingbufferSendFromISR`,
which only Espressif's default path asks for. -/
def handleRxfifo (byte : UInt8) (queued : Bool) (p : Port) : Port × List Effect :=
  if p.rxBufferFullFlg then ({ p with enaRxfifoFull := false, enaRxfifoTout := false }, [])
  else if p.txRunning then
    (if queued then p
      else { p with enaRxfifoFull := false, enaRxfifoTout := false, rxBufferFullFlg := true }, [])
  else p.receiveByte byte

end Port

/-- One atomic step: a direction call, an interrupt, a byte leaving the
transmitter, or a change of the DMX buffer by another task. -/
inductive Event where
  | changeDirection (dir : Direction)
  | txfifoEmpty
  | txDone
  | brkDet
  | rxByte (byte : UInt8) (queued : Bool)
  | shiftOut
  | setBuffer (dmx : Bytes)

namespace Port

def shiftOut (p : Port) : Port :=
  { p with
    txPending := p.txPending - 1
    -- the oldest byte leaves first
    txFresh := min p.txFresh (p.txPending - 1)
    rawTxDone := p.rawTxDone || (p.txPending == 1) }

def step (p : Port) : Event → Port × List Effect
  | .changeDirection dir => p.changeDirectionDMXUart dir
  | .txfifoEmpty => p.handleTxfifoEmpty
  | .txDone => (p.handleTxDone, [])
  | .brkDet => (p.handleBrkDet, [])
  | .rxByte byte queued => p.handleRxfifo byte queued
  | .shiftOut => (p.shiftOut, [])
  | .setBuffer dmx => ({ p with dmxData := dmx }, [])

/-- An interrupt is delivered only while its enable bit is set. -/
def Enabled (p : Port) : Event → Prop
  | .txfifoEmpty => p.enaTxfifoEmpty = true
  | .txDone => p.enaTxDone = true
  | .brkDet => p.enaBrkDet = true
  | .rxByte _ _ => p.enaRxfifoFull = true
  | .shiftOut => 0 < p.txPending
  | _ => True

/-- Moreover TX done waits until every written byte has left the transmitter. -/
def Deliverable (p : Port) : Event → Prop
  | .txDone => p.enaTxDone = true ∧ p.txPending = 0
  | e => p.Enabled e

instance decidableEnabled (p : Port) : ∀ e, Decidable (p.Enabled e)
  | .txfifoEmpty => inferInstanceAs (Decidable (p.enaTxfifoEmpty = true))
  | .txDone => inferInstanceAs (Decidable (p.enaTxDone = true))
  | .brkDet => inferInstanceAs (Decidable (p.enaBrkDet = true))
  | .rxByte _ _ => inferInstanceAs (Decidable (p.enaRxfifoFull = true))
  | .shiftOut => inferInstanceAs (Decidable (0 < p.txPending))
  | .changeDirection _ => instDecidableTrue
  | .setBuffer _ => instDecidableTrue

instance decidableDeliverable (p : Port) : ∀ e, Decidable (p.Deliverable e)
  | .txDone => inferInstanceAs (Decidable (p.enaTxDone = true ∧ p.txPending = 0))
  | .txfifoEmpty => decidableEnabled p .txfifoEmpty
  | .brkDet => decidableEnabled p .brkDet
  | .rxByte byte queued => decidableEnabled p (.rxByte byte queued)
  | .shiftOut => decidableEnabled p .shiftOut
  | .changeDirection dir => decidableEnabled p (.changeDirection dir)
  | .setBuffer dmx => decidableEnabled p (.setBuffer dmx)

theorem enabled_of_deliverable (p : Port) (e : Event) (h : p.Deliverable e) : p.Enabled e := by
  cases e with
  | txDone => exact h.1
  | _ => exact h

def boot (dmx : Bytes) (baud : ℕ) : Port where
  dmxState := .idle
  incomingByte := 0
  currentSlot := 0
  startByte := 0
  txRunning := false
  dmxData := dmx
  rxRdmPacket := fun _ => 0
  enaRxfifoFull := false
  enaRxfifoTout := false
  enaBrkDet := false
  enaTxfifoEmpty := false
  enaTxDone := false
  txfifoEmptyThrhd := 0
  baud := baud
  txPending := 0
  txFresh := 0
  rawTxDone := false
  rxBufferFullFlg := false
  directionPin := .receive

def installed (dmx : Bytes) (baud : ℕ) : Port := (boot dmx baud).uartDriverInstall

end Port

end BlizzardBridge
