import BlizzardBridge.UartHandler

/-! The switch to RECEIVE. It disables the interrupt of the empty transmit FIFO and
leaves that of TX done as it is, so what follows depends on the latter's enable
bit at the time of the call. -/
namespace BlizzardBridge
open CArray EventMachine

def Event.IsTx : Event → Prop
  | .txfifoEmpty => True
  | .txDone => True
  | _ => False

namespace Port

/-- The event writes nothing to the transmit FIFO, and as a transmit interrupt it
does not move the state into START or DATA. -/
structure Quiet (p : Port) (e : Event) : Prop where
  no_write : ∀ byte baud, .writeFifo byte baud ∉ (p.step e).2
  no_move : e.IsTx → (p.step e).1.dmxState = p.dmxState ∨
    ((p.step e).1.dmxState ≠ .start ∧ (p.step e).1.dmxState ≠ .data)

/-- What follows a switch to RECEIVE: enabled interrupts, in any order, and no SEND. -/
def Receiving (p : Port) (e : Event) : Prop :=
  p.Enabled e ∧ e ≠ .changeDirection .send

def Draining (p : Port) (e : Event) : Prop :=
  p.Deliverable e ∧ e ≠ .changeDirection .send

def receive (p : Port) : Port := (p.step (.changeDirection .receive)).1

def Silent (p : Port) : Prop := p.enaTxfifoEmpty = false ∧ p.enaTxDone = false

theorem silent_step (p : Port) (e : Event) (hI : p.Silent) (he : p.Receiving e) :
    (p.step e).1.Silent := by
  cases e with
  | changeDirection dir =>
    cases dir with
    | send => exact absurd rfl he.2
    | receive => exact ⟨rfl, hI.2⟩
  -- neither TX interrupt is delivered
  | txfifoEmpty => exact absurd (hI.1.symm.trans he.1) (by decide)
  | txDone => exact absurd (hI.2.symm.trans he.1) (by decide)
  | brkDet =>
    have hdev : (p.step .brkDet).1.toUartDev = p.toUartDev := handleBrkDet_dev p
    unfold Silent
    rwa [hdev]
  | rxByte byte queued =>
    obtain ⟨full, ena, tout, hdev⟩ := handleRxfifo_dev p byte queued
    change (p.handleRxfifo byte queued).1.Silent
    unfold Silent
    rwa [hdev]
  | shiftOut => exact hI
  | setBuffer dmx => exact hI

theorem quiet_of_silent (p : Port) (e : Event) (hI : p.Silent) (he : p.Receiving e) :
    p.Quiet e := by
  cases e with
  | changeDirection dir =>
    cases dir with
    | send => exact absurd rfl he.2
    | receive => exact ⟨fun byte baud => by simp [step, changeDirectionDMXUart], False.elim⟩
  | txfifoEmpty => exact absurd (hI.1.symm.trans he.1) (by decide)
  | txDone => exact absurd (hI.2.symm.trans he.1) (by decide)
  | rxByte byte queued => exact ⟨fun b baud => handleRxfifo_no_write p byte b queued baud, False.elim⟩
  | _ => exact ⟨fun _ _ => List.not_mem_nil, False.elim⟩

def restart (n : ℕ) : List Event := List.replicate n .shiftOut ++ [.txDone, .txfifoEmpty]

theorem along_shiftOut (n : ℕ) (p : Port) (hn : p.txPending = n) :
    Along step Draining p (List.replicate n .shiftOut) ∧
      ∃ fresh raw, exec step p (List.replicate n .shiftOut) =
        { p with txPending := 0, txFresh := fresh, rawTxDone := raw } := by
  -- one byte leaves at a time
  induction n generalizing p with
  | zero =>
    refine ⟨trivial, p.txFresh, p.rawTxDone, ?_⟩
    rw [List.replicate_zero, exec_nil, ← hn]
  | succ n ih =>
    have hpred : p.shiftOut.txPending = n := by
      change p.txPending - 1 = n
      omega
    obtain ⟨halong, fresh, raw, hexec⟩ := ih p.shiftOut hpred
    have hpos : 0 < p.txPending := by omega
    exact ⟨⟨⟨hpos, nofun⟩, halong⟩, fresh, raw, hexec⟩

/-- With TX done enabled the port starts to send again. -/
theorem restart_not_quiet (p : Port) (h : p.enaTxDone = true) :
    Along step Draining p.receive (restart p.txPending) ∧
      ¬ Along step Quiet p.receive (restart p.txPending) := by
  obtain ⟨hdrained, fresh, raw, hexec⟩ := along_shiftOut p.txPending p.receive rfl
  unfold restart
  rw [along_append, along_append, hexec]
  refine ⟨⟨hdrained, ⟨⟨h, rfl⟩, nofun⟩, ⟨rfl, nofun⟩, trivial⟩, fun hquiet => ?_⟩
  -- TX done has left IDLE as it is; the empty FIFO then moves it into START
  have hmove := hquiet.2.2.1.no_move trivial
  rcases hmove with hsame | ⟨hstart, _⟩
  · cases hsame
  · exact hstart rfl

theorem receiving_of_draining (p : Port) (e : Event) (h : p.Draining e) : p.Receiving e :=
  ⟨enabled_of_deliverable p e h.1, h.2⟩

/-- A switch to RECEIVE is final until the next SEND exactly when TX done is
disabled at the time of the call. -/
theorem receive_quiet_iff (p : Port) :
    (∀ es, Along step Receiving p.receive es → Along step Quiet p.receive es) ↔
      p.enaTxDone = false := by
  constructor
  · intro hall
    by_contra hne
    have hena : p.enaTxDone = true := by simpa using hne
    obtain ⟨hrun, hnot⟩ := restart_not_quiet p hena
    exact hnot (hall _ (along_imp receiving_of_draining hrun))
  · intro hoff es hrun
    have hsilent : p.receive.Silent := ⟨rfl, hoff⟩
    exact along_mono silent_step quiet_of_silent hsilent hrun

/-- A switch one byte into the first frame. When TX done is served the sender
starts again, and the second empty FIFO sends a start byte. -/
theorem receive_restarts :
    ¬ ∀ (dmx : Bytes) (baud : ℕ) (before es : List Event),
      Along step Enabled (installed dmx baud) before →
        Along step Receiving (exec step (installed dmx baud) before).receive es →
          Along step Quiet (exec step (installed dmx baud) before).receive es := by
  intro hall
  let before : List Event := [.changeDirection .send, .txfifoEmpty]
  let es : List Event := [.shiftOut, .txDone, .txfifoEmpty, .txfifoEmpty]
  have hes : Along step Receiving (exec step (installed (fun _ => 0) 9600) before).receive es :=
    ⟨⟨by decide, nofun⟩, ⟨rfl, nofun⟩, ⟨rfl, nofun⟩, ⟨rfl, nofun⟩, trivial⟩
  have hquiet := hall (fun _ => 0) 9600 before es (by decide) hes
  have hwrite := hquiet.2.2.2.1.no_write 0 DMX_DATA_BAUD
  exact hwrite (List.mem_cons_of_mem _ (List.mem_singleton.mpr rfl))

end Port

end BlizzardBridge
