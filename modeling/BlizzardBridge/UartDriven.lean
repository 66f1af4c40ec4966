import BlizzardBridge.UartSwitch

/-! What drives the sender on. After a SEND the interrupt of the empty transmit FIFO is
enabled, or that of TX done is and will be raised. `uart_enable_intr_mask` clears the status
after the byte has been written, so the byte that TX done waits for is older than that. -/
namespace BlizzardBridge
open CArray EventMachine

namespace Port

/-- A transmit interrupt has come or will come: that of the empty FIFO, or TX done for a byte
that has still to leave the transmitter. -/
def Driven (p : Port) : Prop :=
  p.enaTxfifoEmpty = true ∨ (p.enaTxDone = true ∧ (0 < p.txPending ∨ p.rawTxDone = true))

/-- TX done waits for a byte that was written since its status was last cleared. -/
def DrivenFresh (p : Port) : Prop :=
  p.enaTxfifoEmpty = true ∨ (p.enaTxDone = true ∧ (0 < p.txFresh ∨ p.rawTxDone = true))

instance (p : Port) : Decidable p.Driven := inferInstanceAs (Decidable (_ ∨ _))

instance (p : Port) : Decidable p.DrivenFresh := inferInstanceAs (Decidable (_ ∨ _))

/-- A transmit interrupt that is enabled and has its status set. The status of the empty FIFO
follows the level of the FIFO; no more is in it than has not left the transmitter. -/
def Raised (p : Port) : Event → Prop
  | .txfifoEmpty => p.enaTxfifoEmpty = true ∧ p.txPending < p.txfifoEmptyThrhd
  | .txDone => p.enaTxDone = true ∧ p.rawTxDone = true
  | _ => False

/-- The port after every byte that was written has left the transmitter. -/
def drained (p : Port) : Port := exec step p (List.replicate p.txPending .shiftOut)

theorem driven_shiftOut (p : Port) (h : p.Driven) (hpos : 0 < p.txPending) : p.shiftOut.Driven := by
  rcases h with hempty | ⟨hdone, _⟩
  · exact Or.inl hempty
  · apply Or.inr
    refine ⟨hdone, ?_⟩
    rcases Nat.eq_or_lt_of_le hpos with hone | hmore
    · -- the last byte raises the status
      have hraw : (p.txPending == 1) = true := beq_iff_eq.mpr hone.symm
      exact Or.inr (Bool.or_eq_true_iff.mpr (Or.inr hraw))
    · exact Or.inl (Nat.sub_pos_of_lt hmore)

/-- In SEND the sender is driven, and its FIFO counts as empty when nothing is in it. -/
def SendArmed (p : Port) : Prop := p.directionPin = .send → p.Driven ∧ p.txfifoEmptyThrhd = 1

theorem sendArmed_handleTxfifoEmpty (p : Port) (hI : p.SendArmed) :
    p.handleTxfifoEmpty.1.SendArmed := by
  have hwritten : 0 < p.txPending + 1 := Nat.succ_pos p.txPending
  cases h : p.dmxState with
  | start =>
    rw [handleTxfifoEmpty_start p h]
    exact fun hsend => ⟨Or.inl rfl, (hI hsend).2⟩
  | data =>
    simp only [handleTxfifoEmpty, h]
    split
    · -- the last slot: TX done waits for the byte just written
      exact fun hsend => ⟨Or.inr ⟨rfl, Or.inl hwritten⟩, (hI hsend).2⟩
    · exact fun hsend => ⟨Or.inl rfl, (hI hsend).2⟩
  | brk =>
    -- and likewise for the break
    rw [handleTxfifoEmpty_brk p h]
    exact fun hsend => ⟨Or.inr ⟨rfl, Or.inl hwritten⟩, (hI hsend).2⟩
  | _ =>
    rw [handleTxfifoEmpty_other p (by rw [h]; decide)]
    exact fun hsend => ⟨Or.inl rfl, (hI hsend).2⟩

theorem sendArmed_step (p : Port) (e : Event) (hI : p.SendArmed) (he : p.Enabled e) :
    (p.step e).1.SendArmed := by
  cases e with
  | changeDirection dir =>
    cases dir with
    | send => exact fun _ => ⟨Or.inl rfl, rfl⟩
    | receive => exact fun hpin => nomatch hpin
  | txfifoEmpty => exact sendArmed_handleTxfifoEmpty p hI
  | txDone =>
    change p.handleTxDone.SendArmed
    rw [handleTxDone_eq]
    exact fun hsend => ⟨Or.inl rfl, (hI hsend).2⟩
  | brkDet =>
    change p.handleBrkDet.SendArmed
    unfold handleBrkDet
    split
    · exact hI
    · exact hI
  | rxByte byte queued =>
    change (p.handleRxfifo byte queued).1.SendArmed
    rcases handleRxfifo_cases p byte queued with ⟨_, full, ena, tout, heq⟩ | ⟨_, _, heq⟩
    · rw [heq]
      exact hI
    · have hpin := (receiveByte_sameRole p byte).directionPin
      have hdev := receiveByte_dev p byte
      rw [heq]
      unfold SendArmed Driven
      rwa [hpin, hdev]
  | shiftOut => exact fun hsend => ⟨driven_shiftOut p (hI hsend).1 he, (hI hsend).2⟩
  | setBuffer dmx => exact hI

theorem sendArmed_installed (dmx : Bytes) (baud : ℕ) : (installed dmx baud).SendArmed :=
  fun hsend => nomatch hsend

/-- Once the transmitter has nothing left to send, the interrupt that drives the sender is
raised. -/
theorem raised_of_driven (p : Port) (h : p.Driven) (hthrhd : p.txfifoEmptyThrhd = 1) :
    ∃ e, e.IsTx ∧ p.drained.Raised e := by
  obtain ⟨hrun, fresh, raw, hexec⟩ := along_shiftOut p.txPending p rfl
  have hshifts : Along step (fun q e => e = .shiftOut ∧ 0 < q.txPending) p
      (List.replicate p.txPending .shiftOut) := by
    apply along_imp_mem _ hrun
    intro e he q hC
    obtain rfl := List.eq_of_mem_replicate he
    exact ⟨rfl, hC.1⟩
  have hdriven : p.drained.Driven := by
    apply exec_invariant (I := Driven) _ h hshifts
    rintro q e hq ⟨rfl, hpos⟩
    exact driven_shiftOut q hq hpos
  unfold drained at hdriven ⊢
  rw [hexec] at hdriven ⊢
  rcases hdriven with hempty | ⟨hdone, hpending | hraw⟩
  · refine ⟨.txfifoEmpty, trivial, hempty, ?_⟩
    change 0 < p.txfifoEmptyThrhd
    omega
  · exact absurd hpending (Nat.lt_irrefl 0)
  · exact ⟨.txDone, trivial, hdone, hraw⟩

/-- In every state of a run in which the direction is SEND, one of the two interrupts is
armed, and it is raised at the latest when the transmitter has nothing left to send. -/
theorem send_driven (dmx : Bytes) (baud : ℕ) (es : List Event)
    (hrun : Along step Enabled (installed dmx baud) es)
    (hsend : (exec step (installed dmx baud) es).directionPin = .send) :
    (exec step (installed dmx baud) es).Driven ∧
      ∃ e, e.IsTx ∧ (exec step (installed dmx baud) es).drained.Raised e := by
  have harmed : (exec step (installed dmx baud) es).SendArmed :=
    exec_invariant sendArmed_step (sendArmed_installed dmx baud) hrun
  obtain ⟨hdriven, hthrhd⟩ := harmed hsend
  exact ⟨hdriven, raised_of_driven _ hdriven hthrhd⟩

-- The start byte leaves the transmitter, and TX done, enabled since the installation, takes
-- the sender to the break.
def earlyBreak : List Event :=
  [.changeDirection .send, .txfifoEmpty, .shiftOut, .txDone, .txfifoEmpty]

theorem send_driven_earlyBreak :
    Along step Enabled (installed (fun _ => 0) 9600) earlyBreak ∧
      (exec step (installed (fun _ => 0) 9600) earlyBreak).directionPin = .send ∧
      (exec step (installed (fun _ => 0) 9600) earlyBreak).Driven ∧
      ∃ e, e.IsTx ∧ (exec step (installed (fun _ => 0) 9600) earlyBreak).drained.Raised e :=
  ⟨by decide, by decide, send_driven (fun _ => 0) 9600 earlyBreak (by decide) (by decide)⟩

/-- The break is written before the status of TX done is cleared. -/
theorem send_not_drivenFresh :
    ¬ ∀ (dmx : Bytes) (baud : ℕ) (es : List Event), Along step Enabled (installed dmx baud) es →
      (exec step (installed dmx baud) es).directionPin = .send →
        (exec step (installed dmx baud) es).DrivenFresh := by
  intro hall
  have hfresh := hall (fun _ => 0) 9600 earlyBreak (by decide) (by decide)
  exact absurd hfresh (by decide)

end Port

end BlizzardBridge
