import BlizzardBridge.UartHandler

/-! The indexes at which the interrupt handler reads and writes `_dmx_data`. The
sender leaves `_current_slot` at 513 while it waits for TX done; the index is in
range as long as no received byte is stored in that window. -/
namespace BlizzardBridge
open CArray EventMachine

def Effect.InRange : Effect → Prop
  | .readDmx slot => slot < DMX_MAX_SLOTS
  | .writeDmx slot _ => slot < DMX_MAX_SLOTS
  | _ => True

namespace Port

/-- A byte is received, with the sender's flag off, while the state is DATA and
the slot counter is already past the last slot. -/
def StoresPastEnd (p : Port) : Event → Prop
  | .rxByte _ _ => p.rxBufferFullFlg = false ∧ p.txRunning = false ∧ p.dmxState = .data ∧
      DMX_MAX_SLOTS ≤ p.currentSlot
  | _ => False

def TxDoneSending (p : Port) : Event → Prop
  | .txDone => p.txRunning = true
  | _ => True

/-- The slot counter is in range whenever the sender's next interrupt would use it. -/
def SlotInv (p : Port) : Prop :=
  p.enaTxfifoEmpty = true → p.dmxState = .data → p.currentSlot < DMX_MAX_SLOTS

theorem slotInv_handleTxfifoEmpty (p : Port) (hI : p.SlotInv) (he : p.enaTxfifoEmpty = true) :
    p.handleTxfifoEmpty.1.SlotInv := by
  cases h : p.dmxState with
  | start =>
    rw [handleTxfifoEmpty_start p h]
    exact fun _ _ => by change 1 < DMX_MAX_SLOTS; decide
  | data =>
    by_cases hs : p.currentSlot + 1 < DMX_MAX_SLOTS
    · rw [handleTxfifoEmpty_next p h hs]
      exact fun _ _ => hs
    · -- the last slot: the interrupt stays disabled
      have hlt := hI he h
      have hlast : DMX_MAX_SLOTS ≤ (p.currentSlot + 1) % 65536 := by
        unfold DMX_MAX_SLOTS at *
        omega
      rw [handleTxfifoEmpty_last p h hlast]
      exact fun hf => nomatch hf
  | brk =>
    rw [handleTxfifoEmpty_brk p h]
    exact fun hf => nomatch hf
  | _ =>
    rw [handleTxfifoEmpty_other p (by rw [h]; decide)]
    exact fun _ hd => nomatch hd

theorem slotInv_handleRxfifo (p : Port) (byte : UInt8) (queued : Bool) (hI : p.SlotInv) :
    (p.handleRxfifo byte queued).1.SlotInv := by
  rcases handleRxfifo_cases p byte queued with ⟨_, full, ena, tout, heq⟩ | ⟨_, _, heq⟩
  · rw [heq]
    exact hI
  · rw [heq]
    exact fun _ hd => receiveByte_slot_lt p byte hd

theorem slotInv_step (p : Port) (e : Event) (hI : p.SlotInv) (he : p.Deliverable e) :
    (p.step e).1.SlotInv := by
  cases e with
  | changeDirection dir =>
    cases dir with
    | send => exact fun _ hd => nomatch hd
    | receive => exact fun hf => nomatch hf
  | txfifoEmpty => exact slotInv_handleTxfifoEmpty p hI he
  -- no state is turned into DATA
  | txDone =>
    have heq : (p.step .txDone).1 = p.handleTxDone := rfl
    rw [heq, handleTxDone_eq]
    exact fun _ hd => absurd hd (afterTxDone_ne_data _)
  | brkDet =>
    have heq : (p.step .brkDet).1 = p.handleBrkDet := rfl
    rw [heq]
    cases h : p.txRunning with
    | true => rwa [handleBrkDet_send p h]
    | false =>
      rw [handleBrkDet_receive p h]
      exact fun _ hd => nomatch hd
  | rxByte byte queued => exact slotInv_handleRxfifo p byte queued hI
  | shiftOut => exact hI
  | setBuffer dmx => exact hI

theorem handleTxfifoEmpty_inRange (p : Port) (hI : p.SlotInv) (he : p.enaTxfifoEmpty = true) :
    ∀ o ∈ p.handleTxfifoEmpty.2, o.InRange := by
  cases h : p.dmxState with
  | start =>
    rw [handleTxfifoEmpty_start p h]
    simp [Effect.InRange]
  | data =>
    have hlt := hI he h
    by_cases hs : p.currentSlot + 1 < DMX_MAX_SLOTS
    · rw [handleTxfifoEmpty_next p h hs]
      simpa [Effect.InRange] using hlt
    · have hlast : DMX_MAX_SLOTS ≤ (p.currentSlot + 1) % 65536 := by
        unfold DMX_MAX_SLOTS at *
        omega
      rw [handleTxfifoEmpty_last p h hlast]
      simpa [Effect.InRange] using hlt
  | brk =>
    rw [handleTxfifoEmpty_brk p h]
    simp [Effect.InRange]
  | _ =>
    rw [handleTxfifoEmpty_other p (by rw [h]; decide)]
    simp

theorem receiveByte_inRange_iff (p : Port) (byte : UInt8) :
    (∀ o ∈ (p.receiveByte byte).2, o.InRange) ↔
      ¬ (p.dmxState = .data ∧ DMX_MAX_SLOTS ≤ p.currentSlot) := by
  cases h : p.dmxState with
  | data =>
    by_cases hc : p.currentSlot = 0 ∧ byte ≠ 0
    · rw [receiveByte_data_code p byte h hc.1 hc.2, hc.1]
      simp [DMX_MAX_SLOTS]
    · have hb : p.currentSlot = 0 → byte = 0 := fun h0 => by
        by_contra hb
        exact hc ⟨h0, hb⟩
      rw [receiveByte_data_store p byte h hb]
      simp [Effect.InRange]
  | brk =>
    rw [receiveByte_brk p byte h]
    simp
  | _ => simp [receiveByte, h, Effect.InRange]

/-- One delivered event keeps to the buffer exactly when it is not the store of a
byte past its end. -/
theorem step_inRange_iff (p : Port) (e : Event) (hI : p.SlotInv) (he : p.Deliverable e) :
    (∀ o ∈ (p.step e).2, o.InRange) ↔ ¬ p.StoresPastEnd e := by
  cases e with
  | changeDirection dir => cases dir <;> simp [step, changeDirectionDMXUart, Effect.InRange, StoresPastEnd]
  | txfifoEmpty =>
    have hr : ∀ o ∈ (p.step .txfifoEmpty).2, o.InRange := handleTxfifoEmpty_inRange p hI he
    exact iff_of_true hr id
  | rxByte byte queued =>
    change (∀ o ∈ (p.handleRxfifo byte queued).2, o.InRange) ↔ _
    rcases handleRxfifo_cases p byte queued with ⟨h, full, ena, tout, heq⟩ | ⟨hf, ht, heq⟩
    · rw [heq]
      have hn : ¬ p.StoresPastEnd (.rxByte byte queued) := fun hs => by
        rcases h with h | h
        · exact absurd (hs.1.symm.trans h) (by decide)
        · exact absurd (hs.2.1.symm.trans h) (by decide)
      exact iff_of_true (by simp) hn
    -- only a byte that is taken while receiving is stored
    · rw [heq, receiveByte_inRange_iff]
      simp only [StoresPastEnd, hf, ht, true_and]
  | _ => simp [step, StoresPastEnd]

/-- While TX done comes only to a port that is sending, the sender is off
whenever the port receives. -/
def ReceiveInv (p : Port) : Prop :=
  p.txRunning = false →
    p.enaTxfifoEmpty = false ∧ (p.dmxState = .data → p.currentSlot < DMX_MAX_SLOTS)

theorem receiveInv_step (p : Port) (e : Event) (hI : p.ReceiveInv) (he : p.Deliverable e)
    (ht : p.TxDoneSending e) : (p.step e).1.ReceiveInv := by
  cases e with
  | changeDirection dir =>
    cases dir with
    | send => exact fun hf => nomatch hf
    | receive => exact fun _ => ⟨rfl, fun hd => nomatch hd⟩
  | txfifoEmpty =>
    -- the interrupt is off while receiving, so this port is sending and stays so
    intro hr
    have hrun : (p.step .txfifoEmpty).1.txRunning = p.txRunning := step_txRunning p _ nofun
    have hoff := (hI (hrun.symm.trans hr)).1
    exact absurd (hoff.symm.trans he) (by decide)
  | txDone =>
    intro hr
    have hrun : (p.step .txDone).1.txRunning = p.txRunning := step_txRunning p _ nofun
    exact absurd ((hrun.symm.trans hr).symm.trans ht) (by decide)
  | brkDet =>
    change (p.handleBrkDet).ReceiveInv
    cases h : p.txRunning with
    | true => rwa [handleBrkDet_send p h]
    | false =>
      rw [handleBrkDet_receive p h]
      exact fun hr => ⟨(hI hr).1, fun hd => nomatch hd⟩
  | rxByte byte queued =>
    change ((p.handleRxfifo byte queued).1).ReceiveInv
    rcases handleRxfifo_cases p byte queued with ⟨_, full, ena, tout, heq⟩ | ⟨_, hrun, heq⟩
    · rw [heq]
      exact hI
    · rw [heq]
      have hena := congrArg UartDev.enaTxfifoEmpty (receiveByte_dev p byte)
      exact fun _ => ⟨hena.trans (hI hrun).1, receiveByte_slot_lt p byte⟩
  | shiftOut => exact hI
  | setBuffer dmx => exact hI

section run
variable (dmx : Bytes) (baud : ℕ)

theorem slotInv_installed : (installed dmx baud).SlotInv := fun hf => nomatch hf

theorem receiveInv_installed : (installed dmx baud).ReceiveInv :=
  fun _ => ⟨rfl, fun hd => nomatch hd⟩

/-- Over whole runs: every index is in range exactly when no byte is stored past
the end, and this never happens when TX done comes only to a sending port. -/
theorem dmx_index_in_range_iff (es : List Event)
    (hrun : Along step Deliverable (installed dmx baud) es) :
    ((∀ x ∈ trace step (installed dmx baud) es, x.2.InRange) ↔
      Along step (fun p e => ¬ p.StoresPastEnd e) (installed dmx baud) es) ∧
    (Along step TxDoneSending (installed dmx baud) es →
      ∀ x ∈ trace step (installed dmx baud) es, x.2.InRange) := by
  have hiff := (trace_forall_iff (m := step) (fun _ o => o.InRange) (installed dmx baud) es).trans
    (along_congr slotInv_step step_inRange_iff (slotInv_installed dmx baud) hrun)
  -- while TX done is served in sending only, a receiving port never waits at slot 513
  refine ⟨hiff, fun ht => hiff.mpr ?_⟩
  have hboth := along_and.mpr ⟨hrun, ht⟩
  refine along_mono (I := ReceiveInv) (fun p e hI he => receiveInv_step p e hI he.1 he.2) ?_
    (receiveInv_installed dmx baud) hboth
  intro p e hI he hs
  cases e with
  | rxByte byte queued =>
    have hlt := (hI hs.2.1).2 hs.2.2.1
    exact absurd hs.2.2.2 (Nat.not_le.mpr hlt)
  | _ => exact hs

end run

theorem dmx_index_in_range_send :
    Along step Deliverable (installed (fun _ => 0) 9600)
        [.changeDirection .send, .txfifoEmpty, .txfifoEmpty] ∧
      ∀ x ∈ trace step (installed (fun _ => 0) 9600)
        [.changeDirection .send, .txfifoEmpty, .txfifoEmpty], x.2.InRange := by
  have hrun : Along step Deliverable (installed (fun _ => 0) 9600)
      [.changeDirection .send, .txfifoEmpty, .txfifoEmpty] := by decide
  have hin := dmx_index_in_range_iff (fun _ => 0) 9600 _ hrun
  exact ⟨hrun, hin.2 ⟨trivial, trivial, trivial, trivial⟩⟩

def sendRounds (k : ℕ) : List Event := (List.replicate k [.txfifoEmpty, .shiftOut]).flatten

theorem mem_sendRounds {k : ℕ} {e : Event} (he : e ∈ sendRounds k) : e = .txfifoEmpty ∨ e = .shiftOut := by
  obtain ⟨round, hround, hmem⟩ := List.mem_flatten.mp he
  rw [List.eq_of_mem_replicate hround] at hmem
  exact List.mem_pair.mp hmem

/-- A sender left alone writes the slots up to the last one and waits there for
TX done, its counter past the end of the buffer. -/
theorem send_rounds (k : ℕ) (p : Port) (hd : p.dmxState = .data) (he : p.enaTxfifoEmpty = true)
    (hs : p.currentSlot + (k + 1) = DMX_MAX_SLOTS) :
    Along step Deliverable p (sendRounds (k + 1)) ∧
      ∃ dev : UartDev, dev.rxBufferFullFlg = p.rxBufferFullFlg ∧
        dev.enaRxfifoFull = p.enaRxfifoFull ∧ dev.enaTxDone = true ∧ dev.txPending = p.txPending ∧
        exec step p (sendRounds (k + 1)) =
          { p with currentSlot := DMX_MAX_SLOTS, toUartDev := dev } := by
  have hpos (q : Port) : 0 < q.writeFifo.txPending := Nat.succ_pos _
  -- k + 1 slots are left; the last of them enables TX done and waits
  induction k generalizing p with
  | zero =>
    have hmod : (p.currentSlot + 1) % 65536 = DMX_MAX_SLOTS := by
      unfold DMX_MAX_SLOTS at *
      omega
    have hstep : p.step .txfifoEmpty = _ :=
      handleTxfifoEmpty_last p hd (Nat.le_of_eq hmod.symm)
    simp only [sendRounds, Nat.zero_add, List.replicate_one, List.flatten_cons, List.flatten_nil,
      List.append_nil, along_cons, along_nil, and_true, exec_cons, exec_nil, hstep, hmod]
    let last : Port := { p.writeFifo.uartEnableTxDone with enaTxfifoEmpty := false }
    exact ⟨⟨he, hpos p⟩, last.shiftOut.toUartDev, rfl, rfl, rfl, rfl, rfl⟩
  | succ k ih =>
    have hlt : p.currentSlot + 1 < DMX_MAX_SLOTS := by omega
    have hstep : p.step .txfifoEmpty = _ := handleTxfifoEmpty_next p hd hlt
    have hcons : sendRounds (k + 1 + 1) = .txfifoEmpty :: .shiftOut :: sendRounds (k + 1) := rfl
    rw [hcons, along_cons, along_cons, exec_cons, exec_cons, hstep]
    let q : Port := { p.writeFifo with currentSlot := p.currentSlot + 1, enaTxfifoEmpty := true }
    have hq : q.shiftOut.currentSlot + (k + 1) = DMX_MAX_SLOTS := by
      change p.currentSlot + 1 + (k + 1) = _
      omega
    obtain ⟨halong, dev, hfull, hena, hdone, hpend, hexec⟩ := ih q.shiftOut hd rfl hq
    exact ⟨⟨he, hpos p, halong⟩, dev, hfull, hena, hdone, hpend, hexec⟩

/-- RECEIVE leaves TX done enabled, and TX done starts the sender again. -/
def restartRun : List Event :=
  [.changeDirection .send, .txfifoEmpty, .changeDirection .receive, .shiftOut, .txDone,
    .txfifoEmpty, .txfifoEmpty]

def overrunRun : List Event :=
  restartRun ++ (sendRounds 512 ++ [.rxByte 7 true])

theorem dmx_index_overrun :
    ¬ ∀ (dmx : Bytes) (baud : ℕ) (es : List Event),
      Along step Deliverable (installed dmx baud) es →
        ∀ x ∈ trace step (installed dmx baud) es, x.2.InRange := by
  intro hall
  have hfirst : Along step Deliverable (installed (fun _ => 0) 9600) restartRun := by decide
  -- the sender that was restarted writes slots 1 to 512 in receive mode
  have hslots := send_rounds 511 (exec step (installed (fun _ => 0) 9600) restartRun) rfl rfl rfl
  obtain ⟨hsent, dev, hfull, hena, -, -, hq⟩ := hslots
  have hrun : Along step Deliverable (installed (fun _ => 0) 9600) overrunRun := by
    refine (along_append _ _ _ _ _).mpr ⟨hfirst, (along_append _ _ _ _ _).mpr ⟨hsent, ?_⟩⟩
    rw [hq]
    exact ⟨hena, trivial⟩
  have hin := hall _ _ _ hrun
  rw [trace_forall_iff (m := step) (fun _ o => o.InRange), overrunRun, along_append,
    along_append, hq] at hin
  have hlast := hin.2.2.1
  change ∀ o ∈ (handleRxfifo 7 true _).2, o.InRange at hlast
  rw [handleRxfifo_receive _ _ _ hfull rfl, receiveByte_inRange_iff] at hlast
  exact hlast ⟨rfl, le_refl _⟩

end Port

end BlizzardBridge
