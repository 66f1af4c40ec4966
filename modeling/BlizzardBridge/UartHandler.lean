import BlizzardBridge.UartDriver

/-! What each branch of the interrupt handler does, one equation for each case.
The proofs about runs use these and never unfold the handler. -/
namespace BlizzardBridge

def DmxState.afterTxDone : DmxState → DmxState
  | .brk => .start
  | .data => .brk
  | s => s

namespace Port

theorem handleTxDone_eq (p : Port) :
    p.handleTxDone = { p.clearTxDone with
      enaTxDone := false, enaTxfifoEmpty := true, dmxState := p.dmxState.afterTxDone } := by
  obtain ⟨⟨state, _, _, _, _, _, _⟩, _, _⟩ := p
  cases state <;> rfl

theorem afterTxDone_ne_data (s : DmxState) : s.afterTxDone ≠ .data := by
  cases s <;> decide

theorem handleTxfifoEmpty_start (p : Port) (h : p.dmxState = .start) :
    p.handleTxfifoEmpty =
      ({ (p.uartSetBaudrate DMX_DATA_BAUD).writeFifo with
          currentSlot := 1, dmxState := .data, enaTxfifoEmpty := true },
        [.setBaud DMX_DATA_BAUD, .writeFifo p.startByte DMX_DATA_BAUD]) := by
  simp only [handleTxfifoEmpty, h, uartSetBaudrate, writeFifo]

/-- A slot before the last: the interrupt is enabled again. -/
theorem handleTxfifoEmpty_next (p : Port) (h : p.dmxState = .data)
    (hs : p.currentSlot + 1 < DMX_MAX_SLOTS) :
    p.handleTxfifoEmpty =
      ({ p.writeFifo with currentSlot := p.currentSlot + 1, enaTxfifoEmpty := true },
        [.readDmx p.currentSlot, .writeFifo (p.dmxData p.currentSlot) p.baud]) := by
  have hmod : (p.currentSlot + 1) % 65536 = p.currentSlot + 1 := by
    unfold DMX_MAX_SLOTS at hs
    omega
  simp only [handleTxfifoEmpty, h, hmod, ge_iff_le, Nat.not_le.mpr hs, if_false, writeFifo]

/-- The last slot: only TX done is left to continue the frame. -/
theorem handleTxfifoEmpty_last (p : Port) (h : p.dmxState = .data)
    (hs : DMX_MAX_SLOTS ≤ (p.currentSlot + 1) % 65536) :
    p.handleTxfifoEmpty =
      ({ p.writeFifo.uartEnableTxDone with
          currentSlot := (p.currentSlot + 1) % 65536, enaTxfifoEmpty := false },
        [.readDmx p.currentSlot, .writeFifo (p.dmxData p.currentSlot) p.baud]) := by
  simp only [handleTxfifoEmpty, h, ge_iff_le, hs, if_true, writeFifo, uartEnableTxDone, clearTxDone]

theorem handleTxfifoEmpty_brk (p : Port) (h : p.dmxState = .brk) :
    p.handleTxfifoEmpty =
      ({ (p.uartSetBaudrate DMX_BREAK_BAUD).writeFifo.uartEnableTxDone with
          enaTxfifoEmpty := false },
        [.setBaud DMX_BREAK_BAUD, .writeFifo 0 DMX_BREAK_BAUD]) := by
  simp only [handleTxfifoEmpty, h, uartSetBaudrate, writeFifo, uartEnableTxDone, clearTxDone]

theorem handleTxfifoEmpty_other (p : Port) (h : p.dmxState ∉ [DmxState.start, .data, .brk]) :
    p.handleTxfifoEmpty = ({ p with dmxState := .start, enaTxfifoEmpty := true }, []) := by
  cases hs : p.dmxState with
  | start => exact absurd (by rw [hs]; decide) h
  | data => exact absurd (by rw [hs]; decide) h
  | brk => exact absurd (by rw [hs]; decide) h
  | mab => simp only [handleTxfifoEmpty, hs]
  | idle => simp only [handleTxfifoEmpty, hs]
  | rdm => simp only [handleTxfifoEmpty, hs]

theorem handleBrkDet_send (p : Port) (h : p.txRunning = true) : p.handleBrkDet = p := by
  rw [handleBrkDet, if_pos h]

theorem step_brkDet_send (p : Port) (h : p.txRunning = true) : p.step .brkDet = (p, []) := by
  rw [step, handleBrkDet_send p h]

theorem handleBrkDet_receive (p : Port) (h : p.txRunning = false) :
    p.handleBrkDet = { p with dmxState := .brk, currentSlot := 0 } := by
  rw [handleBrkDet, if_neg (by rw [h]; decide)]

theorem handleRxfifo_receive (p : Port) (byte : UInt8) (queued : Bool)
    (hf : p.rxBufferFullFlg = false) (ht : p.txRunning = false) :
    p.handleRxfifo byte queued = p.receiveByte byte := by
  rw [handleRxfifo, if_neg (by rw [hf]; decide), if_neg (by rw [ht]; decide)]

theorem handleRxfifo_default (p : Port) (byte : UInt8) (queued : Bool)
    (h : p.rxBufferFullFlg = true ∨ p.txRunning = true) :
    (p.handleRxfifo byte queued).2 = [] ∧
      ∃ full ena tout, (p.handleRxfifo byte queued).1 =
        { p with rxBufferFullFlg := full, enaRxfifoFull := ena, enaRxfifoTout := tout } := by
  unfold handleRxfifo
  by_cases hf : p.rxBufferFullFlg = true
  · rw [if_pos hf]
    exact ⟨rfl, p.rxBufferFullFlg, false, false, rfl⟩
  · have ht : p.txRunning = true := h.resolve_left hf
    rw [if_neg hf, if_pos ht]
    cases queued
    · exact ⟨rfl, true, false, false, rfl⟩
    · exact ⟨rfl, p.rxBufferFullFlg, p.enaRxfifoFull, p.enaRxfifoTout, rfl⟩

/-- A byte is taken while the port receives; else the receive interrupts alone may change. -/
theorem handleRxfifo_cases (p : Port) (byte : UInt8) (queued : Bool) :
    ((p.rxBufferFullFlg = true ∨ p.txRunning = true) ∧ ∃ full ena tout, p.handleRxfifo byte queued =
      ({ p with rxBufferFullFlg := full, enaRxfifoFull := ena, enaRxfifoTout := tout }, [])) ∨
    (p.rxBufferFullFlg = false ∧ p.txRunning = false ∧
      p.handleRxfifo byte queued = p.receiveByte byte) := by
  by_cases h : p.rxBufferFullFlg = true ∨ p.txRunning = true
  · obtain ⟨hout, full, ena, tout, heq⟩ := handleRxfifo_default p byte queued h
    exact Or.inl ⟨h, full, ena, tout, Prod.ext heq hout⟩
  · simp only [not_or, Bool.not_eq_true] at h
    exact Or.inr ⟨h.1, h.2, handleRxfifo_receive p byte queued h.1 h.2⟩

theorem receiveByte_idle (p : Port) (byte : UInt8) (h : p.dmxState = .idle) :
    p.receiveByte byte = ({ p with incomingByte := byte }, []) := by
  simp only [receiveByte, h]

theorem receiveByte_brk (p : Port) (byte : UInt8) (h : p.dmxState = .brk) :
    p.receiveByte byte =
      (if byte = 0 then { p with incomingByte := byte, dmxState := .data, currentSlot := 0 }
        else { p with incomingByte := byte, dmxState := .idle }, []) := by
  simp only [receiveByte, h]
  split <;> rfl

theorem receiveByte_data_code (p : Port) (byte : UInt8) (h : p.dmxState = .data)
    (hs : p.currentSlot = 0) (hb : byte ≠ 0) :
    p.receiveByte byte = ({ p with incomingByte := byte, dmxState := .idle }, []) := by
  simp only [receiveByte, h, hs, hb, ne_eq, not_false_eq_true, and_self, if_true]

theorem receiveByte_data_store (p : Port) (byte : UInt8) (h : p.dmxState = .data)
    (hb : p.currentSlot = 0 → byte = 0) :
    p.receiveByte byte =
      ({ p with
          incomingByte := byte
          dmxData := Function.update p.dmxData p.currentSlot byte
          currentSlot := (p.currentSlot + 1) % 65536
          dmxState :=
            if DMX_MAX_SLOTS ≤ (p.currentSlot + 1) % 65536 then .idle else .data },
        [.writeDmx p.currentSlot byte]) := by
  have hn : ¬ (p.currentSlot = 0 ∧ byte ≠ 0) := fun hc => hc.2 (hb hc.1)
  simp only [receiveByte, h, hn, if_false, ge_iff_le]
  split <;> rfl

/-- The receive state machine never leaves DATA with the counter out of range. -/
theorem receiveByte_slot_lt (p : Port) (byte : UInt8)
    (hd : (p.receiveByte byte).1.dmxState = .data) :
    (p.receiveByte byte).1.currentSlot < DMX_MAX_SLOTS := by
  cases h : p.dmxState with
  | data =>
    by_cases hc : p.currentSlot = 0 ∧ byte ≠ 0
    · rw [receiveByte_data_code p byte h hc.1 hc.2] at hd
      cases hd
    · have hb : p.currentSlot = 0 → byte = 0 := fun h0 => by
        by_contra hb
        exact hc ⟨h0, hb⟩
      rw [receiveByte_data_store p byte h hb] at hd ⊢
      -- the byte that fills the last slot leaves DATA
      by_contra hge
      simp only [Nat.not_lt.mp hge, if_true, reduceCtorEq] at hd
  | brk =>
    rw [receiveByte_brk p byte h] at hd ⊢
    by_cases hb : byte = 0
    · simp only [hb, if_true]
      decide
    · simp only [hb, if_false, reduceCtorEq] at hd
  | rdm =>
    simp only [receiveByte, h] at hd
    split at hd <;> cases hd
  | _ =>
    simp only [receiveByte, h] at hd
    cases hd

theorem receiveByte_dev (p : Port) (byte : UInt8) :
    (p.receiveByte byte).1.toUartDev = p.toUartDev := by
  cases hs : p.dmxState <;> simp only [receiveByte, hs] <;> split_ifs <;> rfl

theorem handleRxfifo_dev (p : Port) (byte : UInt8) (queued : Bool) :
    ∃ full ena tout, (p.handleRxfifo byte queued).1.toUartDev =
      { p.toUartDev with rxBufferFullFlg := full, enaRxfifoFull := ena, enaRxfifoTout := tout } := by
  rcases handleRxfifo_cases p byte queued with ⟨_, full, ena, tout, heq⟩ | ⟨_, _, heq⟩
  · rw [heq]
    exact ⟨full, ena, tout, rfl⟩
  · rw [heq, receiveByte_dev]
    exact ⟨p.rxBufferFullFlg, p.enaRxfifoFull, p.enaRxfifoTout, rfl⟩

theorem handleBrkDet_dev (p : Port) : p.handleBrkDet.toUartDev = p.toUartDev := by
  unfold handleBrkDet
  split <;> rfl

/-- What a step other than a direction call leaves alone. -/
structure SameRole (p p' : Port) : Prop where
  startByte : p'.startByte = p.startByte
  txRunning : p'.txRunning = p.txRunning
  directionPin : p'.directionPin = p.directionPin

theorem receiveByte_sameRole (p : Port) (byte : UInt8) : p.SameRole (p.receiveByte byte).1 := by
  cases hs : p.dmxState <;> simp only [receiveByte, hs] <;> (try split_ifs) <;> exact ⟨rfl, rfl, rfl⟩

theorem handleTxfifoEmpty_sameRole (p : Port) : p.SameRole p.handleTxfifoEmpty.1 := by
  cases hs : p.dmxState <;> simp only [handleTxfifoEmpty, hs] <;> (try split) <;> exact ⟨rfl, rfl, rfl⟩

theorem step_sameRole (p : Port) (e : Event) (h : ∀ dir, e ≠ .changeDirection dir) :
    p.SameRole (p.step e).1 := by
  cases e with
  | changeDirection dir => exact absurd rfl (h dir)
  | txfifoEmpty => exact handleTxfifoEmpty_sameRole p
  | txDone =>
    change p.SameRole p.handleTxDone
    rw [handleTxDone_eq]
    exact ⟨rfl, rfl, rfl⟩
  | brkDet =>
    change p.SameRole p.handleBrkDet
    unfold handleBrkDet
    split <;> exact ⟨rfl, rfl, rfl⟩
  | rxByte byte queued =>
    change p.SameRole (p.handleRxfifo byte queued).1
    rcases handleRxfifo_cases p byte queued with ⟨_, full, ena, tout, heq⟩ | ⟨_, _, heq⟩
    · rw [heq]
      exact ⟨rfl, rfl, rfl⟩
    · rw [heq]
      exact receiveByte_sameRole p byte
  | shiftOut => exact ⟨rfl, rfl, rfl⟩
  | setBuffer dmx => exact ⟨rfl, rfl, rfl⟩

/-- The direction calls apart, nothing turns the port from sending to receiving or back. -/
theorem step_txRunning (p : Port) (e : Event) (h : ∀ dir, e ≠ .changeDirection dir) :
    (p.step e).1.txRunning = p.txRunning := (step_sameRole p e h).txRunning

theorem handleRxfifo_no_write (p : Port) (byte b : UInt8) (queued : Bool) (baud : ℕ) :
    .writeFifo b baud ∉ (p.handleRxfifo byte queued).2 := by
  rcases handleRxfifo_cases p byte queued with ⟨_, full, ena, tout, heq⟩ | ⟨_, _, heq⟩
  · rw [heq]
    exact List.not_mem_nil
  · rw [heq]
    cases hs : p.dmxState <;> simp only [receiveByte, hs] <;> (try split_ifs) <;> simp

end Port

end BlizzardBridge
