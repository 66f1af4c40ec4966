import BlizzardBridge.UartHandler

/-! What a port hears after it has been sending. Bytes that come in while it sends take
Espressif's path into a ring buffer that nobody empties. -/
namespace BlizzardBridge
open EventMachine

/-- A port with the number of bytes in its `rx_ring_buf`. -/
structure RingPort where
  port : Port
  stored : ℕ

namespace RingPort

/-- `xRingbufferSendFromISR` takes a byte while there is room. -/
def answer (room : ℕ) (s : RingPort) : Event → Event
  -- the threshold of the interrupt is one byte
  | .rxByte byte _ => .rxByte byte (s.stored < room)
  | e => e

/-- The handler puts the byte into the ring buffer. -/
def queues (room : ℕ) (s : RingPort) : Event → Bool
  | .rxByte _ _ => !s.port.rxBufferFullFlg && s.port.txRunning && s.stored < room
  | _ => false

def step (room : ℕ) (s : RingPort) (e : Event) : RingPort × List Effect :=
  let r := s.port.step (s.answer room e)
  (⟨r.1, if s.queues room e then s.stored + 1 else s.stored⟩, r.2)

def installed (dmx : CArray.Bytes) (baud : ℕ) : RingPort := ⟨Port.installed dmx baud, 0⟩

def Enabled (s : RingPort) (e : Event) : Prop := s.port.Enabled e

instance decidableEnabled (s : RingPort) (e : Event) : Decidable (s.Enabled e) :=
  Port.decidableEnabled s.port e

/-- A byte that comes in while the port sends finds room in the ring buffer. -/
def FindsRoom (room : ℕ) (s : RingPort) : Event → Prop
  | .rxByte _ _ => s.port.txRunning = true → s.stored < room
  | _ => True

/-- The last direction that has been set is RECEIVE. -/
def LastReceive (room : ℕ) (s : RingPort) (es : List Event) : Prop :=
  Settled (step room) (fun _ e => e = .changeDirection .receive) (fun _ e => e = .changeDirection .send)
    False s es

end RingPort

/-- The interrupt for a received byte comes, and the byte goes to the receive state machine. -/
structure Port.Hears (p : Port) : Prop where
  enabled : p.enaRxfifoFull = true
  empty : p.rxBufferFullFlg = false
  receives : ∀ byte queued, p.handleRxfifo byte queued = p.receiveByte byte

namespace RingPort
variable {room : ℕ}

/-- The flow control has not stopped the receiver. -/
def Open (s : RingPort) : Prop := s.port.enaRxfifoFull = true ∧ s.port.rxBufferFullFlg = false

theorem open_rxByte (s : RingPort) (byte : UInt8) (queued : Bool) (hena : s.port.enaRxfifoFull = true) :
    (s.step room (.rxByte byte queued)).1.Open ↔ s.Open ∧ s.FindsRoom room (.rxByte byte queued) := by
  let fits : Bool := s.stored < room
  change ((s.port.handleRxfifo byte fits).1.enaRxfifoFull = true ∧
    (s.port.handleRxfifo byte fits).1.rxBufferFullFlg = false) ↔ _
  unfold Open FindsRoom
  cases hflag : s.port.rxBufferFullFlg with
  | true =>
    -- the handler disables the interrupt
    have hhandled : s.port.handleRxfifo byte fits =
        ({ s.port with enaRxfifoFull := false, enaRxfifoTout := false }, []) := if_pos hflag
    rw [hhandled]
    simp
  | false =>
    cases hrun : s.port.txRunning with
    | false =>
      have hdev : (s.port.handleRxfifo byte fits).1.toUartDev = s.port.toUartDev := by
        rw [Port.handleRxfifo_receive _ _ _ hflag hrun, Port.receiveByte_dev]
      rw [hdev, hflag]
      simp
    | true =>
      have hdefault : s.port.handleRxfifo byte fits =
          (if fits then s.port
            else { s.port with enaRxfifoFull := false, enaRxfifoTout := false, rxBufferFullFlg := true },
            []) := by
        rw [Port.handleRxfifo, if_neg (by rw [hflag]; decide), if_pos hrun]
      rw [hdefault]
      by_cases hfits : s.stored < room
      · have htrue : fits = true := decide_eq_true hfits
        simp [htrue, hena, hflag, hfits]
      · have hfalse : fits = false := decide_eq_false hfits
        simp [hfalse, hfits]

/-- No event but a received byte touches the interrupt of the receiver or its flag. -/
theorem open_step (s : RingPort) (e : Event) (he : s.Enabled e) :
    (s.step room e).1.Open ↔ s.Open ∧ s.FindsRoom room e := by
  cases e with
  | rxByte byte queued => exact open_rxByte s byte queued he
  | changeDirection dir => cases dir <;> exact (and_iff_left trivial).symm
  | txfifoEmpty =>
    have hdev : (s.port.handleTxfifoEmpty).1.enaRxfifoFull = s.port.enaRxfifoFull ∧
        (s.port.handleTxfifoEmpty).1.rxBufferFullFlg = s.port.rxBufferFullFlg := by
      cases hs : s.port.dmxState <;>
        simp [Port.handleTxfifoEmpty, hs, Port.uartSetBaudrate, Port.writeFifo, Port.uartEnableTxDone,
          Port.clearTxDone]
      split <;> exact ⟨rfl, rfl⟩
    change (s.port.handleTxfifoEmpty.1.enaRxfifoFull = true ∧
      s.port.handleTxfifoEmpty.1.rxBufferFullFlg = false) ↔ _
    rw [hdev.1, hdev.2]
    exact (and_iff_left trivial).symm
  | txDone =>
    change (s.port.handleTxDone.enaRxfifoFull = true ∧ s.port.handleTxDone.rxBufferFullFlg = false) ↔ _
    rw [Port.handleTxDone_eq]
    exact (and_iff_left trivial).symm
  | brkDet =>
    change (s.port.handleBrkDet.enaRxfifoFull = true ∧ s.port.handleBrkDet.rxBufferFullFlg = false) ↔ _
    rw [Port.handleBrkDet_dev]
    exact (and_iff_left trivial).symm
  | shiftOut => exact (and_iff_left trivial).symm
  | setBuffer dmx => exact (and_iff_left trivial).symm

theorem open_installed (dmx : CArray.Bytes) (baud : ℕ) : (installed dmx baud).Open := ⟨rfl, rfl⟩

theorem receiving_step (s : RingPort) (e : Event) : (s.step room e).1.port.txRunning = false ↔
    e = .changeDirection .receive ∨ s.port.txRunning = false ∧ ¬ e = .changeDirection .send := by
  by_cases hdir : ∃ dir, e = .changeDirection dir
  · obtain ⟨dir, rfl⟩ := hdir
    cases dir with
    | send =>
      have hrun : (s.step room (.changeDirection .send)).1.port.txRunning = true := rfl
      rw [hrun]
      simp
    | receive =>
      have hrun : (s.step room (.changeDirection .receive)).1.port.txRunning = false := rfl
      rw [hrun]
      simp
  · have hother : ∀ dir, e ≠ .changeDirection dir := fun dir he => hdir ⟨dir, he⟩
    have hanswer : ∀ dir, s.answer room e ≠ .changeDirection dir := by
      intro dir
      cases e with
      | changeDirection dir' => exact absurd rfl (hother dir')
      | _ => nofun
    have hsame : (s.step room e).1.port.txRunning = s.port.txRunning := Port.step_txRunning _ _ hanswer
    rw [hsame]
    simp [hother]

theorem receiving_of_lastReceive (s : RingPort) (es : List Event) (h : s.LastReceive room es) :
    (exec (step room) s es).port.txRunning = false := by
  have hset : ∀ s e, True → e = .changeDirection .receive → (step room s e).1.port.txRunning = false :=
    fun s e _ he => (receiving_step s e).mpr (Or.inl he)
  have hkeep : ∀ s e, True → s.port.txRunning = false → ¬ e = .changeDirection .send →
      (step room s e).1.port.txRunning = false :=
    fun s e _ hs he => (receiving_step s e).mpr (Or.inr ⟨hs, he⟩)
  exact exec_of_settled (I := fun s : RingPort => s.port.txRunning = false) (J := fun _ => True)
    (fun _ _ _ => trivial) hset hkeep trivial False.elim h

end RingPort

/-- A port whose last direction is RECEIVE hears exactly when every byte that came in while it
was sending has found room in the ring buffer. -/
theorem RingPort.hears_iff (room : ℕ) (dmx : CArray.Bytes) (baud : ℕ) (es : List Event)
    (hrun : Along (step room) Enabled (installed dmx baud) es)
    (hdir : (installed dmx baud).LastReceive room es) :
    (exec (step room) (installed dmx baud) es).port.Hears ↔
      Along (step room) (FindsRoom room) (installed dmx baud) es := by
  let s := exec (step room) (installed dmx baud) es
  have hopen : s.Open ↔ (installed dmx baud).Open ∧
      Along (step room) (FindsRoom room) (installed dmx baud) es := exec_iff_along open_step hrun
  have hreceiving : s.port.txRunning = false := receiving_of_lastReceive _ es hdir
  calc s.port.Hears
      ↔ s.Open := by
        constructor
        · exact fun hears => ⟨hears.enabled, hears.empty⟩
        · intro h
          refine ⟨h.1, h.2, fun byte queued => ?_⟩
          exact Port.handleRxfifo_receive s.port byte queued h.2 hreceiving
    _ ↔ Along (step room) (FindsRoom room) (installed dmx baud) es :=
        hopen.trans (and_iff_right (open_installed dmx baud))

namespace RingPort

/-- The size that `uart_dmx_init` asks for. -/
def DMX_RX_BUFFER : ℕ := DMX_MAX_SLOTS * 2

/-- A byte of the own frame comes back, and the port is turned. -/
def echoRun : List Event := [.changeDirection .send, .rxByte 0 true, .changeDirection .receive]

theorem hears_iff_echo :
    (exec (step DMX_RX_BUFFER) (installed (fun _ => 0) 9600) echoRun).port.Hears := by
  have hdir : (installed (fun _ => 0) 9600).LastReceive DMX_RX_BUFFER echoRun := by
    simp [LastReceive, Settled, echoRun]
  have hroom : Along (step DMX_RX_BUFFER) (FindsRoom DMX_RX_BUFFER) (installed (fun _ => 0) 9600) echoRun :=
    ⟨trivial, fun _ => by decide, trivial, trivial⟩
  exact (hears_iff DMX_RX_BUFFER (fun _ => 0) 9600 echoRun (by decide) hdir).mpr hroom

/-- While the port sends, what it hears goes into the ring buffer byte by byte. -/
theorem fill (n : ℕ) (s : RingPort) (hopen : s.Open) (hrun : s.port.txRunning = true)
    (hroom : s.stored + n ≤ room) :
    Along (step room) Enabled s (List.replicate n (.rxByte 0 true)) ∧
      exec (step room) s (List.replicate n (.rxByte 0 true)) = ⟨s.port, s.stored + n⟩ := by
  induction n generalizing s with
  | zero => exact ⟨trivial, rfl⟩
  | succ n ih =>
    have hfits : s.stored < room := by omega
    have hport : (s.port.handleRxfifo 0 true).1 = s.port := by
      rw [Port.handleRxfifo, if_neg (by rw [hopen.2]; decide), if_pos hrun]
      rfl
    have hnext : (s.step room (.rxByte 0 true)).1 = ⟨s.port, s.stored + 1⟩ := by
      simp only [step, answer, queues, hfits, hopen.2, hrun, decide_true, Bool.not_false, Bool.and_self,
        if_true]
      exact congrArg (RingPort.mk · (s.stored + 1)) hport
    obtain ⟨halong, hexec⟩ := ih ⟨s.port, s.stored + 1⟩ hopen hrun (by
      change s.stored + 1 + n ≤ room
      omega)
    rw [List.replicate_succ, along_cons, exec_cons, hnext]
    refine ⟨⟨hopen.1, halong⟩, ?_⟩
    rw [hexec, Nat.add_assoc, Nat.add_comm 1 n]

/-- More bytes than there is room for come in between two turns of the port. -/
def overflowRun (n : ℕ) : List Event :=
  [.changeDirection .send] ++ List.replicate n (.rxByte 0 true) ++
    [.rxByte 0 true, .changeDirection .receive]

theorem overflow (room : ℕ) (dmx : CArray.Bytes) (baud : ℕ) :
    Along (step room) Enabled (installed dmx baud) (overflowRun room) ∧
      (installed dmx baud).LastReceive room (overflowRun room) ∧
      ¬ (exec (step room) (installed dmx baud) (overflowRun room)).port.Hears := by
  let s := (step room (installed dmx baud) (.changeDirection .send)).1
  have hfits : s.stored + room ≤ room := le_of_eq (Nat.zero_add room)
  obtain ⟨halong, hexec⟩ := fill room s ⟨rfl, rfl⟩ rfl hfits
  have hfull : ¬ s.stored + room < room := by
    rw [Nat.not_lt]
    exact Nat.le_add_left room s.stored
  refine ⟨?_, ?_, fun hears => ?_⟩
  · unfold overflowRun
    rw [along_append, along_append, exec_append]
    refine ⟨⟨⟨trivial, trivial⟩, halong⟩, ?_⟩
    change Along (step room) Enabled (exec (step room) s _) _
    rw [hexec]
    exact ⟨rfl, trivial, trivial⟩
  · unfold LastReceive overflowRun
    rw [settled_append]
    simp [Settled]
  · unfold overflowRun at hears
    rw [exec_append, exec_append] at hears
    change (exec (step room) (exec (step room) s _) _).port.Hears at hears
    rw [hexec] at hears
    let s₁ : RingPort := ⟨s.port, s.stored + room⟩
    let s₂ : RingPort := (step room s₁ (.rxByte 0 true)).1
    have hturned : (step room s₂ (.changeDirection .receive)).1.Open := ⟨hears.enabled, hears.empty⟩
    have hlast : s₂.Open := ((open_step s₂ (.changeDirection .receive) trivial).mp hturned).1
    -- the last byte has not found room
    exact hfull (((open_step s₁ (.rxByte 0 true) rfl).mp hlast).2 rfl)

/-- No size of the ring buffer is enough: it is filled while the port sends, and a byte
more comes in. -/
theorem hears_fails : ¬ ∃ room : ℕ, ∀ (dmx : CArray.Bytes) (baud : ℕ) (es : List Event),
    Along (step room) Enabled (installed dmx baud) es →
      (installed dmx baud).LastReceive room es →
        (exec (step room) (installed dmx baud) es).port.Hears := by
  rintro ⟨room, hall⟩
  obtain ⟨hrun, hdir, hdeaf⟩ := overflow room (fun _ => 0) 9600
  exact hdeaf (hall (fun _ => 0) 9600 (overflowRun room) hrun hdir)

end RingPort

end BlizzardBridge
