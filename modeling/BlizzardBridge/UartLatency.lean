import BlizzardBridge.UartReceive

/-! The receiver with its FIFO and its break flag. The handler serves the flag before
the FIFO, one event for each turn, so a break overtakes the bytes that were queued
before it. Whether a schedule matters is decided by what a break finds queued. -/
namespace BlizzardBridge
open CArray EventMachine

/-- A port with the receive FIFO and the raw break status of its UART. -/
structure Receiver where
  port : Port
  fifo : List UInt8
  brkDet : Bool

/-- Something arrives on the wire, or the handler's loop takes a turn. -/
inductive LineEvent where
  | arrive (w : Wire)
  | turn
  deriving DecidableEq, Repr

namespace Receiver

def step (r : Receiver) : LineEvent → Receiver × List Effect
  | .arrive (.byte b) => ({ r with fifo := r.fifo ++ [b] }, [])
  | .arrive .brk => ({ r with fifo := r.fifo ++ [0], brkDet := true }, [])
  | .turn =>
    -- the branch of the break comes before that of the FIFO
    if r.brkDet then ({ r with port := r.port.handleBrkDet, brkDet := false }, [])
    else match r.fifo with
      | [] => (r, [])
      | b :: bs =>
        let out := r.port.handleRxfifo b true
        ({ r with port := out.1, fifo := bs }, out.2)

/-- The FIFO does not overflow, and a break comes only after the last one was served. -/
def Admissible (r : Receiver) : LineEvent → Prop
  | .arrive .brk => r.fifo.length < UART_FIFO_LEN ∧ r.brkDet = false
  | .arrive (.byte _) => r.fifo.length < UART_FIFO_LEN
  | .turn => True

instance decidableAdmissible (r : Receiver) : ∀ e, Decidable (r.Admissible e)
  | .arrive .brk => inferInstanceAs (Decidable (r.fifo.length < UART_FIFO_LEN ∧ r.brkDet = false))
  | .arrive (.byte _) => inferInstanceAs (Decidable (r.fifo.length < UART_FIFO_LEN))
  | .turn => instDecidableTrue

/-- A break finds every byte before it served. -/
def BreakAtEmpty (r : Receiver) : LineEvent → Prop
  | .arrive .brk => r.fifo = []
  | _ => True

def Served (r : Receiver) : Prop := r.fifo = [] ∧ r.brkDet = false

def start (p : Port) : Receiver := ⟨p, [], false⟩

def pending (r : Receiver) : List Event :=
  (if r.brkDet then [.brkDet] else []) ++ r.fifo.map fun b => .rxByte b true

end Receiver

def Wire.atOnce : Wire → List Event
  | .brk => [.brkDet, .rxByte 0 true]
  | .byte b => [.rxByte b true]

def LineEvent.atOnce : LineEvent → List Event
  | .arrive w => w.atOnce
  | .turn => []

def Port.atOnce (p : Port) (es : List LineEvent) : Port :=
  exec Port.step p (es.flatMap LineEvent.atOnce)

def Port.view (p : Port) : Bytes × DmxState × ℕ := (p.dmxData, p.dmxState, p.currentSlot)

namespace Receiver

theorem pending_of_served (r : Receiver) (h : r.Served) : r.pending = [] := by
  simp only [pending, h.1, h.2, Bool.false_eq_true, if_false, List.map_nil, List.append_nil]

theorem exec_pending_turn (r : Receiver) :
    exec Port.step (r.step .turn).1.port (r.step .turn).1.pending =
      exec Port.step r.port r.pending := by
  obtain ⟨p, fifo, brkDet⟩ := r
  cases brkDet with
  | true => rfl
  | false => cases fifo <;> rfl

/-- An arrival is queued behind what is pending, unless it is a break behind bytes. -/
theorem pending_arrive (r : Receiver) (w : Wire) (ha : r.Admissible (.arrive w))
    (hb : r.BreakAtEmpty (.arrive w)) :
    (r.step (.arrive w)).1.pending = r.pending ++ w.atOnce := by
  cases w with
  | byte b =>
    simp only [step, pending, List.map_append, List.append_assoc]
    rfl
  | brk =>
    have hp : r.pending = [] := pending_of_served r ⟨hb, ha.2⟩
    have hfifo : r.fifo = [] := hb
    rw [hp]
    simp only [step, pending, hfifo, if_true]
    rfl

theorem exec_pending_step (r : Receiver) (e : LineEvent) (ha : r.Admissible e)
    (hb : r.BreakAtEmpty e) :
    exec Port.step (r.step e).1.port (r.step e).1.pending =
      exec Port.step r.port (r.pending ++ e.atOnce) := by
  cases e with
  | turn => rw [exec_pending_turn, LineEvent.atOnce, List.append_nil]
  | arrive w =>
    have hport : (r.step (.arrive w)).1.port = r.port := by cases w <;> rfl
    rw [pending_arrive r w ha hb, hport]
    rfl

/-- Serving what is pending at the end gives what serving at once gives. -/
theorem exec_pending (es : List LineEvent) (r : Receiver) (ha : Along step Admissible r es)
    (hb : Along step BreakAtEmpty r es) :
    exec Port.step (exec step r es).port (exec step r es).pending =
      exec Port.step r.port (r.pending ++ es.flatMap LineEvent.atOnce) := by
  -- what is pending, served at once after the run, makes up for its delay
  induction es generalizing r with
  | nil => rw [exec_nil, List.flatMap_nil, List.append_nil]
  | cons e es ih =>
    calc
      _ = exec Port.step (r.step e).1.port
            ((r.step e).1.pending ++ es.flatMap LineEvent.atOnce) := ih _ ha.2 hb.2
      _ = exec Port.step r.port (r.pending ++ e.atOnce ++ es.flatMap LineEvent.atOnce) := by
        rw [exec_append, exec_pending_step r e ha.1 hb.1, ← exec_append]
      _ = _ := by rw [List.flatMap_cons, List.append_assoc]

theorem exec_pending_turns (n : ℕ) (r : Receiver) :
    exec Port.step (exec step r (List.replicate n .turn)).port
        (exec step r (List.replicate n .turn)).pending =
      exec Port.step r.port r.pending := by
  induction n generalizing r with
  | zero => rfl
  | succ n ih => rw [List.replicate_succ, exec_cons, ih, exec_pending_turn]

theorem listening_step (r : Receiver) (e : LineEvent) (hr : r.port.Listening) :
    (r.step e).1.port.Listening := by
  cases e with
  | arrive w => cases w <;> exact hr
  | turn =>
    obtain ⟨p, fifo, brkDet⟩ := r
    cases brkDet with
    | true => exact Port.listening_step p hr .brk
    | false =>
      cases fifo with
      | nil => exact hr
      | cons b bs => exact Port.listening_step p hr (.byte b)

theorem listening_atOnce (es : List LineEvent) (p : Port) (hp : p.Listening) :
    (p.atOnce es).Listening := by
  induction es generalizing p with
  | nil => exact hp
  | cons e es ih =>
    have hcons : p.atOnce (e :: es) = (exec Port.step p e.atOnce).atOnce es := by
      rw [Port.atOnce, List.flatMap_cons, exec_append]
      rfl
    rw [hcons]
    apply ih
    rcases e with (_ | b) | _
    · exact Port.listening_step _ (Port.listening_step p hp .brk) (.byte 0)
    · exact Port.listening_step p hp (.byte b)
    · exact hp

/-- A byte leads to IDLE or to a slot behind the first: only a break leads back to
the beginning of a frame. -/
theorem past_receiveByte (p : Port) (hp : p.Listening)
    (h : p.dmxState = .idle ∨ p.dmxState = .data) (b : UInt8) :
    (p.receiveByte b).1.dmxState = .idle ∨
      (p.receiveByte b).1.dmxState = .data ∧ 1 ≤ (p.receiveByte b).1.currentSlot := by
  rcases h with h | h
  · rw [Port.receiveByte_idle p b h]
    exact Or.inl h
  -- in DATA: a wrong start byte, an inner slot, or the last one
  · by_cases hc : p.currentSlot = 0 ∧ b ≠ 0
    · rw [Port.receiveByte_data_code p b h hc.1 hc.2]
      exact Or.inl rfl
    · have hb : p.currentSlot = 0 → b = 0 := fun h0 => by
        by_contra hb
        exact hc ⟨h0, hb⟩
      have hlt := hp.slot h
      have hmod : (p.currentSlot + 1) % 65536 = p.currentSlot + 1 := by
        unfold DMX_MAX_SLOTS at hlt
        omega
      rw [Port.receiveByte_data_store p b h hb, hmod]
      by_cases hlast : DMX_MAX_SLOTS ≤ p.currentSlot + 1
      · exact Or.inl (if_pos hlast)
      · exact Or.inr ⟨if_neg hlast, Nat.succ_pos _⟩

theorem past_bytes (bs : List UInt8) (b : UInt8) (p : Port) (hp : p.Listening)
    (h : p.dmxState = .idle ∨ p.dmxState = .data) :
    let q := exec Port.step p ((b :: bs).map fun b => .rxByte b true)
    q.dmxState = .idle ∨ q.dmxState = .data ∧ 1 ≤ q.currentSlot := by
  induction bs generalizing b p with
  | nil =>
    have hpast := past_receiveByte p hp h b
    rwa [← Port.step_byte p hp b] at hpast
  | cons b' bs ih =>
    rw [List.map_cons, exec_cons]
    apply ih b' _ (Port.listening_step p hp (.byte b))
    have hpast := past_receiveByte p hp h b
    rw [← Port.step_byte p hp b] at hpast
    exact hpast.imp id And.left

/-- A break served before bytes that were queued earlier does not begin a frame. -/
theorem overtaken_not_begun (p : Port) (hp : p.Listening) (b : UInt8) (bs : List UInt8) :
    let q := exec Port.step p (.brkDet :: (b :: (bs ++ [0])).map fun b => .rxByte b true)
    ¬ (q.dmxState = .data ∧ q.currentSlot = 0) := by
  intro q hq
  have hbrk : (p.step .brkDet).1 = _ := Port.handleBrkDet_receive p hp.running
  have hlisten : (p.step .brkDet).1.Listening := Port.listening_step p hp .brk
  have hfirst : ((p.step .brkDet).1.receiveByte b).1.dmxState = .idle ∨
      ((p.step .brkDet).1.receiveByte b).1.dmxState = .data := by
    rw [Port.receiveByte_brk _ b (by rw [hbrk])]
    by_cases hb : b = 0
    · exact Or.inr (by rw [if_pos hb])
    · exact Or.inl (by rw [if_neg hb])
  rw [← Port.step_byte _ hlisten b] at hfirst
  -- after the overtaken byte the zero of the break is still to come
  obtain ⟨b', bs', hbs⟩ : ∃ b' bs', bs ++ [0] = b' :: bs' := by
    cases bs with
    | nil => exact ⟨0, [], rfl⟩
    | cons b' bs => exact ⟨b', bs ++ [0], rfl⟩
  have hpast := past_bytes bs' b' _ (Port.listening_step _ hlisten (.byte b)) hfirst
  rw [← hbs] at hpast
  rcases hpast with hidle | ⟨_, hslot⟩
  · exact absurd (hidle.symm.trans hq.1) (by decide)
  · exact absurd (hq.2 ▸ hslot) (by decide)

theorem atOnce_break_begun (p : Port) (hp : p.Listening) :
    (exec Port.step p (Wire.atOnce .brk)).dmxState = .data ∧
      (exec Port.step p (Wire.atOnce .brk)).currentSlot = 0 := by
  have hbrk : (p.step .brkDet).1 = _ := Port.handleBrkDet_receive p hp.running
  have hlisten := Port.listening_step p hp .brk
  have hzero : exec Port.step p (Wire.atOnce .brk) = ((p.step .brkDet).1.receiveByte 0).1 :=
    congrArg Prod.fst (Port.step_byte _ hlisten 0)
  rw [hzero, Port.receiveByte_brk _ 0 (by rw [hbrk])]
  exact ⟨rfl, rfl⟩

theorem atOnce_late (p : Port) (es : List LineEvent) (n : ℕ) :
    p.atOnce (es ++ .arrive .brk :: List.replicate n .turn) =
      exec Port.step (p.atOnce es) (Wire.atOnce .brk) := by
  have hturns : (List.replicate n LineEvent.turn).flatMap LineEvent.atOnce = [] := by
    induction n with
    | zero => rfl
    | succ n ih => rw [List.replicate_succ, List.flatMap_cons, ih]; rfl
  rw [Port.atOnce, List.flatMap_append, List.flatMap_cons, hturns, List.append_nil, exec_append]
  rfl

/-- A break that finds bytes queued, and nothing but turns behind it. -/
theorem overtaking_differs (p q : Port) (r : Receiver) (n : ℕ) (hq : q.Listening)
    (hr : r.port.Listening) (hfifo : r.fifo ≠ [])
    (hdone : (exec step r (.arrive .brk :: List.replicate n .turn)).Served)
    (hp : p = exec Port.step q (Wire.atOnce .brk)) :
    (exec step r (.arrive .brk :: List.replicate n .turn)).port.view ≠ p.view := by
  intro hview
  have hstate : _ = p.dmxState := congrArg (fun v => v.2.1) hview
  have hslot : _ = p.currentSlot := congrArg (fun v => v.2.2) hview
  obtain ⟨b, bs, hbs⟩ := List.exists_cons_of_ne_nil hfifo
  have hturns := exec_pending_turns n (r.step (.arrive .brk)).1
  rw [← exec_cons, pending_of_served _ hdone, exec_nil] at hturns
  have hpending : (r.step (.arrive .brk)).1.pending =
      .brkDet :: (b :: (bs ++ [0])).map fun b => .rxByte b true := by
    simp only [step, pending, if_true, hbs]
    rfl
  have hlate := overtaken_not_begun r.port hr b bs
  have hbegun := atOnce_break_begun q hq
  rw [← hp, ← hstate, ← hslot] at hbegun
  rw [hpending] at hturns
  -- served at once the break begins a frame, served late it does not
  apply hlate
  rw [hturns] at hbegun
  exact hbegun

/-- While every break finds the bytes before it served, no schedule can be told from
immediate service; the first break that finds a byte queued leads to another state. -/
theorem schedule_irrelevant (p : Port) (ht : p.txRunning = false) (hf : p.rxBufferFullFlg = false)
    (es : List LineEvent) (ha : Along step Admissible (start p) es)
    (hb : Along step BreakAtEmpty (start p) es) :
    ((exec step (start p) es).Served →
        (exec step (start p) es).port.view = (p.atOnce es).view) ∧
      ∀ n, (p.dmxState = .data → p.currentSlot < DMX_MAX_SLOTS) →
        (exec step (start p) es).fifo ≠ [] →
        (exec step (start p) (es ++ .arrive .brk :: List.replicate n .turn)).Served →
          (exec step (start p) (es ++ .arrive .brk :: List.replicate n .turn)).port.view ≠
            (p.atOnce (es ++ .arrive .brk :: List.replicate n .turn)).view := by
  constructor
  · intro hdone
    have hexec := exec_pending es (start p) ha hb
    rw [pending_of_served _ hdone] at hexec
    exact congrArg Port.view hexec
  · intro n hs hfifo hdone
    have hp : p.Listening := ⟨ht, hf, hs⟩
    have hr : (exec step (start p) es).port.Listening :=
      exec_invariant (I := fun r => r.port.Listening)
        (fun r e hr _ => listening_step r e hr) hp ha
    rw [exec_append] at hdone ⊢
    exact overtaking_differs _ _ _ n (listening_atOnce es p hp) hr hfifo hdone (atOnce_late p es n)

theorem schedule_irrelevant_late :
    (exec step (start (Port.installed (fun _ => 9) 9600))
        [.arrive .brk, .turn, .arrive (.byte 0), .turn, .turn]).port.view =
      ((Port.installed (fun _ => 9) 9600).atOnce
        [.arrive .brk, .turn, .arrive (.byte 0), .turn, .turn]).view :=
  (schedule_irrelevant (Port.installed (fun _ => 9) 9600) rfl rfl
    [.arrive .brk, .turn, .arrive (.byte 0), .turn, .turn]
    (by decide) ⟨rfl, trivial, trivial, trivial, trivial, trivial⟩).1 ⟨rfl, rfl⟩

/-- A byte is still queued when the break comes: the break is served first, the byte
ends the frame that the break has announced, and its zero is dropped. -/
theorem break_overtakes_byte :
    ¬ ∀ (p : Port) (es : List LineEvent), p.txRunning = false → p.rxBufferFullFlg = false →
      Along step Admissible (start p) es → (exec step (start p) es).Served →
        (exec step (start p) es).port.view = (p.atOnce es).view := by
  intro hall
  let es : List LineEvent := [.arrive (.byte 5), .arrive .brk, .turn, .turn, .turn]
  have ha : Along step Admissible (start (Port.installed (fun _ => 9) 9600)) es := by decide
  have hview := hall _ es rfl rfl ha ⟨rfl, rfl⟩
  have hstate : DmxState.idle = DmxState.data := congrArg (fun v => v.2.1) hview
  exact absurd hstate (by decide)

end Receiver

end BlizzardBridge
