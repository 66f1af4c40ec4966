import BlizzardBridge.UartHandler

/-! The receiver against a reference decoder. The decoder cuts what arrives at the
breaks and looks at whole segments; the receiver keeps a state and a slot counter.
They are compared through what the port makes of the bytes that the segment in
progress still has to come. -/
namespace BlizzardBridge
open CArray EventMachine

/-- What the receiver sees of the wire. -/
inductive Wire where
  | brk
  | byte (b : UInt8)
  deriving DecidableEq, Repr

def leading : List Wire → List UInt8
  | [] => []
  | .brk :: _ => []
  | .byte b :: ws => b :: leading ws

def segments : List Wire → List (List UInt8)
  | [] => []
  | .brk :: ws => leading ws :: segments ws
  | .byte _ :: ws => segments ws

/-- A segment is stored from its second byte on when its first two bytes are zero. -/
def storeSegment (dmx : Bytes) : List UInt8 → Bytes
  | b0 :: b1 :: bs =>
    if b0 = 0 ∧ b1 = 0 then store dmx 0 ((b1 :: bs).take DMX_MAX_SLOTS) else dmx
  | _ => dmx

def decode (dmx : Bytes) (ws : List Wire) : Bytes := (segments ws).foldl storeSegment dmx

theorem storeSegment_code (dmx : Bytes) (b : UInt8) (bs : List UInt8) (h : b ≠ 0) :
    storeSegment dmx (b :: bs) = dmx := by
  cases bs with
  | nil => rfl
  | cons b1 bs => rw [storeSegment, if_neg fun hc => h hc.1]

theorem storeSegment_zero (dmx : Bytes) (bs : List UInt8) :
    storeSegment dmx (0 :: bs) =
      if bs.head? = some 0 then store dmx 0 (bs.take DMX_MAX_SLOTS) else dmx := by
  cases bs with
  | nil => rfl
  | cons b1 bs => simp only [storeSegment, true_and, List.head?_cons, Option.some.injEq]

namespace Port

def serve : Wire → Event
  | .brk => .brkDet
  | .byte b => .rxByte b true

/-- A port in receive mode whose driver takes the bytes. -/
structure Listening (p : Port) : Prop where
  running : p.txRunning = false
  taking : p.rxBufferFullFlg = false
  slot : p.dmxState = .data → p.currentSlot < DMX_MAX_SLOTS

def finish (p : Port) (bs : List UInt8) : Bytes :=
  match p.dmxState with
  | .brk => storeSegment p.dmxData bs
  | .data =>
    if p.currentSlot = 0 ∧ bs.head? ≠ some 0 then p.dmxData
    else store p.dmxData p.currentSlot (bs.take (DMX_MAX_SLOTS - p.currentSlot))
  | _ => p.dmxData

theorem finish_nil (p : Port) : p.finish [] = p.dmxData := by
  cases h : p.dmxState <;> simp only [finish, h, storeSegment, List.take_nil, store_nil, ite_self]

/-- Taking the next byte of the segment into the port changes nothing in the end. -/
theorem finish_receiveByte (p : Port) (hp : p.Listening) (b : UInt8) (bs : List UInt8) :
    (p.receiveByte b).1.finish bs = p.finish (b :: bs) := by
  cases h : p.dmxState with
  | brk =>
    rw [receiveByte_brk p b h]
    by_cases hb : b = 0
    · subst hb
      have hzero := storeSegment_zero p.dmxData bs
      simp only [finish, h, if_true, hzero, true_and, ne_eq, ite_not, Nat.sub_zero]
    · have hcode := storeSegment_code p.dmxData b bs hb
      simp only [finish, h, hb, if_false, hcode]
  | data =>
    have hlt := hp.slot h
    -- the start byte must be zero, else the rest of the segment is dropped
    by_cases hc : p.currentSlot = 0 ∧ b ≠ 0
    · rw [receiveByte_data_code p b h hc.1 hc.2]
      simp only [finish, h, List.head?_cons, ne_eq, Option.some.injEq, hc, not_false_eq_true,
        and_self, if_true]
    · have hb : p.currentSlot = 0 → b = 0 := fun h0 => by
        by_contra hb
        exact hc ⟨h0, hb⟩
      have hmod : (p.currentSlot + 1) % 65536 = p.currentSlot + 1 := by
        unfold DMX_MAX_SLOTS at hlt
        omega
      have htake : (b :: bs).take (DMX_MAX_SLOTS - p.currentSlot) =
          b :: bs.take (DMX_MAX_SLOTS - (p.currentSlot + 1)) := by
        rw [← List.take_succ_cons]
        congr 1
        omega
      have hold : p.finish (b :: bs) = store (Function.update p.dmxData p.currentSlot b)
          (p.currentSlot + 1) (bs.take (DMX_MAX_SLOTS - (p.currentSlot + 1))) := by
        have hn : ¬ (p.currentSlot = 0 ∧ (b :: bs).head? ≠ some 0) := by simpa using hb
        rw [← store_cons, ← htake]
        simp only [finish, h, hn, if_false]
      rw [receiveByte_data_store p b h hb, hmod, hold]
      by_cases hlast : DMX_MAX_SLOTS ≤ p.currentSlot + 1
      · -- the last slot is full: what follows in the segment is dropped
        have hnone : DMX_MAX_SLOTS - (p.currentSlot + 1) = 0 := by omega
        simp only [finish, hlast, if_true, hnone, List.take_zero, store_nil]
      · simp only [finish, hlast, if_false, Nat.succ_ne_zero, false_and]
  | rdm =>
    -- RDM bytes go to a packet of their own
    simp only [receiveByte, h]
    split_ifs <;> simp only [finish, h]
  | _ => simp only [receiveByte, h, finish]

theorem finish_brkDet (p : Port) (hp : p.Listening) (bs : List UInt8) :
    p.handleBrkDet.finish bs = storeSegment p.dmxData bs := by
  rw [handleBrkDet_receive p hp.running]
  rfl

theorem step_byte (p : Port) (hp : p.Listening) (b : UInt8) :
    p.step (serve (.byte b)) = p.receiveByte b :=
  handleRxfifo_receive p b true hp.taking hp.running

theorem listening_step (p : Port) (hp : p.Listening) (w : Wire) :
    (p.step (serve w)).1.Listening := by
  cases w with
  | brk =>
    change p.handleBrkDet.Listening
    rw [handleBrkDet_receive p hp.running]
    exact ⟨hp.running, hp.taking, nofun⟩
  | byte b =>
    rw [step_byte p hp b]
    refine ⟨?_, ?_, receiveByte_slot_lt p b⟩
    · rw [(receiveByte_sameRole _ _).txRunning, hp.running]
    · rw [receiveByte_dev, hp.taking]

/-- From any point of a segment on the receiver does what the decoder does. -/
theorem receive_run (ws : List Wire) (p : Port) (hp : p.Listening) :
    (exec step p (ws.map serve)).dmxData =
      (segments ws).foldl storeSegment (p.finish (leading ws)) := by
  -- the segment at hand is finished by the bytes up to the next break
  induction ws generalizing p with
  | nil => exact (finish_nil p).symm
  | cons w ws ih =>
    rw [List.map_cons, exec_cons, ih _ (listening_step p hp w)]
    cases w with
    | brk =>
      have hbrk : (p.step (serve .brk)).1.finish (leading ws) = _ := finish_brkDet p hp (leading ws)
      rw [hbrk, leading, finish_nil, segments, List.foldl_cons]
    | byte b => rw [step_byte p hp b, finish_receiveByte p hp, leading, segments]

/-- A receiver that starts in IDLE leaves in the buffer what the decoder does. -/
theorem receive_eq_decode (ws : List Wire) (p : Port) (ht : p.txRunning = false)
    (hf : p.rxBufferFullFlg = false) (hidle : p.dmxState = .idle) :
    (exec step p (ws.map serve)).dmxData = decode p.dmxData ws := by
  have hp : p.Listening := ⟨ht, hf, fun hd => by rw [hidle] at hd; cases hd⟩
  have hfinish : p.finish (leading ws) = p.dmxData := by simp only [finish, hidle]
  rw [receive_run ws p hp, hfinish, decode]

theorem receive_eq_decode_frame :
    (exec step (installed (fun _ => 9) 9600)
        ([.byte 5, .brk, .byte 0, .byte 0, .byte 7, .brk, .byte 1].map serve)).dmxData =
      decode (fun _ => 9) [.byte 5, .brk, .byte 0, .byte 0, .byte 7, .brk, .byte 1] :=
  receive_eq_decode _ (installed (fun _ => 9) 9600) rfl rfl rfl

end Port

end BlizzardBridge
