import BlizzardBridge.UartFrame
import BlizzardBridge.UartIndex
import BlizzardBridge.UartReceive

/-! The bytes of one frame on their way from a sending port to a receiving one. The
sender counts its slots from 1 on behind a start byte of its own; for the receiver
the start byte is slot 0. -/
namespace BlizzardBridge
open CArray EventMachine

namespace Port

/-- What a sender may see in the middle of a frame: no TX done, no direction call, no
change of the buffer. A port that is not sending would take received bytes for itself. -/
def InFrame (p : Port) : Event → Prop
  | .txfifoEmpty => p.enaTxfifoEmpty = true
  | .shiftOut => 0 < p.txPending
  | .brkDet => p.enaBrkDet = true ∧ p.txRunning = true
  | .rxByte _ _ => p.enaRxfifoFull = true ∧ p.txRunning = true
  | .setBuffer dmx => dmx = p.dmxData
  | _ => False

/-- The sender has written its last slot and waits for TX done. -/
def AsksTxDone (p : Port) : Prop := p.dmxState = .data ∧ DMX_MAX_SLOTS ≤ p.currentSlot

/-- The first `n` slots behind the start byte. -/
def slotBytes (dmx : Bytes) (n : ℕ) : List UInt8 := take (fun i => dmx (i + 1)) n

def sentBytes (ts : List (Port × Effect)) : List UInt8 := (writes ts).map fun w => w.2.1

theorem slotBytes_succ (dmx : Bytes) (n : ℕ) :
    slotBytes dmx (n + 1) = slotBytes dmx n ++ [dmx (n + 1)] := by
  rw [slotBytes, take, List.range_succ, List.map_append]
  rfl

theorem sentBytes_append (ts : List (Port × Effect)) (p : Port) (os : List Effect) :
    sentBytes (ts ++ os.map (Prod.mk p)) = sentBytes ts ++ (os.filterMap Effect.written).map Prod.fst := by
  rw [sentBytes, writes_append, writes_map, List.map_append, List.map_map]
  rfl

theorem startByte_step (p : Port) (e : Event) : (p.step e).1.startByte = p.startByte := by
  by_cases hdir : ∃ dir, e = .changeDirection dir
  · obtain ⟨dir, rfl⟩ := hdir
    cases dir <;> rfl
  · exact (step_sameRole p e (not_exists.mp hdir)).startByte

/-- Nothing ever writes the start byte, which the driver declares as zero. -/
theorem startByte_installed (dmx : Bytes) (baud : ℕ) (es : List Event) :
    (exec step (installed dmx baud) es).startByte = 0 := by
  have hstep (p : Port) (e : Event) (h : p.startByte = 0) (_ : True) : (p.step e).1.startByte = 0 :=
    (startByte_step p e).trans h
  exact exec_invariant (I := fun p : Port => p.startByte = 0) hstep rfl
    (along_of_forall (C := fun _ _ => True) (fun _ _ => trivial) _ es)

/-- What has been written of the frame, at a sender that holds the buffer `dmx`. -/
inductive Progress (dmx : Bytes) (p : Port) : List UInt8 → Prop
  | start (state : p.dmxState = .start) : Progress dmx p []
  | slots (n : ℕ) (state : p.dmxState = .data) (slot : p.currentSlot = n + 1) (last : n ≤ 512)
      (off : n = 512 → p.enaTxfifoEmpty = false) : Progress dmx p (0 :: slotBytes dmx n)

structure LineInv (dmx : Bytes) (p : Port) (ts : List (Port × Effect)) : Prop where
  buffer : p.dmxData = dmx
  code : p.startByte = 0
  progress : Progress dmx p (sentBytes ts)

section sender
variable {dmx : Bytes} {p q : Port} {ts : List (Port × Effect)} {os : List Effect}

/-- An event that writes no byte and leaves the place in the frame. -/
theorem LineInv.congr (h : LineInv dmx p ts) (hout : os.filterMap Effect.written = [])
    (hbuffer : q.dmxData = p.dmxData) (hcode : q.startByte = p.startByte)
    (hstate : q.dmxState = p.dmxState) (hslot : q.currentSlot = p.currentSlot)
    (hempty : q.enaTxfifoEmpty = p.enaTxfifoEmpty) : LineInv dmx q (ts ++ os.map (Prod.mk p)) := by
  refine ⟨hbuffer.trans h.buffer, hcode.trans h.code, ?_⟩
  rw [sentBytes_append, hout, List.map_nil, List.append_nil]
  generalize hsent : sentBytes ts = bytes
  have hprogress := h.progress
  rw [hsent] at hprogress
  cases hprogress with
  | start state => exact .start (hstate.trans state)
  | slots n state slot last off =>
    exact .slots n (hstate.trans state) (hslot.trans slot) last fun hn => hempty.trans (off hn)

/-- The empty FIFO takes the start byte first, then one slot after the other. -/
theorem lineInv_txfifoEmpty (h : LineInv dmx p ts) (he : p.enaTxfifoEmpty = true) :
    LineInv dmx p.handleTxfifoEmpty.1 (ts ++ p.handleTxfifoEmpty.2.map (Prod.mk p)) := by
  have hprogress := h.progress
  generalize hsent : sentBytes ts = bytes at hprogress
  cases hprogress with
  | start state =>
    rw [handleTxfifoEmpty_start p state]
    refine ⟨h.buffer, h.code, ?_⟩
    rw [sentBytes_append, hsent, h.code]
    exact .slots 0 rfl rfl (Nat.zero_le _) nofun
  | slots n state slot last off =>
    have hn : n ≠ 512 := fun hn => absurd ((off hn).symm.trans he) (by decide)
    have hnext : 0 :: slotBytes dmx n ++ [p.dmxData p.currentSlot] = 0 :: slotBytes dmx (n + 1) := by
      rw [slotBytes_succ, slot, h.buffer]
      rfl
    by_cases hs : p.currentSlot + 1 < DMX_MAX_SLOTS
    · rw [handleTxfifoEmpty_next p state hs]
      refine ⟨h.buffer, h.code, ?_⟩
      have hlt : n + 1 ≠ 512 := by unfold DMX_MAX_SLOTS at hs; omega
      rw [sentBytes_append, hsent]
      change Progress dmx _ (0 :: slotBytes dmx n ++ [p.dmxData p.currentSlot])
      rw [hnext]
      exact .slots (n + 1) state (congrArg (· + 1) slot) (by omega) fun h512 => absurd h512 hlt
    · -- the last slot: the interrupt stays off
      have hlast : (p.currentSlot + 1) % 65536 = n + 1 + 1 := by omega
      have hge : DMX_MAX_SLOTS ≤ (p.currentSlot + 1) % 65536 := by unfold DMX_MAX_SLOTS at *; omega
      rw [handleTxfifoEmpty_last p state hge]
      refine ⟨h.buffer, h.code, ?_⟩
      rw [sentBytes_append, hsent]
      change Progress dmx _ (0 :: slotBytes dmx n ++ [p.dmxData p.currentSlot])
      rw [hnext]
      exact .slots (n + 1) state hlast (by omega) fun _ => rfl

theorem lineInv_step (p : Port) (ts : List (Port × Effect)) (e : Event) (h : LineInv dmx p ts)
    (he : p.InFrame e) : LineInv dmx (p.step e).1 (ts ++ (p.step e).2.map (Prod.mk p)) := by
  have hquiet : ([] : List Effect).filterMap Effect.written = [] := rfl
  cases e with
  | changeDirection dir => exact absurd he id
  | txfifoEmpty => exact lineInv_txfifoEmpty h he
  | txDone => exact absurd he id
  | brkDet =>
    have hstep : p.handleBrkDet = p := handleBrkDet_send p he.2
    change LineInv dmx p.handleBrkDet (ts ++ [].map (Prod.mk p))
    rw [hstep]
    exact h.congr rfl rfl rfl rfl rfl rfl
  | rxByte byte queued =>
    obtain ⟨hout, full, ena, tout, heq⟩ := handleRxfifo_default p byte queued (Or.inr he.2)
    change LineInv dmx (p.handleRxfifo byte queued).1 (ts ++ (p.handleRxfifo byte queued).2.map _)
    rw [heq]
    exact h.congr (congrArg (List.filterMap Effect.written) hout) rfl rfl rfl rfl rfl
  | shiftOut => exact h.congr hquiet rfl rfl rfl rfl rfl
  | setBuffer dmx' =>
    have hsame : dmx' = p.dmxData := he
    exact h.congr hquiet hsame rfl rfl rfl rfl

/-- From START until the port asks for TX done it writes a zero and the slots 1 to 512. -/
theorem sentBytes_frame (es : List Event) (hstart : p.dmxState = .start) (hcode : p.startByte = 0)
    (hrun : Along step InFrame p es) (hask : (exec step p es).AsksTxDone) :
    sentBytes (trace step p es) = 0 :: slotBytes p.dmxData 512 := by
  have hinit : LineInv p.dmxData p [] := ⟨rfl, hcode, .start hstart⟩
  have hline : LineInv p.dmxData (exec step p es) (trace step p es) :=
    exec_trace_invariant (J := LineInv p.dmxData) lineInv_step hinit hrun
  have hprogress := hline.progress
  generalize sentBytes (trace step p es) = bytes at hprogress
  cases hprogress with
  | start state => exact absurd (state.symm.trans hask.1) (by decide)
  | slots n state slot last off =>
    have hend : DMX_MAX_SLOTS ≤ n + 1 := slot ▸ hask.2
    have hn : n = 512 := by unfold DMX_MAX_SLOTS at hend; omega
    rw [hn]

end sender

section receiver
variable {q : Port}

/-- A receiver in DATA counts the bytes up to the last slot and rests then. -/
theorem receive_idle (bs : List UInt8) (hq : q.Listening) (hstate : q.dmxState = .data)
    (hslot : q.currentSlot + bs.length = DMX_MAX_SLOTS) (hpos : bs ≠ [])
    (hcode : q.currentSlot = 0 → bs.head? = some 0) :
    (exec step q (bs.map (serve ∘ Wire.byte))).dmxState = .idle := by
  induction bs generalizing q with
  | nil => exact absurd rfl hpos
  | cons b bs ih =>
    rw [List.length_cons] at hslot
    have hb : q.currentSlot = 0 → b = 0 := fun h0 => Option.some.inj (hcode h0)
    have hmod : (q.currentSlot + 1) % 65536 = q.currentSlot + 1 := by
      unfold DMX_MAX_SLOTS at hslot
      omega
    have hstep : q.step (serve (.byte b)) = _ :=
      (step_byte q hq b).trans (receiveByte_data_store q b hstate hb)
    have hnext : (q.step (serve (.byte b))).1.Listening := listening_step q hq (.byte b)
    rw [List.map_cons, Function.comp_apply, exec_cons]
    rw [hstep, hmod] at hnext ⊢
    by_cases hlast : bs = []
    · subst hlast
      have hfull : DMX_MAX_SLOTS ≤ q.currentSlot + 1 := by rw [← hslot]; rfl
      simp only [List.map_nil, exec_nil, hfull, if_true]
    · have hmore : ¬ DMX_MAX_SLOTS ≤ q.currentSlot + 1 := by
        have hlen := List.length_pos_of_ne_nil hlast
        omega
      simp only [hmore, if_false] at hnext ⊢
      apply ih hnext rfl _ hlast nofun
      change q.currentSlot + 1 + bs.length = _
      omega

theorem leading_bytes (bs : List UInt8) : leading (bs.map .byte) = bs := by
  induction bs with
  | nil => rfl
  | cons b bs ih => exact congrArg (b :: ·) ih

theorem segments_bytes (bs : List UInt8) : segments (bs.map .byte) = [] := by
  induction bs with
  | nil => rfl
  | cons b bs ih => exact ih

/-- Behind a break and its zero byte a frame fills the buffer, from any state. -/
theorem receive_frame (slots : List UInt8) (hlen : slots.length = 512) (hrun : q.txRunning = false)
    (hfull : q.rxBufferFullFlg = false) :
    (exec step q (.brkDet :: ((0 :: 0 :: slots).map .byte).map serve)).dmxState = .idle ∧
      (exec step q (.brkDet :: ((0 :: 0 :: slots).map .byte).map serve)).dmxData =
        store q.dmxData 0 (0 :: slots) := by
  let r : Port := { q with dmxState := .brk, currentSlot := 0 }
  have hbrk : (q.step .brkDet).1 = r := handleBrkDet_receive q hrun
  have hr : r.Listening := ⟨hrun, hfull, nofun⟩
  rw [exec_cons, hbrk]
  constructor
  · -- the zero byte of the break opens the frame
    let r' : Port := { r with incomingByte := 0, dmxState := .data, currentSlot := 0 }
    have hzero : (r.step (serve (.byte 0))).1 = r' := by
      rw [step_byte r hr 0, receiveByte_brk r 0 rfl]
      rfl
    have hr' : r'.Listening := ⟨hrun, hfull, fun _ => by change 0 < DMX_MAX_SLOTS; decide⟩
    rw [List.map_cons, List.map_cons, exec_cons, hzero, List.map_map]
    apply receive_idle _ hr' rfl
    · rw [List.length_cons, hlen]
      rfl
    · exact List.cons_ne_nil _ _
    · exact fun _ => rfl
  · have hfull : ((0 :: slots).take DMX_MAX_SLOTS) = 0 :: slots := by
      apply List.take_of_length_le
      rw [List.length_cons, hlen]
      exact le_rfl
    rw [receive_run _ r hr, leading_bytes, segments_bytes]
    change storeSegment q.dmxData (0 :: 0 :: slots) = _
    rw [storeSegment_zero, if_pos List.head?_cons, hfull]

end receiver

/-- A frame that one port sends while its buffer rests arrives whole at another, in
whatever state the other one is. -/
theorem frame_arrives (dmx : Bytes) (baud : ℕ) (history es : List Event) (q : Port)
    (hstart : (exec step (installed dmx baud) history).dmxState = .start)
    (hrun : Along step InFrame (exec step (installed dmx baud) history) es)
    (hask : (exec step (exec step (installed dmx baud) history) es).AsksTxDone)
    (hreceive : q.txRunning = false) (hfull : q.rxBufferFullFlg = false) :
    let p := exec step (installed dmx baud) history
    let r := exec step q
      (.brkDet :: ((0 :: sentBytes (trace step p es)).map .byte).map serve)
    r.dmxState = .idle ∧ (∀ k, 1 ≤ k → k ≤ 512 → r.dmxData k = p.dmxData k) ∧ r.dmxData 0 = 0 := by
  intro p r
  have hsent : sentBytes (trace step p es) = 0 :: slotBytes p.dmxData 512 :=
    sentBytes_frame es hstart (startByte_installed dmx baud history) hrun hask
  have hlen : (slotBytes p.dmxData 512).length = 512 := length_take _ _
  have hframe := receive_frame (q := q) (slotBytes p.dmxData 512) hlen hreceive hfull
  rw [← hsent] at hframe
  obtain ⟨hidle, hdata⟩ := hframe
  have hslots : r.dmxData = store q.dmxData 0 (0 :: slotBytes p.dmxData 512) :=
    hdata.trans (by rw [hsent])
  refine ⟨hidle, ?_, ?_⟩
  · intro k hk hlast
    obtain ⟨n, rfl⟩ : ∃ n, k = n + 1 := ⟨k - 1, by omega⟩
    have hin : n + 1 < (0 :: slotBytes p.dmxData 512).length := by rw [List.length_cons, hlen]; omega
    have hget : (slotBytes p.dmxData 512)[n]? = some (p.dmxData (n + 1)) :=
      getElem?_take _ (by omega)
    rw [List.getElem?_eq_getElem (by omega)] at hget
    calc r.dmxData (n + 1)
        = (0 :: slotBytes p.dmxData 512)[n + 1] := by rw [hslots, store_of_lt _ _ hin]
      _ = p.dmxData (n + 1) := by
        rw [List.getElem_cons_succ]
        exact Option.some.inj hget
  · rw [hslots, store_of_lt _ _ (by rw [List.length_cons]; omega)]
    rfl

theorem inFrame_of_mem_sendRounds {k : ℕ} {e : Event} (he : e ∈ sendRounds k) (p : Port)
    (h : p.Deliverable e) : p.InFrame e := by
  rcases mem_sendRounds he with rfl | rfl
  · exact h
  · exact h

theorem frame_arrives_tens :
    let p := exec step (installed (fun _ => 10) 9600) [.changeDirection .send]
    let r := exec step (installed (fun _ => 0) 9600)
      (.brkDet :: ((0 :: sentBytes (trace step p (.txfifoEmpty :: sendRounds 512))).map .byte).map serve)
    r.dmxState = .idle ∧ (∀ k, 1 ≤ k → k ≤ 512 → r.dmxData k = p.dmxData k) ∧ r.dmxData 0 = 0 := by
  let p := exec step (installed (fun _ => 10) 9600) [.changeDirection .send]
  obtain ⟨hsent, dev, _, _, _, _, hend⟩ := send_rounds 511 (p.step .txfifoEmpty).1 rfl rfl rfl
  have hrounds := along_imp_mem (fun e he p => inFrame_of_mem_sendRounds (k := 512) he p) hsent
  have hask : (exec step p (.txfifoEmpty :: sendRounds 512)).AsksTxDone := by
    rw [exec_cons, hend]
    exact ⟨rfl, le_rfl⟩
  exact frame_arrives (fun _ => 10) 9600 [.changeDirection .send] (.txfifoEmpty :: sendRounds 512)
    (installed (fun _ => 0) 9600) rfl ⟨rfl, hrounds⟩ hask rfl rfl

end Port

end BlizzardBridge
