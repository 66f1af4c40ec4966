import BlizzardBridge.UartIndex

/-! What a sending port writes. One interrupt writes at most one byte, so the law of
the byte stream is an invariant of the port and of the number of bytes written so
far, and the baud rate is settled because the phases before a change of the rate
are entered with an empty transmitter only. -/
namespace BlizzardBridge
open CArray EventMachine

def FRAME_LENGTH : ℕ := DMX_MAX_SLOTS + 1

def Effect.written : Effect → Option (UInt8 × ℕ)
  | .writeFifo byte baud => some (byte, baud)
  | _ => none

namespace Port

/-- The byte at a position of the frame, as the buffer stands, and its baud rate. -/
def frame (p : Port) (pos : ℕ) : UInt8 × ℕ :=
  if pos = 0 then (p.startByte, DMX_DATA_BAUD)
  else if pos < DMX_MAX_SLOTS then (p.dmxData pos, DMX_DATA_BAUD)
  else (0, DMX_BREAK_BAUD)

def writes (ts : List (Port × Effect)) : List (Port × (UInt8 × ℕ)) :=
  ts.filterMap fun x => x.2.written.map (Prod.mk x.1)

/-- The bytes written are a prefix of the endless repetition of the frame. -/
def FollowsFrames (ts : List (Port × Effect)) : Prop :=
  ∀ (i : ℕ) (w : Port × (UInt8 × ℕ)),
    (writes ts)[i]? = some w → w.2 = w.1.frame (i % FRAME_LENGTH)

/-- The baud rate is set only when every byte written before has left. -/
def BaudSettled (ts : List (Port × Effect)) : Prop :=
  ∀ x ∈ ts, ∀ baud, x.2 = .setBaud baud → x.1.txPending = 0

def Sending (p : Port) (e : Event) : Prop :=
  p.Deliverable e ∧ ∀ dir, e ≠ .changeDirection dir

/-- TX done is served while slots of the frame are still to be written. -/
def CutsFrame (p : Port) : Event → Prop
  | .txDone => p.dmxState = .data ∧ p.currentSlot < DMX_MAX_SLOTS
  | _ => False

/-- Where a sending port stands in its frame. -/
inductive Phase (p : Port) (pos : ℕ) : Prop
  | start (state : p.dmxState = .start) (next : pos = 0) (drained : p.txPending = 0)
  | slot (state : p.dmxState = .data) (next : pos = p.currentSlot) (first : 1 ≤ pos)
      (below : pos < DMX_MAX_SLOTS) (rate : p.baud = DMX_DATA_BAUD)
  | last (state : p.dmxState = .data) (next : pos = DMX_MAX_SLOTS)
      (slot : p.currentSlot = DMX_MAX_SLOTS) (off : p.enaTxfifoEmpty = false)
  | brk (state : p.dmxState = .brk) (next : pos = DMX_MAX_SLOTS) (drained : p.txPending = 0)
      (off : p.enaTxDone = false)
  | mab (state : p.dmxState = .brk) (next : pos = 0) (off : p.enaTxfifoEmpty = false)

structure SendInv (p : Port) (pos : ℕ) : Prop where
  running : p.txRunning = true
  phase : Phase p pos

theorem SendInv.congr {p q : Port} {pos : ℕ} (h : SendInv p pos)
    (hstate : q.dmxState = p.dmxState) (hslot : q.currentSlot = p.currentSlot)
    (hrun : q.txRunning = p.txRunning) (hbaud : q.baud = p.baud)
    (hpend : q.txPending ≤ p.txPending) (hempty : q.enaTxfifoEmpty = p.enaTxfifoEmpty)
    (hdone : q.enaTxDone = p.enaTxDone) : SendInv q pos := by
  refine ⟨hrun.trans h.running, ?_⟩
  cases h.phase with
  | start state next drained => exact .start (hstate.trans state) next (by omega)
  | slot state next first below rate =>
    exact .slot (hstate.trans state) (next.trans hslot.symm) first below (hbaud.trans rate)
  | last state next slot off =>
    exact .last (hstate.trans state) next (hslot.trans slot) (hempty.trans off)
  | brk state next drained off =>
    exact .brk (hstate.trans state) next (by omega) (hdone.trans off)
  | mab state next off => exact .mab (hstate.trans state) next (hempty.trans off)

/-- One interrupt of the empty FIFO writes the next byte of the frame. -/
theorem handleTxfifoEmpty_frame (p : Port) (pos : ℕ) (hI : SendInv p pos)
    (he : p.enaTxfifoEmpty = true) :
    p.handleTxfifoEmpty.2.filterMap Effect.written = [p.frame pos] ∧
      SendInv p.handleTxfifoEmpty.1 ((pos + 1) % FRAME_LENGTH) ∧
      ∀ baud, .setBaud baud ∈ p.handleTxfifoEmpty.2 → p.txPending = 0 := by
  cases hI.phase with
  | start state next drained =>
    subst next
    rw [handleTxfifoEmpty_start p state]
    refine ⟨rfl, ⟨hI.running, ?_⟩, fun _ _ => drained⟩
    exact .slot rfl rfl (by decide) (by decide) rfl
  | slot state next first below rate =>
    have hframe : p.frame pos = (p.dmxData p.currentSlot, p.baud) := by
      rw [frame, if_neg (by omega), if_pos below, next, rate]
    have hmod : (pos + 1) % FRAME_LENGTH = pos + 1 := Nat.mod_eq_of_lt (Nat.succ_lt_succ below)
    rw [hframe, hmod]
    by_cases hs : p.currentSlot + 1 < DMX_MAX_SLOTS
    · rw [handleTxfifoEmpty_next p state hs]
      refine ⟨rfl, ⟨hI.running, ?_⟩, by simp⟩
      exact .slot state (congrArg (· + 1) next) (by omega) (by omega) rate
    · -- the last slot: TX done is enabled and the empty FIFO is not
      have hlast : (p.currentSlot + 1) % 65536 = DMX_MAX_SLOTS := by
        unfold DMX_MAX_SLOTS at *
        omega
      rw [handleTxfifoEmpty_last p state (Nat.le_of_eq hlast.symm)]
      refine ⟨rfl, ⟨hI.running, ?_⟩, by simp⟩
      exact .last state (by omega) hlast rfl
  | last state next slot off => exact absurd (off.symm.trans he) (by decide)
  | brk state next drained off =>
    subst next
    rw [handleTxfifoEmpty_brk p state]
    refine ⟨rfl, ⟨hI.running, ?_⟩, fun _ _ => drained⟩
    exact .mab state (by decide) rfl
  | mab state next off => exact absurd (off.symm.trans he) (by decide)

/-- Served in its turn, TX done leads from the last slot to the break and from the
break to the next frame. -/
theorem handleTxDone_frame (p : Port) (pos : ℕ) (hI : SendInv p pos) (he : p.enaTxDone = true)
    (hp : p.txPending = 0) (hc : ¬ p.CutsFrame .txDone) : SendInv p.handleTxDone pos := by
  rw [handleTxDone_eq]
  refine ⟨hI.running, ?_⟩
  cases hI.phase with
  | start state next drained => exact .start (congrArg DmxState.afterTxDone state) next hp
  | slot state next first below rate => exact absurd ⟨state, next ▸ below⟩ hc
  | last state next slot off => exact .brk (congrArg DmxState.afterTxDone state) next hp rfl
  | brk state next drained off => exact absurd (off.symm.trans he) (by decide)
  | mab state next off => exact .start (congrArg DmxState.afterTxDone state) next hp

/-- One event writes nothing, or the next byte of the frame. -/
theorem sending_step (p : Port) (pos : ℕ) (e : Event) (hI : SendInv p pos) (he : p.Sending e)
    (hc : ¬ p.CutsFrame e) :
    (∀ baud, .setBaud baud ∈ (p.step e).2 → p.txPending = 0) ∧
      (((p.step e).2.filterMap Effect.written = [] ∧ SendInv (p.step e).1 pos) ∨
        ((p.step e).2.filterMap Effect.written = [p.frame pos] ∧
          SendInv (p.step e).1 ((pos + 1) % FRAME_LENGTH))) := by
  cases e with
  | changeDirection dir => exact absurd rfl (he.2 dir)
  -- the only interrupt that writes; the position moves on by one
  | txfifoEmpty =>
    obtain ⟨hwrite, hinv, hbaud⟩ := handleTxfifoEmpty_frame p pos hI he.1
    exact ⟨hbaud, .inr ⟨hwrite, hinv⟩⟩
  | txDone =>
    have hinv := handleTxDone_frame p pos hI he.1.1 he.1.2 hc
    exact ⟨by simp [step], .inl ⟨rfl, hinv⟩⟩
  | brkDet =>
    rw [step_brkDet_send p hI.running]
    exact ⟨by simp, .inl ⟨rfl, hI⟩⟩
  | rxByte byte queued =>
    obtain ⟨hout, full, ena, tout, heq⟩ :=
      handleRxfifo_default p byte queued (.inr hI.running)
    change (∀ baud, _ ∈ (p.handleRxfifo byte queued).2 → _) ∧
      ((_ ∧ SendInv (p.handleRxfifo byte queued).1 pos) ∨ _)
    rw [heq]
    refine ⟨by simp [hout], .inl ⟨?_, hI.congr rfl rfl rfl rfl le_rfl rfl rfl⟩⟩
    exact congrArg (List.filterMap Effect.written) hout
  | shiftOut =>
    have hless : p.shiftOut.txPending ≤ p.txPending := Nat.sub_le _ _
    exact ⟨by simp [step], .inl ⟨rfl, hI.congr rfl rfl rfl rfl hless rfl rfl⟩⟩
  | setBuffer dmx => exact ⟨by simp [step], .inl ⟨rfl, hI.congr rfl rfl rfl rfl le_rfl rfl rfl⟩⟩

theorem writes_append (ts us : List (Port × Effect)) :
    writes (ts ++ us) = writes ts ++ writes us := List.filterMap_append

theorem writes_map (p : Port) (os : List Effect) :
    writes (os.map (Prod.mk p)) = (os.filterMap Effect.written).map (Prod.mk p) := by
  simp only [writes, List.filterMap_map, List.map_filterMap]
  rfl

theorem followsFrames_append_write (ts us : List (Port × Effect)) (p : Port)
    (hts : FollowsFrames ts)
    (hus : writes us = [(p, p.frame ((writes ts).length % FRAME_LENGTH))]) :
    FollowsFrames (ts ++ us) := by
  intro i w hw
  rw [writes_append, hus, List.getElem?_append] at hw
  by_cases hi : i < (writes ts).length
  · rw [if_pos hi] at hw
    exact hts i w hw
  · rw [if_neg hi, List.getElem?_singleton] at hw
    split at hw
    · have hlen : i = (writes ts).length := by omega
      cases hw
      rw [hlen]
    · cases hw

structure FrameInv (p : Port) (ts : List (Port × Effect)) : Prop where
  inv : SendInv p ((writes ts).length % FRAME_LENGTH)
  frames : FollowsFrames ts
  baud : BaudSettled ts

theorem frameInv_step (p : Port) (ts : List (Port × Effect)) (e : Event) (hI : FrameInv p ts)
    (he : p.Sending e ∧ ¬ p.CutsFrame e) :
    FrameInv (p.step e).1 (ts ++ (p.step e).2.map (Prod.mk p)) := by
  obtain ⟨hbaud, hcase⟩ := sending_step p _ e hI.inv he.1 he.2
  have hsettled : BaudSettled (ts ++ (p.step e).2.map (Prod.mk p)) := by
    intro x hx baud hset
    rcases List.mem_append.mp hx with hx | hx
    · exact hI.baud x hx baud hset
    · obtain ⟨o, ho, rfl⟩ := List.mem_map.mp hx
      exact hbaud baud (hset ▸ ho)
  have hsplit : writes (ts ++ (p.step e).2.map (Prod.mk p)) =
      writes ts ++ ((p.step e).2.filterMap Effect.written).map (Prod.mk p) := by
    rw [writes_append, writes_map]
  -- nothing is written, or the byte that is due
  rcases hcase with ⟨hwrite, hinv⟩ | ⟨hwrite, hinv⟩
  · rw [hwrite, List.map_nil, List.append_nil] at hsplit
    refine ⟨?_, ?_, hsettled⟩
    · rwa [hsplit]
    · unfold FollowsFrames
      rw [hsplit]
      exact hI.frames
  · rw [hwrite, List.map_singleton] at hsplit
    refine ⟨?_, ?_, hsettled⟩
    · rw [hsplit, List.length_append, List.length_singleton, ← Nat.mod_add_mod]
      exact hinv
    · apply followsFrames_append_write ts _ p hI.frames
      rw [writes_map, hwrite, List.map_singleton]

def sending (dmx : Bytes) (baud : ℕ) : Port :=
  ((installed dmx baud).step (.changeDirection .send)).1

section run
variable (dmx : Bytes) (baud : ℕ)

theorem frameInv_sending : FrameInv (sending dmx baud) [] where
  inv := ⟨rfl, .start rfl rfl rfl⟩
  frames := fun _ _ h => by simp [writes] at h
  baud := by simp [BaudSettled]

theorem frameInv_exec (es : List Event) (hrun : Along step Sending (sending dmx baud) es)
    (hcut : Along step (fun p e => ¬ p.CutsFrame e) (sending dmx baud) es) :
    FrameInv (exec step (sending dmx baud) es) (trace step (sending dmx baud) es) := by
  have hboth := along_and.mpr ⟨hrun, hcut⟩
  exact exec_trace_invariant (J := FrameInv) frameInv_step (frameInv_sending dmx baud) hboth

/-- A first TX done in the middle of a frame sends the break in place of a slot. -/
theorem frames_broken_by_cut (es : List Event) (hrun : Along step Sending (sending dmx baud) es)
    (hcut : Along step (fun p e => ¬ p.CutsFrame e) (sending dmx baud) es)
    (hdone : (exec step (sending dmx baud) es).Deliverable .txDone)
    (hnow : (exec step (sending dmx baud) es).CutsFrame .txDone) :
    Along step Sending (sending dmx baud) (es ++ [.txDone, .txfifoEmpty]) ∧
      ¬ FollowsFrames (trace step (sending dmx baud) (es ++ [.txDone, .txfifoEmpty])) := by
  have hinv := (frameInv_exec dmx baud es hrun hcut).inv
  rw [along_append, trace_append]
  generalize exec step (sending dmx baud) es = q at *
  generalize trace step (sending dmx baud) es = ts at *
  have hbrk : q.handleTxDone.dmxState = .brk := by
    rw [handleTxDone_eq]
    exact congrArg DmxState.afterTxDone hnow.1
  have hena : q.handleTxDone.enaTxfifoEmpty = true := by rw [handleTxDone_eq]
  refine ⟨⟨hrun, ⟨hdone, nofun⟩, ⟨hena, nofun⟩, trivial⟩, fun hframes => ?_⟩
  -- TX done has moved DATA into BREAK, so the next byte is that of the break
  have hwrites : writes (trace step q [.txDone, .txfifoEmpty]) =
      [(q.handleTxDone, (0, DMX_BREAK_BAUD))] := by
    simp only [trace_cons, trace_nil, step, handleTxfifoEmpty_brk _ hbrk]
    rfl
  have hlast := hframes (writes ts).length (q.handleTxDone, (0, DMX_BREAK_BAUD))
    (by rw [writes_append, hwrites]; simp)
  -- the position is that of a slot, to be sent at the data rate
  cases hinv.phase with
  | slot state next first below rate =>
    rw [frame, if_neg (by omega), if_pos below] at hlast
    have hrate : DMX_BREAK_BAUD = DMX_DATA_BAUD := congrArg Prod.snd hlast
    exact absurd hrate (by decide)
  | last state next slot off => exact absurd hnow.2 (by omega)
  | start state _ _ => exact absurd (state.symm.trans hnow.1) (by decide)
  | brk state _ _ _ => exact absurd (state.symm.trans hnow.1) (by decide)
  | mab state _ _ => exact absurd (state.symm.trans hnow.1) (by decide)

/-- While no TX done cuts a frame, the bytes written follow the frames without end
and the baud rate changes only on an empty transmitter; the first TX done that cuts
one leads to a wrong byte. -/
theorem frames_of_no_cut (es : List Event) (hrun : Along step Sending (sending dmx baud) es)
    (hcut : Along step (fun p e => ¬ p.CutsFrame e) (sending dmx baud) es) :
    FollowsFrames (trace step (sending dmx baud) es) ∧
      BaudSettled (trace step (sending dmx baud) es) ∧
      ((exec step (sending dmx baud) es).Deliverable .txDone →
        (exec step (sending dmx baud) es).CutsFrame .txDone →
          Along step Sending (sending dmx baud) (es ++ [.txDone, .txfifoEmpty]) ∧
          ¬ FollowsFrames (trace step (sending dmx baud) (es ++ [.txDone, .txfifoEmpty]))) := by
  have hinv := frameInv_exec dmx baud es hrun hcut
  exact ⟨hinv.frames, hinv.baud, frames_broken_by_cut dmx baud es hrun hcut⟩

end run

-- The break, and the start byte of the next frame, each behind a TX done.
def breakEvents : List Event := [.shiftOut, .txDone, .txfifoEmpty, .shiftOut, .txDone, .txfifoEmpty]

theorem break_run {q : Port} (hstate : q.dmxState = .data) (hslot : q.currentSlot = DMX_MAX_SLOTS)
    (hdone : q.enaTxDone = true) (hpend : q.txPending = 1) :
    Along step Sending q breakEvents ∧ Along step (fun q e => ¬ q.CutsFrame e) q breakEvents ∧
      (exec step q breakEvents).currentSlot = 1 := by
  obtain ⟨⟨⟩, ⟨⟩, pin⟩ := q
  cases hstate
  cases hslot
  cases hdone
  cases hpend
  refine ⟨?_, ?_, rfl⟩
  · exact ⟨⟨Nat.one_pos, nofun⟩, ⟨⟨rfl, rfl⟩, nofun⟩, ⟨rfl, nofun⟩, ⟨Nat.one_pos, nofun⟩,
      ⟨⟨rfl, rfl⟩, nofun⟩, ⟨rfl, nofun⟩, trivial⟩
  · exact ⟨id, fun hcuts => absurd hcuts.2 (lt_irrefl _), id, id, fun hcuts => absurd hcuts.2 (lt_irrefl _),
      id, trivial⟩

/-- The slots are sent, then the break, and the next frame has begun. -/
theorem frames_of_no_cut_whole :
    let p := sending (fun _ => 9) 9600
    let es := .txfifoEmpty :: (sendRounds 512 ++ breakEvents)
    (exec step p es).currentSlot = 1 ∧ FollowsFrames (trace step p es) ∧ BaudSettled (trace step p es) := by
  intro p es
  obtain ⟨hsent, dev, _, _, hdone, hpend, hend⟩ := send_rounds 511 (p.step .txfifoEmpty).1 rfl rfl rfl
  have hslots : Along step Sending (p.step .txfifoEmpty).1 (sendRounds 512) := by
    apply along_imp_mem (C := Deliverable) _ hsent
    intro e he q hq
    refine ⟨hq, ?_⟩
    rintro dir rfl
    rcases mem_sendRounds he with he | he
    · cases he
    · cases he
  have huncut : Along step (fun q e => ¬ q.CutsFrame e) (p.step .txfifoEmpty).1 (sendRounds 512) := by
    apply along_imp_mem (C := Deliverable) _ hsent
    intro e he q _
    rcases mem_sendRounds he with rfl | rfl
    · exact id
    · exact id
  -- one byte is left to shift out, and TX done is enabled
  obtain ⟨hbreak, hbreakUncut, hnext⟩ := break_run
    (q := exec step (p.step .txfifoEmpty).1 (sendRounds 512)) (by rw [hend]; rfl) (by rw [hend])
    (by rw [hend]; exact hdone) (by rw [hend]; exact hpend)
  have hrun : Along step Sending p es := ⟨⟨rfl, nofun⟩, (along_append _ _ _ _ _).mpr ⟨hslots, hbreak⟩⟩
  have hcut : Along step (fun q e => ¬ q.CutsFrame e) p es :=
    ⟨id, (along_append _ _ _ _ _).mpr ⟨huncut, hbreakUncut⟩⟩
  obtain ⟨hframes, hbaud, -⟩ := frames_of_no_cut (fun _ => 9) 9600 es hrun hcut
  refine ⟨?_, hframes, hbaud⟩
  rw [exec_cons, exec_append]
  exact hnext

/-- TX done has been enabled since the driver was installed: served behind the start
byte, it turns the first slot into a break. -/
theorem first_frame_cut :
    ¬ ∀ (dmx : Bytes) (baud : ℕ) (es : List Event), Along step Sending (sending dmx baud) es →
      FollowsFrames (trace step (sending dmx baud) es) ∧
        BaudSettled (trace step (sending dmx baud) es) := by
  intro hall
  let es : List Event := [.txfifoEmpty, .shiftOut, .txDone, .txfifoEmpty]
  have hrun : Along step Sending (sending (fun _ => 9) 9600) es :=
    ⟨⟨rfl, nofun⟩, ⟨by decide, nofun⟩, ⟨by decide, nofun⟩, ⟨rfl, nofun⟩, trivial⟩
  have hframes := (hall (fun _ => 9) 9600 es hrun).1
  have hsecond := hframes 1 _ rfl
  exact absurd (congrArg Prod.snd hsecond) (by decide)

end Port

end BlizzardBridge
