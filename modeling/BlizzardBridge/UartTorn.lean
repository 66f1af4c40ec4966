import BlizzardBridge.StartCode
import BlizzardBridge.UartLink

/-! A frame while other tasks write to the buffer. The interrupt handler reads one slot for each
byte, and may come between any two writes of a task, also of one that copies a datagram. -/
namespace BlizzardBridge
open CArray EventMachine

namespace Port

/-- As `InFrame`, and other tasks may write to the buffer. -/
def MidFrame (p : Port) : Event → Prop
  | .setBuffer _ => True
  | e => p.InFrame e

/-- Of the frame the start byte and `n` slots have been written. -/
structure Stands (n : ℕ) (p : Port) : Prop where
  state : p.dmxState = .data
  slot : p.currentSlot = n + 1
  last : n ≤ 512
  off : n = 512 → p.enaTxfifoEmpty = false

abbrev buffer (p : Port) : Bytes := p.dmxData

def bytesOf (os : List Effect) : List UInt8 := (os.filterMap Effect.written).map Prod.fst

section frame
variable {n : ℕ} {p q : Port} {e : Event}

theorem Stands.congr (h : Stands n p) (hstate : q.dmxState = p.dmxState)
    (hslot : q.currentSlot = p.currentSlot) (hempty : q.enaTxfifoEmpty = p.enaTxfifoEmpty) :
    Stands n q :=
  ⟨hstate.trans h.state, hslot.trans h.slot, h.last, fun hn => hempty.trans (h.off hn)⟩

/-- What an event other than the empty FIFO leaves alone in the middle of a frame. -/
theorem midFrame_quiet (he : p.MidFrame e) (hne : e ≠ .txfifoEmpty) :
    bytesOf (p.step e).2 = [] ∧ (p.step e).1.dmxState = p.dmxState ∧
      (p.step e).1.currentSlot = p.currentSlot ∧ (p.step e).1.enaTxfifoEmpty = p.enaTxfifoEmpty ∧
      (p.step e).1.startByte = p.startByte := by
  cases e with
  | changeDirection dir => exact absurd he id
  | txfifoEmpty => exact absurd rfl hne
  | txDone => exact absurd he id
  | brkDet =>
    rw [step_brkDet_send p he.2]
    exact ⟨rfl, rfl, rfl, rfl, rfl⟩
  | rxByte byte queued =>
    obtain ⟨hout, full, ena, tout, heq⟩ := handleRxfifo_default p byte queued (Or.inr he.2)
    change bytesOf (p.handleRxfifo byte queued).2 = [] ∧ (p.handleRxfifo byte queued).1.dmxState = _ ∧
      (p.handleRxfifo byte queued).1.currentSlot = _ ∧
      (p.handleRxfifo byte queued).1.enaTxfifoEmpty = _ ∧ (p.handleRxfifo byte queued).1.startByte = _
    rw [hout, heq]
    exact ⟨rfl, rfl, rfl, rfl, rfl⟩
  | shiftOut => exact ⟨rfl, rfl, rfl, rfl, rfl⟩
  | setBuffer dmx => exact ⟨rfl, rfl, rfl, rfl, rfl⟩

/-- One event writes nothing, or the next slot as the buffer stands. -/
theorem stands_step (h : Stands n p) (he : p.MidFrame e) :
    bytesOf (p.step e).2 = [] ∧ Stands n (p.step e).1 ∨
      n < 512 ∧ bytesOf (p.step e).2 = [p.dmxData (n + 1)] ∧ Stands (n + 1) (p.step e).1 := by
  by_cases hempty : e = .txfifoEmpty
  · subst hempty
    have hena : p.enaTxfifoEmpty = true := he
    have hn : n < 512 := by
      apply Nat.lt_of_le_of_ne h.last
      intro hn
      rw [h.off hn] at hena
      cases hena
    refine Or.inr ⟨hn, ?_⟩
    change bytesOf p.handleTxfifoEmpty.2 = _ ∧ Stands (n + 1) p.handleTxfifoEmpty.1
    have hslot := h.slot
    by_cases hs : p.currentSlot + 1 < DMX_MAX_SLOTS
    · rw [handleTxfifoEmpty_next p h.state hs, ← hslot]
      refine ⟨rfl, h.state, rfl, by omega, fun hlast => ?_⟩
      unfold DMX_MAX_SLOTS at hs
      omega
    · -- the last slot: the interrupt stays off
      have hlast : (p.currentSlot + 1) % 65536 = n + 1 + 1 := by omega
      have hge : DMX_MAX_SLOTS ≤ (p.currentSlot + 1) % 65536 := by unfold DMX_MAX_SLOTS at *; omega
      rw [handleTxfifoEmpty_last p h.state hge, ← hslot]
      exact ⟨rfl, h.state, hlast.trans (congrArg (· + 1) hslot.symm), by omega, fun _ => rfl⟩
  · obtain ⟨hbytes, hstate, hslot, hena, _⟩ := midFrame_quiet he hempty
    exact Or.inl ⟨hbytes, h.congr hstate hslot hena⟩

/-- From START on, one event writes nothing, or the start byte. -/
theorem start_step (hstate : p.dmxState = .start) (he : p.MidFrame e) :
    bytesOf (p.step e).2 = [] ∧ (p.step e).1.dmxState = .start ∨
      bytesOf (p.step e).2 = [p.startByte] ∧ Stands 0 (p.step e).1 := by
  by_cases hempty : e = .txfifoEmpty
  · subst hempty
    change _ ∨ bytesOf p.handleTxfifoEmpty.2 = _ ∧ Stands 0 p.handleTxfifoEmpty.1
    rw [handleTxfifoEmpty_start p hstate]
    exact Or.inr ⟨rfl, rfl, rfl, Nat.zero_le _, nofun⟩
  · obtain ⟨hbytes, hsame, _⟩ := midFrame_quiet he hempty
    exact Or.inl ⟨hbytes, hsame.trans hstate⟩

/-- The byte at a position of the frame, as the buffer stands. -/
def slotAt (p : Port) (k : ℕ) : UInt8 := if k = 0 then 0 else p.dmxData k

/-- The bytes at the positions from `n` on, each as the buffer stood when the handler came to it. -/
def Shows (n : ℕ) (ws : List (Port × (UInt8 × ℕ))) : Prop :=
  ∀ (i : ℕ) (w : Port × (UInt8 × ℕ)), ws[i]? = some w → w.2.1 = w.1.slotAt (n + i)

theorem shows_nil (n : ℕ) : Shows n [] := fun _ _ h => by simp at h

theorem shows_cons {w : Port × (UInt8 × ℕ)} {ws : List (Port × (UInt8 × ℕ))}
    (hw : w.2.1 = w.1.slotAt n) (h : Shows (n + 1) ws) : Shows n (w :: ws) := by
  intro i w' hi
  cases i with
  | zero =>
    obtain rfl : w = w' := Option.some.inj hi
    exact hw
  | succ i =>
    have hnext := h i w' hi
    rwa [Nat.add_assoc, Nat.add_comm 1 i] at hnext

theorem writes_cons (p : Port) (e : Event) (es : List Event) :
    writes (trace step p (e :: es)) =
      ((p.step e).2.filterMap Effect.written).map (Prod.mk p) ++ writes (trace step (p.step e).1 es) := by
  have hhead : writes ((p.step e).2.map (Prod.mk p)) = _ := writes_map p (p.step e).2
  rw [trace_cons, writes_append, hhead]

theorem writes_cons_nil (h : bytesOf (p.step e).2 = []) (es : List Event) :
    writes (trace step p (e :: es)) = writes (trace step (p.step e).1 es) := by
  rw [writes_cons, List.map_eq_nil_iff.mp h]
  rfl

theorem writes_cons_byte {b : UInt8} (h : bytesOf (p.step e).2 = [b]) (es : List Event) :
    ∃ baud, writes (trace step p (e :: es)) = (p, (b, baud)) :: writes (trace step (p.step e).1 es) := by
  obtain ⟨⟨byte, baud⟩, hw, rfl⟩ := List.map_eq_singleton_iff.mp h
  refine ⟨baud, ?_⟩
  rw [writes_cons, hw]
  rfl

/-- Behind slot `n` come those up to 512. -/
theorem stands_shows (h : Stands n p) (es : List Event) (hrun : Along step MidFrame p es)
    (hask : (exec step p es).AsksTxDone) :
    (writes (trace step p es)).length = 512 - n ∧ Shows (n + 1) (writes (trace step p es)) := by
  -- each event moves the port on by one slot, or leaves it where it stands
  induction es generalizing p n with
  | nil =>
    have hlast : DMX_MAX_SLOTS ≤ n + 1 := h.slot ▸ hask.2
    have hzero : 512 - n = 0 := by unfold DMX_MAX_SLOTS at hlast; omega
    rw [hzero]
    exact ⟨rfl, shows_nil (n + 1)⟩
  | cons e es ih =>
    rcases stands_step h hrun.1 with ⟨hbytes, hnext⟩ | ⟨hn, hbytes, hnext⟩
    · rw [writes_cons_nil hbytes]
      exact ih hnext hrun.2 hask
    · obtain ⟨hlength, hshows⟩ := ih hnext hrun.2 hask
      obtain ⟨baud, hwrites⟩ := writes_cons_byte hbytes es
      rw [hwrites, List.length_cons, hlength]
      exact ⟨by omega, shows_cons rfl hshows⟩

/-- A frame is a zero and the 512 slots, each as the buffer stood when the handler came to it. -/
theorem frame_shows (hstart : p.dmxState = .start) (hcode : p.startByte = 0) (es : List Event)
    (hrun : Along step MidFrame p es) (hask : (exec step p es).AsksTxDone) :
    (writes (trace step p es)).length = 513 ∧ Shows 0 (writes (trace step p es)) := by
  induction es generalizing p with
  | nil => exact absurd (hstart.symm.trans hask.1) (by decide)
  | cons e es ih =>
    rcases start_step hstart hrun.1 with ⟨hbytes, hnext⟩ | ⟨hbytes, hnext⟩
    · rw [writes_cons_nil hbytes]
      exact ih hnext ((startByte_step p e).trans hcode) hrun.2 hask
    · obtain ⟨hlength, hshows⟩ := stands_shows hnext es hrun.2 hask
      obtain ⟨baud, hwrites⟩ := writes_cons_byte hbytes es
      rw [hwrites, List.length_cons, hlength]
      exact ⟨rfl, shows_cons hcode hshows⟩

/-- What holds of the port in every state of the run holds of it when the handler writes. -/
theorem writes_invariant {I : Port → Prop} {C : Port → Event → Prop} {es : List Event}
    (hstep : ∀ p e, I p → C p e → I (p.step e).1) (hp : I p) (hC : Along step C p es) :
    ∀ w ∈ writes (trace step p es), I w.1 := by
  intro w hw
  obtain ⟨x, hx, hwritten⟩ := List.mem_filterMap.mp hw
  obtain ⟨b, -, rfl⟩ := Option.map_eq_some_iff.mp hwritten
  exact trace_invariant hstep hp hC x hx

end frame

/-- A task writes slots of the new buffer over those of the old one, in any order. -/
def Copies (new : Bytes) (p : Port) : Event → Prop
  | .setBuffer dmx => ∀ k, dmx k = p.dmxData k ∨ dmx k = new k
  | _ => True

section copy
variable {p : Port} {old new : Bytes}

/-- A port in the middle of a frame does not write to the buffer. -/
theorem dmxData_step {e : Event} (he : p.MidFrame e) (hne : ∀ dmx, e ≠ .setBuffer dmx) :
    (p.step e).1.dmxData = p.dmxData := by
  cases e with
  | changeDirection dir => exact absurd he id
  | txfifoEmpty => exact (handleTxfifoEmpty_null p).1
  | txDone => exact absurd he id
  | brkDet => rw [step_brkDet_send p he.2]
  | rxByte byte queued =>
    obtain ⟨_, full, ena, tout, heq⟩ := handleRxfifo_default p byte queued (Or.inr he.2)
    change (p.handleRxfifo byte queued).1.dmxData = _
    rw [heq]
  | shiftOut => rfl
  | setBuffer dmx => exact absurd rfl (hne dmx)

theorem copies_step {e : Event} (h : ∀ k, p.dmxData k = old k ∨ p.dmxData k = new k)
    (he : p.MidFrame e ∧ p.Copies new e) (k : ℕ) :
    (p.step e).1.dmxData k = old k ∨ (p.step e).1.dmxData k = new k := by
  by_cases hset : ∃ dmx, e = .setBuffer dmx
  · obtain ⟨dmx, rfl⟩ := hset
    rcases he.2 k with hsame | hnew
    · change dmx k = _ ∨ dmx k = _
      rw [hsame]
      exact h k
    · exact Or.inr hnew
  · rw [dmxData_step he.1 (not_exists.mp hset)]
    exact h k

theorem getElem?_frame (dmx : Bytes) {k : ℕ} (hk : k < 513) :
    (0 :: slotBytes dmx 512)[k]? = some (if k = 0 then 0 else dmx k) := by
  cases k with
  | zero => rfl
  | succ k =>
    rw [List.getElem?_cons_succ, if_neg (Nat.succ_ne_zero k), slotBytes, take, List.getElem?_map,
      List.getElem?_range (Nat.lt_of_succ_lt_succ hk)]
    rfl

/-- Whatever is written to the buffer meanwhile, byte `k` of a frame is slot `k` of the buffer as
it stood when the handler came to write it. While a buffer is copied over the one before, each slot
that is sent is the old one or the new one; what is left of the frame when the copy is complete is
sent as it is in the new one. -/
theorem frame_torn (hstart : p.dmxState = .start) (hcode : p.startByte = 0) (es : List Event)
    (hrun : Along step MidFrame p es) (hask : (exec step p es).AsksTxDone) :
    (writes (trace step p es)).length = 513 ∧
    (∀ (k : ℕ) (w : Port × (UInt8 × ℕ)), (writes (trace step p es))[k]? = some w →
      w.2.1 = if k = 0 then 0 else w.1.dmxData k) ∧
    ∀ fs gs, es = fs ++ gs → Along step (Copies (exec step p fs).dmxData) p fs →
      Along step (Rests step buffer) (exec step p fs) gs →
        (∀ k b, k ≠ 0 → (sentBytes (trace step p fs))[k]? = some b →
          b = p.dmxData k ∨ b = (exec step p fs).dmxData k) ∧
        sentBytes (trace step (exec step p fs) gs) =
          (0 :: slotBytes (exec step p fs).dmxData 512).drop (sentBytes (trace step p fs)).length := by
  obtain ⟨hlength, hshows⟩ := frame_shows hstart hcode es hrun hask
  have hbyte (k : ℕ) (w : Port × (UInt8 × ℕ)) (hw : (writes (trace step p es))[k]? = some w) :
      w.2.1 = if k = 0 then 0 else w.1.dmxData k := by
    have hslot := hshows k w hw
    rwa [Nat.zero_add] at hslot
  refine ⟨hlength, hbyte, ?_⟩
  rintro fs gs rfl hcopy hrest
  have hwrites : writes (trace step p (fs ++ gs)) =
      writes (trace step p fs) ++ writes (trace step (exec step p fs) gs) := by
    rw [trace_append, writes_append]
  rw [hwrites] at hlength hbyte
  have hmid : Along step MidFrame p fs := ((along_append _ _ _ _ _).mp hrun).1
  -- all through the copy each slot is the old one or the new one
  have hold := writes_invariant (I := fun q => ∀ k, q.dmxData k = p.dmxData k ∨
    q.dmxData k = (exec step p fs).dmxData k) (fun q e h he => copies_step h he)
    (fun _ => Or.inl rfl) (along_and.mpr ⟨hmid, hcopy⟩)
  -- behind it nothing is written any more
  have hnew := writes_invariant (I := fun q => q.dmxData = (exec step p fs).dmxData)
    (fun q e h he => Eq.trans he h) rfl hrest
  constructor
  · intro k b hk hb
    rw [sentBytes, List.getElem?_map] at hb
    obtain ⟨w, hw, rfl⟩ := Option.map_eq_some_iff.mp hb
    have hone := hbyte k w (List.getElem?_append_left (List.getElem?_eq_some_iff.mp hw).1 ▸ hw)
    rw [if_neg hk] at hone
    rw [hone]
    exact hold w (List.mem_of_getElem? hw) k
  · apply List.ext_getElem?
    intro i
    rw [List.getElem?_drop, sentBytes, sentBytes, List.length_map, List.getElem?_map]
    rw [List.length_append] at hlength
    cases hw : (writes (trace step (exec step p fs) gs))[i]? with
    -- both lists end with the last of the 513 bytes
    | none =>
      have hend := List.getElem?_eq_none_iff.mp hw
      rw [Option.map_none, eq_comm, List.getElem?_eq_none_iff, List.length_cons, slotBytes, length_take]
      omega
    | some w =>
      have hi := (List.getElem?_eq_some_iff.mp hw).1
      have hsame : (writes (trace step p fs) ++ writes (trace step (exec step p fs) gs))[
          (writes (trace step p fs)).length + i]? = some w := by
        rw [List.getElem?_append_right (Nat.le_add_right _ i), Nat.add_sub_cancel_left, hw]
      rw [getElem?_frame _ (by omega), Option.map_some, hbyte _ w hsame,
        hnew w (List.mem_of_getElem? hw)]

end copy

/-- A sender that is left alone sends the slots that are left. -/
theorem rounds_run {p : Port} (k : ℕ) (hstate : p.dmxState = .data) (hena : p.enaTxfifoEmpty = true)
    (hslot : p.currentSlot + (k + 1) = DMX_MAX_SLOTS) :
    Along step MidFrame p (sendRounds (k + 1)) ∧ Along step (Rests step buffer) p (sendRounds (k + 1)) ∧
      (exec step p (sendRounds (k + 1))).AsksTxDone := by
  obtain ⟨hsent, dev, _, _, _, _, hend⟩ := send_rounds k p hstate hena hslot
  have hmid : Along step MidFrame p (sendRounds (k + 1)) := by
    apply along_imp_mem (C := Deliverable) _ hsent
    intro e he q hq
    rcases mem_sendRounds he with rfl | rfl
    · exact hq
    · exact hq
  refine ⟨hmid, ?_, ?_⟩
  · apply along_imp_mem (C := MidFrame) _ hmid
    intro e he q hq
    apply dmxData_step hq
    rintro dmx rfl
    rcases mem_sendRounds he with he | he
    · cases he
    · cases he
  · rw [hend]
    exact ⟨hstate, le_rfl⟩

theorem frame_run {p : Port} (hstart : p.dmxState = .start) (hena : p.enaTxfifoEmpty = true) :
    Along step MidFrame p (.txfifoEmpty :: sendRounds 512) ∧
      Along step (Rests step buffer) p (.txfifoEmpty :: sendRounds 512) ∧
        (exec step p (.txfifoEmpty :: sendRounds 512)).AsksTxDone := by
  have hfirst : (p.step .txfifoEmpty).1 = _ := congrArg Prod.fst (handleTxfifoEmpty_start p hstart)
  obtain ⟨hmid, hrest, hask⟩ := rounds_run (p := (p.step .txfifoEmpty).1) 511 (by rw [hfirst])
    (by rw [hfirst]) (by rw [hfirst]; rfl)
  rw [along_cons, along_cons, exec_cons]
  exact ⟨⟨hena, hmid⟩, ⟨dmxData_step hena nofun, hrest⟩, hask⟩

/-- Tens are copied over zeros behind the first slot. -/
theorem frame_torn_tens :
    let p := exec step (installed (fun _ => 0) 9600) [.changeDirection .send]
    let fs := [.txfifoEmpty, .txfifoEmpty, .setBuffer fun _ => 10]
    sentBytes (trace step p fs) = [0, 0] ∧
      sentBytes (trace step (exec step p fs) (sendRounds 511)) = (0 :: slotBytes (fun _ => 10) 512).drop 2 := by
  intro p fs
  have hmid : Along step MidFrame p fs := ⟨rfl, rfl, trivial, trivial⟩
  have hcopy : Along step (Copies (exec step p fs).dmxData) p fs :=
    ⟨trivial, trivial, fun _ => Or.inr rfl, trivial⟩
  have hsent : sentBytes (trace step p fs) = [0, 0] := rfl
  obtain ⟨hrun, hrest, hask⟩ := rounds_run (p := exec step p fs) 510 rfl rfl rfl
  generalize sendRounds 511 = gs at *
  have hask' : (exec step p (fs ++ gs)).AsksTxDone := by
    rw [exec_append]
    exact hask
  obtain ⟨-, -, htorn⟩ := frame_torn (p := p) rfl rfl (fs ++ gs)
    ((along_append _ _ _ _ _).mpr ⟨hmid, hrun⟩) hask'
  obtain ⟨-, hrest⟩ := htorn fs gs rfl hcopy hrest
  rw [hsent] at hrest
  exact ⟨hsent, hrest⟩

end Port

end BlizzardBridge
