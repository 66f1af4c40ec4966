import BlizzardBridge.DottedQuad

/-! The indices that the terminal handler uses, against the sizes of its three arrays. -/
namespace BlizzardBridge
open CArray Program

/-- The index lies in its array. -/
def Index.InRange : Index → Prop
  | .genBuf i => i < GEN_BUF_SIZE
  | .delimIndexes i => i < 3
  | .ipIndex i => i < 3

instance (e : Index) : Decidable e.InRange := by
  cases e <;> exact inferInstanceAs (Decidable (_ < _))

theorem forall_between {Q : ℕ → Prop} {i n : ℕ} (hi : i < n) :
    (∀ k, i ≤ k → k < n → Q k) ↔ Q i ∧ ∀ k, i + 1 ≤ k → k < n → Q k := by
  constructor
  · intro h
    exact ⟨h i le_rfl hi, fun k hk => h k (Nat.le_of_succ_le hk)⟩
  · rintro ⟨hfirst, hrest⟩ k hk hlt
    rcases Nat.eq_or_lt_of_le hk with rfl | hk
    · exact hfirst
    · exact hrest k hk hlt

/-- The loop over the text uses one place of the buffer for each character, and one of
the second array for each space. -/
theorem logs_fillGenBuf {P : Index → Prop} {val : List UInt8} (hlen : val.length < 256) (fuel : ℕ)
    (i : UInt8) (d : Delims) (b : Board) (hi : i.toNat ≤ val.length) (hcount : d.count.toNat ≤ i.toNat)
    (hfuel : val.length - i.toNat < fuel) :
    Logs P (fillGenBuf val fuel i d) b ↔
      (∀ k, i.toNat ≤ k → k < val.length → P (.genBuf k)) ∧
        ∀ k, d.count.toNat ≤ k → k < d.count.toNat + (val.drop i.toNat).count SPACE →
          P (.delimIndexes k) := by
  induction fuel generalizing i d b with
  | zero => exact absurd hfuel (Nat.not_lt_zero _)
  | succ fuel ih =>
    rw [fillGenBuf]
    by_cases hdone : val.length ≤ i.toNat
    · rw [if_pos hdone, List.drop_eq_nil_of_le hdone]
      refine iff_of_true logs_pure ⟨fun k hk hlt => absurd hlt (by omega), fun k hk hlt => ?_⟩
      exact absurd hlt (Nat.not_lt.mpr hk)
    · have hlt : i.toNat < val.length := Nat.lt_of_not_le hdone
      have hsucc : (i + 1).toNat = i.toNat + 1 := toNat_succ_of_lt (by omega)
      have hcons : val.drop i.toNat = val.getD i.toNat 0 :: val.drop (i + 1).toNat := by
        rw [hsucc]
        exact drop_eq_getD_cons hlt
      have hput (v : UInt8) : Ends (putChar i.toNat v) b ()
          { b with genBuf := Function.update b.genBuf i.toNat v } := ends_step
      have hfirst : Logs P (putChar i.toNat (blank (val.getD i.toNat 0))) b ↔ P (.genBuf i.toNat) :=
        List.forall_mem_singleton
      rw [if_neg hdone, hcons, forall_between hlt, ← hsucc, ← hfirst]
      by_cases hspace : val.getD i.toNat 0 = SPACE
      · have hnext : (d.count + 1).toNat = d.count.toNat + 1 := toNat_succ_of_lt (by omega)
        have hrest := ih (i + 1) ⟨Function.update d.indexes d.count.toNat (i + 1), d.count + 1⟩
          { b with genBuf := Function.update b.genBuf i.toNat 0 } (by omega)
          (by change (d.count + 1).toNat ≤ _; omega) (by omega)
        have hdelims : (∀ k, d.count.toNat ≤ k →
            k < d.count.toNat + ((val.drop (i + 1).toNat).count SPACE + 1) → P (.delimIndexes k)) ↔
            P (.delimIndexes d.count.toNat) ∧ ∀ k, (d.count + 1).toNat ≤ k →
              k < (d.count + 1).toNat + (val.drop (i + 1).toNat).count SPACE →
              P (.delimIndexes k) := by
          rw [forall_between (by omega), hnext, Nat.add_right_comm, Nat.add_assoc]
        rw [if_pos hspace, hspace, List.count_cons_self, hdelims, blank, if_pos rfl,
          logs_bind_of_ends (hput 0), logs_emit_bind, hrest]
        constructor
        · rintro ⟨hstored, hplace, hstores, hplaces⟩
          exact ⟨⟨hstored, hstores⟩, hplace, hplaces⟩
        · rintro ⟨⟨hstored, hstores⟩, hplace, hplaces⟩
          exact ⟨hstored, hplace, hstores, hplaces⟩
      · rw [if_neg hspace, blank, if_neg hspace, List.count_cons_of_ne hspace,
          logs_bind_of_ends (hput _), ih (i + 1) _ _ (by omega) (by omega) (by omega), and_assoc]

/-- With no more turns than characters the loop does not get through. -/
theorem fillGenBuf_cut {val : List UInt8} (hlen : val.length < 256) (fuel : ℕ) (i : UInt8) (d : Delims)
    (b : Board) (hi : i.toNat ≤ val.length) (hfuel : fuel ≤ val.length - i.toNat) :
    (fillGenBuf val fuel i d b).val = none := by
  induction fuel generalizing i d b with
  | zero => rfl
  | succ fuel ih =>
    have hlt : ¬ val.length ≤ i.toNat := by omega
    have hsucc : (i + 1).toNat = i.toNat + 1 := toNat_succ_of_lt (by omega)
    rw [fillGenBuf, if_neg hlt]
    split
    · exact ih _ _ _ (by omega) (by omega)
    · exact ih _ _ _ (by omega) (by omega)

theorem logs_zeroGenBuf (i : ℕ) (b : Board) : Logs Index.InRange (zeroGenBuf i) b := by
  have hturn (k : ℕ) (u : Unit) (b : Board) : Ends (putChar (i + k) 0) b
      (zeroTurn i k (u, b)).1 (zeroTurn i k (u, b)).2 := ends_step
  have hlogs (k : ℕ) (_ : Unit) (b : Board) : Logs Index.InRange (putChar (i + k) 0) b ↔
      i + k < GEN_BUF_SIZE := List.forall_mem_singleton
  apply (logs_loop hturn hlogs (GEN_BUF_SIZE - i)).mpr
  intro k hk
  omega

section commands
variable {b : Board}

/-- The loop over an argument uses one place of the third array for each dot it finds. -/
theorem logs_splitIP {rest : List UInt8} (hnul : 0 ∉ rest) {start k i : ℕ} {ipIndex : Bytes} {j : ℕ}
    (hin : start + i + k ≤ GEN_BUF_SIZE)
    (hbuf : ∀ n < k, b.genBuf (start + (i + n)) = blank (rest.getD n 0)) :
    Logs Index.InRange (splitIP start k i ipIndex j) b ↔
      ∀ n, j ≤ n → n < j + ((firstWord rest).take k).count DOT → n < 3 := by
  induction k generalizing rest i ipIndex j b with
  | zero => exact iff_of_true logs_pure fun n hn hlt => absurd hlt (Nat.not_lt.mpr hn)
  | succ k ih =>
    have hread : b.genBuf (start + i) = blank (rest.getD 0 0) := hbuf 0 (Nat.succ_pos k)
    have hget : Ends (getChar (start + i)) b (b.genBuf (start + i)) b := ends_step
    have hgot : Logs Index.InRange (getChar (start + i)) b :=
      List.forall_mem_singleton.mpr (show start + i < GEN_BUF_SIZE by omega)
    rw [splitIP, logs_bind_of_ends hget, and_iff_right hgot, hread]
    cases rest with
    | nil => exact iff_of_true logs_pure fun n hn hlt => absurd hlt (Nat.not_lt.mpr hn)
    | cons y ys =>
      obtain ⟨hy, hys⟩ := not_or.mp (mt List.mem_cons.mpr hnul)
      change Logs _ (if blank y = DOT then _ else if blank y = 0 then _ else _) b ↔ _
      by_cases hspace : y = SPACE
      · have hblank : blank y = 0 := if_pos hspace
        rw [hblank, if_neg (by decide), if_pos rfl, hspace, firstWord_space]
        exact iff_of_true logs_pure fun n hn hlt => absurd hlt (Nat.not_lt.mpr hn)
      · have hblank : blank y = y := if_neg hspace
        rw [hblank, if_neg (Ne.symm hy), firstWord_cons hspace, List.take_succ_cons]
        by_cases hdot : y = DOT
        · let b₁ : Board := { b with genBuf := Function.update b.genBuf (start + i) 0 }
          have hput : Ends (putChar (start + i) 0) b () b₁ := ends_step
          have hwrote : Logs Index.InRange (putChar (start + i) 0) b := hgot
          have hafter : ∀ n < k, b₁.genBuf (start + (i + 1 + n)) = blank (ys.getD n 0) :=
            genBuf_rest hbuf fun m hm => Function.update_of_ne hm _ _
          have hend : j + (((firstWord ys).take k).count DOT + 1) =
              j + 1 + ((firstWord ys).take k).count DOT := by omega
          rw [if_pos hdot, hdot, List.count_cons_self, logs_bind_of_ends hput, and_iff_right hwrote,
            logs_emit_bind, ih hys (by omega) hafter, hend, forall_between (i := j) (by omega)]
          exact Iff.rfl
        · rw [if_neg hdot, List.count_cons_of_ne hdot]
          exact ih hys (by omega) (genBuf_rest hbuf fun _ _ => rfl)

/-- The places it notes lie no farther than the end of its window. -/
theorem splitIP_starts {start k i j m : ℕ} (hm : i + k = m) (hbyte : m < 256) {ipIndex : Bytes}
    (hstarts : ∀ n, (ipIndex n).toNat ≤ m) :
    EndsIn (fun r _ => ∀ n, (r.1 n).toNat ≤ m) (splitIP start k i ipIndex j) b := by
  induction k generalizing i ipIndex j b with
  | zero => exact endsIn_of_ends ends_pure hstarts
  | succ k ih =>
    have hget : Ends (getChar (start + i)) b (b.genBuf (start + i)) b := ends_step
    apply endsIn_bind_of_ends hget
    split_ifs
    · have hput : Ends (putChar (start + i) 0) b ()
          { b with genBuf := Function.update b.genBuf (start + i) 0 } := ends_step
      apply endsIn_bind_of_ends hput
      apply endsIn_bind_of_ends ends_step
      apply ih (by omega)
      intro n
      rw [Function.update_apply]
      split
      · rw [Nat.toUInt8, UInt8.toNat_ofNat']
        omega
      · exact hstarts n
    · exact endsIn_of_ends ends_pure hstarts
    · exact ih (by omega) hstarts

theorem logs_charsAt {i : ℕ} : Logs Index.InRange (charsAt i) b ↔ i < GEN_BUF_SIZE :=
  List.forall_mem_singleton

theorem logs_argumentAt {d : Delims} : Logs Index.InRange (argumentAt d) b :=
  List.forall_mem_singleton.mpr (show 0 < 3 by decide)

/-- A command that begins by looking up its argument does so in range. -/
theorem logs_argumentAt_bind {α : Type} {d : Delims} {f : ℕ → Terminal α} :
    Logs Index.InRange (argumentAt d >>= f) b ↔ Logs Index.InRange (f (d.indexes 0).toNat) b := by
  have hstart : Ends (argumentAt d) b (d.indexes 0).toNat b := ends_step
  rw [logs_bind_of_ends hstart, and_iff_right logs_argumentAt]

theorem logs_charsAt_bind {α : Type} {i : ℕ} {f : Bytes → Terminal α} (hi : i < GEN_BUF_SIZE) :
    Logs Index.InRange (charsAt i >>= f) b ↔
      Logs Index.InRange (f fun k => b.genBuf (i + k)) b := by
  have hchars : Ends (charsAt i) b (fun k => b.genBuf (i + k)) b := ends_step
  rw [logs_bind_of_ends hchars, and_iff_right (logs_charsAt.mpr hi)]

theorem logs_putOctet_bind {toInt : List UInt8 → ℤ} {n i : ℕ} (hi : i < GEN_BUF_SIZE)
    {f : Unit → Terminal Unit} (hf : ∀ b', Logs Index.InRange (f ()) b') :
    Logs Index.InRange (putOctet toInt n i >>= f) b := by
  have hput : ∃ b', Ends (putOctet toInt n i) b () b' := ⟨_, Ends.bind ends_step ends_step⟩
  obtain ⟨b', hb'⟩ := hput
  rw [logs_bind_of_ends hb', putOctet, logs_charsAt_bind hi]
  exact ⟨logs_step.mpr nofun, hf b'⟩

/-- The four octets are read in range when each begins in the buffer. -/
theorem logs_octets {toInt : List UInt8 → ℤ} {start : ℕ} {parts : Bytes} (hstart : start < GEN_BUF_SIZE)
    (hin : ∀ n, start + (parts n).toNat < GEN_BUF_SIZE) :
    Logs Index.InRange (do
      putOctet toInt 3 start
      emit (.ipIndex 0)
      putOctet toInt 2 (start + (parts 0).toNat)
      emit (.ipIndex 1)
      putOctet toInt 1 (start + (parts 1).toNat)
      emit (.ipIndex 2)
      putOctet toInt 0 (start + (parts 2).toNat)
      modify fun b => b.setIP b.ip
      modify (Board.setDHCPEnable DISABLE)) b := by
  have hindex (n : ℕ) (hn : n < 3) : Index.InRange (.ipIndex n) := hn
  apply logs_putOctet_bind hstart
  intro b₁
  rw [logs_emit_bind, and_iff_right (hindex 0 (by decide))]
  apply logs_putOctet_bind (hin 0)
  intro b₂
  rw [logs_emit_bind, and_iff_right (hindex 1 (by decide))]
  apply logs_putOctet_bind (hin 1)
  intro b₃
  rw [logs_emit_bind, and_iff_right (hindex 2 (by decide))]
  apply logs_putOctet_bind (hin 2)
  intro b₄
  rw [logs_modify_bind]
  exact logs_step.mpr fun e he => absurd he List.not_mem_nil

section delimited
variable {val : List UInt8} {d : Delims} (hd : Delimited val 0 ⟨fun _ => 0, 0⟩ d)
include hd

theorem logs_setnameCommand (hword : firstWord val = SETNAME) :
    Logs Index.InRange (setnameCommand d) b := by
  rw [setnameCommand]
  split
  · exact logs_pure
  · next hpos =>
    rw [logs_argumentAt_bind, hd.argument_index hword hpos, logs_charsAt_bind (by decide)]
    exact logs_step.mpr nofun

theorem logs_setdhcpCommand (hword : firstWord val = SETDHCP) :
    Logs Index.InRange (setdhcpCommand d) b := by
  rw [setdhcpCommand]
  split
  · exact logs_pure
  · next hpos =>
    rw [logs_argumentAt_bind, hd.argument_index hword hpos, logs_charsAt_bind (by decide)]
    split_ifs
    · exact logs_step.mpr nofun
    · exact logs_step.mpr nofun
    · exact logs_pure

end delimited

end commands

section text
variable {toInt : List UInt8 → ℤ} {val : CString} {d : Delims}
  (hd : Delimited val.1 0 ⟨fun _ => 0, 0⟩ d) {b : Board}
  (hbuf : ∀ k < GEN_BUF_SIZE, b.genBuf k = blank (val.1.getD k 0))
include hd hbuf

/-- The octets are read in range, for they begin in the window of the argument. -/
theorem logs_setipCommand (hword : firstWord val.1 = SETIP) :
    Logs Index.InRange (setipCommand toInt d) b ↔
      ((argument SETIP val.1).take 15).count DOT ≤ 3 := by
  have hrest : 0 ∉ val.1.drop (SETIP.length + 1) := fun hmem => val.2 (List.mem_of_mem_drop hmem)
  have hword' : argument SETIP val.1 = firstWord (val.1.drop (SETIP.length + 1)) := rfl
  rw [setipCommand]
  by_cases hzero : d.count = 0
  · rw [if_pos hzero, hd.argument_nil hword hzero]
    exact iff_of_true logs_pure (by decide)
  · rw [if_neg hzero, logs_argumentAt_bind, hd.argument_index hword hzero, logs_bind_left]
    · rw [logs_splitIP hrest (by decide) (genBuf_setip hbuf), Nat.zero_add, hword']
      constructor
      · intro h
        by_contra hmore
        exact absurd (h 3 (by omega) (by omega)) (by decide)
      · intro h n _ hn
        exact Nat.lt_of_lt_of_le hn h
    · intro parts b' hends
      by_cases hthree : parts.2 = 3
      · rw [if_neg (not_not.mpr hthree)]
        have hstarts : EndsIn (fun r _ => ∀ n, (r.1 n).toNat ≤ 15)
            (splitIP (SETIP.length + 1) 15 0 (fun _ => 0) 0) b :=
          splitIP_starts rfl (by decide) fun _ => Nat.zero_le _
        obtain ⟨parts', _, hends', hle⟩ := hstarts
        have hsame : parts' = parts := (hends'.unique hends).1
        have hin (n : ℕ) : SETIP.length + 1 + (parts.1 n).toNat < GEN_BUF_SIZE := by
          have hn := hle n
          rw [hsame] at hn
          change 6 + _ < 64
          omega
        exact logs_octets (by decide) hin
      · rw [if_pos hthree]
        exact logs_pure

theorem logs_runCommand : Logs Index.InRange (runCommand toInt val.1 d) b ↔
    (firstWord val.1 = SETIP → ((argument SETIP val.1).take 15).count DOT ≤ 3) := by
  have hother {word : List UInt8} (hw : firstWord val.1 = word) (hne : word ≠ SETIP) :
      firstWord val.1 = SETIP → ((argument SETIP val.1).take 15).count DOT ≤ 3 :=
    fun h => absurd (hw.symm.trans h) hne
  rw [runCommand, logs_charsAt_bind (by decide)]
  split_ifs with hhelp hname hip hdhcp
  · have hfirst : firstWord val.1 = ascii ['h', 'e', 'l', 'p'] := by
      rw [hhelp]
      rfl
    exact iff_of_true logs_pure (hother hfirst (by decide))
  · have hfirst := (equalsString_word val.2 hbuf (by decide)).mp hname
    exact iff_of_true (logs_setnameCommand hd hfirst) (hother hfirst (by decide))
  · have hfirst := (equalsString_word val.2 hbuf (by decide)).mp hip
    rw [logs_setipCommand hd hbuf hfirst]
    exact ⟨fun h _ => h, fun h => h hfirst⟩
  · have hfirst := (equalsString_word val.2 hbuf (by decide)).mp hdhcp
    exact iff_of_true (logs_setdhcpCommand hd hfirst) (hother hfirst (by decide))
  · refine iff_of_true logs_pure fun h => ?_
    exact absurd ((equalsString_word val.2 hbuf (by decide)).mpr h) hip

end text

theorem logs_blynkWriteV12 (toInt : List UInt8 → ℤ) {val : CString} (hlen : val.1.length < 256)
    {fuel : ℕ} (hfuel : val.1.length < fuel) (b : Board) :
    Logs Index.InRange (blynkWriteV12 toInt fuel val.1) b ↔
      val.1.length ≤ 64 ∧ val.1.count SPACE ≤ 3 ∧
        (firstWord val.1 = SETIP → ((argument SETIP val.1).take 15).count DOT ≤ 3) := by
  obtain ⟨d, hd, hfill⟩ :=
    ends_fillGenBuf hlen fuel 0 ⟨fun _ => 0, 0⟩ b (Nat.zero_le _) le_rfl hfuel
  have hlast : (UInt8.ofNat val.1.length).toNat = val.1.length := by
    rw [UInt8.toNat_ofNat']
    exact Nat.mod_eq_of_lt hlen
  have h0 : (0 : UInt8).toNat = 0 := rfl
  have hzero := ends_zeroGenBuf (UInt8.ofNat val.1.length).toNat
    { b with genBuf := filled val.1 0 b.genBuf }
  have hbuf {k : ℕ} (hk : k < GEN_BUF_SIZE) := genBuf_apply val.1 b.genBuf hk
  have hchars : (∀ k, 0 ≤ k → k < val.1.length → Index.InRange (.genBuf k)) ↔ val.1.length ≤ 64 := by
    constructor
    · intro h
      by_contra hmore
      exact absurd (h 64 (Nat.zero_le _) (by omega)) (by decide)
    · intro h k _ hk
      exact Nat.lt_of_lt_of_le hk h
  have hspaces : (∀ k, 0 ≤ k → k < 0 + val.1.count SPACE → Index.InRange (.delimIndexes k)) ↔
      val.1.count SPACE ≤ 3 := by
    rw [Nat.zero_add]
    constructor
    · intro h
      by_contra hmore
      exact absurd (h 3 (Nat.zero_le _) (by omega)) (by decide)
    · intro h k _ hk
      exact Nat.lt_of_lt_of_le hk h
  rw [hlast] at hzero
  rw [h0] at hfill hd
  rw [blynkWriteV12, logs_bind_of_ends hfill,
    logs_fillGenBuf hlen fuel 0 _ b (Nat.zero_le _) le_rfl hfuel, hlast, logs_bind_of_ends hzero,
    and_iff_right (logs_zeroGenBuf _ _), logs_runCommand hd fun k hk => hbuf hk, ← hchars, ← hspaces,
    and_assoc]
  rfl

/-- Only texts that the index of the loop can count are handled to the end. -/
theorem length_of_returns {toInt : List UInt8 → ℤ} {val : List UInt8} {fuel : ℕ} {b : Board}
    (h : (blynkWriteV12 toInt fuel val b).val ≠ none) : val.length < 256 ∧ val.length < fuel := by
  have hfill : (fillGenBuf val fuel 0 ⟨fun _ => 0, 0⟩ b).val ≠ none := by
    intro hnone
    rw [blynkWriteV12, bind_of_crash hnone] at h
    exact h rfl
  have hlen : val.length < 256 := by
    by_contra hlong
    exact hfill (fillGenBuf_never_ends (Nat.le_of_not_lt hlong) fuel 0 _ b)
  refine ⟨hlen, ?_⟩
  by_contra hshort
  apply hfill
  apply fillGenBuf_cut hlen fuel 0 _ b (Nat.zero_le _)
  exact Nat.le_of_not_lt hshort

/-- The handler returns and stays in its arrays exactly for texts of up to 64 bytes with up
to three spaces and, after `setip`, up to three dots in the window of the argument. -/
theorem blynkWriteV12_safe_iff (toInt : List UInt8 → ℤ) (val : CString) (b : Board) :
    (∃ fuel, (blynkWriteV12 toInt fuel val.1 b).val ≠ none ∧
      Logs Index.InRange (blynkWriteV12 toInt fuel val.1) b) ↔
      val.1.length ≤ 64 ∧ val.1.count SPACE ≤ 3 ∧
        (firstWord val.1 = SETIP → ((argument SETIP val.1).take 15).count DOT ≤ 3) := by
  constructor
  · rintro ⟨fuel, hreturns, hlogs⟩
    obtain ⟨hlen, hfuel⟩ := length_of_returns hreturns
    exact (logs_blynkWriteV12 toInt hlen hfuel b).mp hlogs
  · intro h
    have hlen : val.1.length < 256 := by omega
    have hfuel : val.1.length < val.1.length + 1 := Nat.lt_succ_self _
    obtain ⟨_, _, hends, _⟩ := blynkWriteV12_ends toInt val.2 hlen hfuel b
    refine ⟨val.1.length + 1, ?_, (logs_blynkWriteV12 toInt hlen hfuel b).mpr h⟩
    rw [hends.1]
    exact Option.some_ne_none _

/-- A part too many in an address writes past the third array. -/
theorem blynkWriteV12_overruns : ¬ ∀ (toInt : List UInt8 → ℤ) (val : CString) (b : Board),
    ∃ fuel, (blynkWriteV12 toInt fuel val.1 b).val ≠ none ∧
      Logs Index.InRange (blynkWriteV12 toInt fuel val.1) b := by
  intro hall
  let val : CString := ⟨ascii ("setip 1.2.3.4.5".toList), by decide⟩
  let b := Board.reset (Board.storage fun _ => none) Board.station
  obtain ⟨fuel, hreturns, hlogs⟩ := hall leadingNumber val b
  obtain ⟨hlen, hfuel⟩ := length_of_returns hreturns
  have hdots := ((logs_blynkWriteV12 leadingNumber hlen hfuel b).mp hlogs).2.2 (by decide)
  exact absurd hdots (by decide)

end BlizzardBridge
