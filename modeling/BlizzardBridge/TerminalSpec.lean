import BlizzardBridge.Terminal
import Mathlib.Data.List.TakeWhile

/-! What the terminal does to the configuration, by the first word of the text. -/
namespace BlizzardBridge
open CArray Program

/-- Two boards differ in scratch memory only. -/
structure SameConfig (b b' : Board) : Prop where
  ram : b'.ram = b.ram
  nvs : b'.nvs = b.nvs
  netif : b'.netif = b.netif
  initDone : b'.initDone = b.initDone

theorem SameConfig.refl (b : Board) : SameConfig b b := ⟨rfl, rfl, rfl, rfl⟩

theorem SameConfig.trans {b b' b'' : Board} (h : SameConfig b b') (h' : SameConfig b' b'') :
    SameConfig b b'' where
  ram := h'.ram.trans h.ram
  nvs := h'.nvs.trans h.nvs
  netif := h'.netif.trans h.netif
  initDone := h'.initDone.trans h.initDone

def firstWord (val : List UInt8) : List UInt8 := val.takeWhile (· ≠ SPACE)

def blank (x : UInt8) : UInt8 := if x = SPACE then 0 else x

theorem firstWord_space (ys : List UInt8) : firstWord (SPACE :: ys) = [] :=
  List.takeWhile_cons_of_neg (by simp)

theorem firstWord_cons {y : UInt8} (hy : y ≠ SPACE) (ys : List UInt8) :
    firstWord (y :: ys) = y :: firstWord ys := List.takeWhile_cons_of_pos (by simp [hy])

/-- A buffer that holds the text with its spaces ended holds the first word as a string. -/
theorem cstr_eq_firstWord {val : List UInt8} (hnul : 0 ∉ val) {a : Bytes} {n : ℕ}
    (ha : ∀ k < n, a k = blank (val.getD k 0)) : cstr a n = (firstWord val).take n := by
  induction n generalizing val a with
  | zero => rfl
  | succ n ih =>
    rw [cstr_succ]
    cases val with
    | nil =>
      have h0 : a 0 = 0 := ha 0 (Nat.succ_pos n)
      rw [if_pos h0]
      rfl
    | cons x xs =>
      obtain ⟨hx, hxs⟩ := not_or.mp (mt List.mem_cons.mpr hnul)
      have h0 : a 0 = blank x := ha 0 (Nat.succ_pos n)
      -- a space is stored as a terminator and ends both
      by_cases hspace : x = SPACE
      · have hblank : a 0 = 0 := by rw [h0, blank, if_pos hspace]
        rw [if_pos hblank, hspace, firstWord_space, List.take_nil]
      · have hsame : a 0 = x := by rw [h0, blank, if_neg hspace]
        have hne : a 0 ≠ 0 := fun h => hx (h.symm.trans hsame)
        rw [if_neg hne, firstWord_cons hspace, List.take_succ_cons, hsame]
        congr 1
        apply ih hxs
        intro k hk
        exact ha (k + 1) (Nat.succ_lt_succ hk)

/-- A comparison with a word succeeds exactly when it is the first word. -/
theorem equalsString_iff {val : List UInt8} (hnul : 0 ∉ val) {a : Bytes} {literal : List UInt8}
    (ha : ∀ k ≤ literal.length, a k = blank (val.getD k 0)) :
    equalsString a literal = true ↔ firstWord val = literal := by
  have hcut : cstr a (literal.length + 1) = (firstWord val).take (literal.length + 1) :=
    cstr_eq_firstWord hnul fun k hk => ha k (Nat.le_of_lt_succ hk)
  rw [equalsString, decide_eq_true_iff, hcut]
  constructor
  · intro h
    have hlen : min (literal.length + 1) (firstWord val).length = literal.length := by
      rw [← List.length_take, h]
    rwa [List.take_of_length_le (by omega)] at h
  · intro h
    rw [h, List.take_of_length_le (Nat.le_succ _)]

def filled (val : List UInt8) (lo : ℕ) (a : Bytes) : Bytes :=
  fun k => if lo ≤ k ∧ k < val.length then blank (val.getD k 0) else a k

theorem filled_update {val : List UInt8} {i : ℕ} (hi : i < val.length) (a : Bytes) :
    filled val (i + 1) (Function.update a i (blank (val.getD i 0))) = filled val i a := by
  funext k
  unfold filled
  rw [Function.update_apply]
  by_cases hk : k = i
  · rw [if_neg (by omega), if_pos hk, if_pos (by omega), hk]
  · rw [if_neg hk]
    exact if_congr (by omega) rfl rfl

/-- What the loop over the text makes of the places behind its spaces; it begins at `i`. -/
structure Delimited (rest : List UInt8) (i : ℕ) (d d' : Delims) : Prop where
  count : d'.count.toNat = d.count.toNat + rest.count SPACE
  kept : d.count ≠ 0 → d'.indexes 0 = d.indexes 0
  first : d.count = 0 → SPACE ∈ rest → (d'.indexes 0).toNat = i + (firstWord rest).length + 1

theorem drop_eq_getD_cons {val : List UInt8} {n : ℕ} (h : n < val.length) :
    val.drop n = val.getD n 0 :: val.drop (n + 1) := by
  have hget : val[n] = val.getD n 0 := List.getElem_eq_getD 0
  rw [← hget]
  exact List.drop_eq_getElem_cons h

theorem toNat_succ_of_lt {i : UInt8} (h : i.toNat < 255) : (i + 1).toNat = i.toNat + 1 := by
  rw [UInt8.toNat_add]
  exact Nat.mod_eq_of_lt (by change i.toNat + 1 < 256; omega)

theorem Delimited.space {rest : List UInt8} {i : UInt8} {d d' : Delims} (hi : i.toNat < 255)
    (hcount : d.count.toNat ≤ i.toNat)
    (h : Delimited rest (i + 1).toNat
      ⟨Function.update d.indexes d.count.toNat (i + 1), d.count + 1⟩ d') :
    Delimited (SPACE :: rest) i.toNat d d' := by
  have hsucc : (d.count + 1).toNat = d.count.toNat + 1 := toNat_succ_of_lt (by omega)
  have hne : d.count + 1 ≠ 0 := by
    intro h0
    rw [h0] at hsucc
    exact absurd hsucc (Nat.succ_ne_zero _).symm
  have hkept : d'.indexes 0 = Function.update d.indexes d.count.toNat (i + 1) 0 := h.kept hne
  refine ⟨?_, fun hpos => ?_, fun hzero _ => ?_⟩
  · rw [h.count, List.count_cons_self]
    change (d.count + 1).toNat + _ = _
    rw [hsucc]
    omega
  · have hpos' : 0 ≠ d.count.toNat := fun h0 => hpos (UInt8.toNat_inj.mp h0.symm)
    rw [hkept, Function.update_of_ne hpos']
  · have h0 : d.count.toNat = 0 := by rw [hzero]; rfl
    rw [hkept, h0, Function.update_self, toNat_succ_of_lt hi]
    rfl

theorem Delimited.other {x : UInt8} {rest : List UInt8} {i : UInt8} {d d' : Delims}
    (hx : x ≠ SPACE) (hi : i.toNat < 255) (h : Delimited rest (i + 1).toNat d d') :
    Delimited (x :: rest) i.toNat d d' where
  count := by rw [h.count, List.count_cons_of_ne hx]
  kept := h.kept
  first hzero hmem := by
    have hrest : SPACE ∈ rest := (List.mem_cons.mp hmem).resolve_left hx.symm
    rw [h.first hzero hrest, firstWord_cons hx, toNat_succ_of_lt hi, List.length_cons]
    omega

theorem ends_fillGenBuf {val : List UInt8} (hlen : val.length < 256) (fuel : ℕ) (i : UInt8)
    (d : Delims) (b : Board) (hi : i.toNat ≤ val.length) (hcount : d.count.toNat ≤ i.toNat)
    (hfuel : val.length - i.toNat < fuel) :
    ∃ d', Delimited (val.drop i.toNat) i.toNat d d' ∧
      Ends (fillGenBuf val fuel i d) b (UInt8.ofNat val.length, d')
        { b with genBuf := filled val i.toNat b.genBuf } := by
  induction fuel generalizing i d b with
  | zero => exact absurd hfuel (Nat.not_lt_zero _)
  | succ fuel ih =>
    rw [fillGenBuf]
    by_cases hdone : val.length ≤ i.toNat
    · have hlast : i = UInt8.ofNat val.length := by
        rw [← Nat.le_antisymm hi hdone, UInt8.ofNat_toNat]
      have hsame : filled val i.toNat b.genBuf = b.genBuf := by
        funext k
        exact if_neg (by omega)
      rw [if_pos hdone, hsame, ← hlast, List.drop_eq_nil_of_le hdone]
      exact ⟨d, ⟨rfl, fun _ => rfl, fun _ h => absurd h List.not_mem_nil⟩, ends_pure⟩
    -- one more character is stored, and the index does not wrap
    · have hlt : i.toNat < val.length := Nat.lt_of_not_le hdone
      have hsucc : (i + 1).toNat = i.toNat + 1 := toNat_succ_of_lt (by omega)
      have hcons : val.drop i.toNat = val.getD i.toNat 0 :: val.drop (i + 1).toNat := by
        rw [hsucc]
        exact drop_eq_getD_cons hlt
      rw [if_neg hdone, ← filled_update hlt, ← hsucc, hcons]
      by_cases hspace : val.getD i.toNat 0 = SPACE
      · have hcount' : (d.count + 1).toNat ≤ (i + 1).toNat := by
          rw [hsucc, toNat_succ_of_lt (by omega)]
          omega
        rw [if_pos hspace, blank, if_pos hspace, hspace]
        obtain ⟨d', hdelim, hd'⟩ := ih (i + 1)
          ⟨Function.update d.indexes d.count.toNat (i + 1), d.count + 1⟩
          { b with genBuf := Function.update b.genBuf i.toNat 0 } (by omega) hcount' (by omega)
        exact ⟨d', hdelim.space (by omega) hcount, Ends.bind ends_step (Ends.bind ends_step hd')⟩
      · rw [if_neg hspace, blank, if_neg hspace]
        obtain ⟨d', hdelim, hd'⟩ := ih (i + 1) d
          { b with genBuf := Function.update b.genBuf i.toNat (val.getD i.toNat 0) }
          (by omega) (by omega) (by omega)
        exact ⟨d', hdelim.other hspace (by omega), Ends.bind ends_step hd'⟩

/-- A text of 256 bytes or more is never copied: the index wraps round. -/
theorem fillGenBuf_never_ends {val : List UInt8} (hlen : 256 ≤ val.length) (fuel : ℕ) (i : UInt8)
    (d : Delims) (b : Board) : (fillGenBuf val fuel i d b).val = none := by
  induction fuel generalizing i d b with
  | zero => rfl
  | succ fuel ih =>
    have hi := i.toNat_lt
    have hlt : ¬ val.length ≤ i.toNat := by omega
    rw [fillGenBuf, if_neg hlt]
    split
    · exact ih _ _ _
    · exact ih _ _ _

def zeroTurn (i k : ℕ) (r : Unit × Board) : Unit × Board :=
  ((), { r.2 with genBuf := Function.update r.2.genBuf (i + k) 0 })

theorem turns_zeroTurn (i n : ℕ) (b : Board) : turns (zeroTurn i) n ((), b) =
    ((), { b with genBuf := copyLoop b.genBuf i (fun _ => 0) n }) := by
  induction n with
  | zero => rfl
  | succ n ih => rw [turns, ih, zeroTurn, copyLoop]

theorem ends_zeroGenBuf (i : ℕ) (b : Board) : Ends (zeroGenBuf i) b ()
    { b with genBuf := copyLoop b.genBuf i (fun _ => 0) (GEN_BUF_SIZE - i) } := by
  have hturn (k : ℕ) (u : Unit) (b : Board) : Ends (putChar (i + k) 0) b
      (zeroTurn i k (u, b)).1 (zeroTurn i k (u, b)).2 := ends_step
  have hloop := ends_loop hturn (a := ()) (s := b) (GEN_BUF_SIZE - i)
  rwa [turns_zeroTurn] at hloop

/-- After both loops the whole buffer holds the text with its spaces ended. -/
theorem genBuf_apply (val : List UInt8) (a : Bytes) {k : ℕ} (hk : k < GEN_BUF_SIZE) :
    copyLoop (filled val 0 a) val.length (fun _ => 0) (GEN_BUF_SIZE - val.length) k =
      blank (val.getD k 0) := by
  rw [copyLoop_apply, filled]
  by_cases hlt : k < val.length
  · rw [if_neg (by omega), if_pos ⟨Nat.zero_le k, hlt⟩]
  · rw [if_pos (by omega), List.getD_eq_getElem?_getD, List.getElem?_eq_none (Nat.not_lt.mp hlt)]
    rfl

theorem equalsString_word {val literal : List UInt8} (hnul : 0 ∉ val) {b : Board}
    (hbuf : ∀ k < GEN_BUF_SIZE, b.genBuf k = blank (val.getD k 0))
    (hlen : literal.length < GEN_BUF_SIZE) :
    equalsString (fun k => b.genBuf (0 + k)) literal = true ↔ firstWord val = literal := by
  apply equalsString_iff hnul
  intro k hk
  rw [Nat.zero_add]
  exact hbuf k (Nat.lt_of_le_of_lt hk hlen)

/-- What a text does to the configuration. -/
inductive Commanded (val : List UInt8) (b : Board) : Board → Prop where
  | quiet {b'} : SameConfig b b' → Commanded val b b'
  | setname {b₀} (name : Bytes) : SameConfig b b₀ → firstWord val = SETNAME →
      Commanded val b (b₀.updateStrNvsVal .deviceName name)
  | setip {b₀} (addr : Bytes) : SameConfig b b₀ → firstWord val = SETIP →
      Commanded val b ((b₀.setIP addr).setDHCPEnable DISABLE)
  | setdhcp {b₀} (enable : UInt8) : SameConfig b b₀ → Commanded val b (b₀.setDHCPEnable enable)

/-- The word behind the command. -/
def argument (command val : List UInt8) : List UInt8 := firstWord (val.drop (command.length + 1))

/-- `setip` goes through with three dots among the first 15 bytes of its argument. -/
def AsksIP (val : List UInt8) : Prop :=
  firstWord val = SETIP ∧ ((argument SETIP val).take 15).count DOT = 3

/-- What `setdhcp` sets, if its argument is one of the two. -/
def askedDHCP (val : List UInt8) : Option UInt8 :=
  if firstWord val = SETDHCP then
    if argument SETDHCP val = ascii ['e', 'n'] then some ENABLE
    else if argument SETDHCP val = ascii ['d', 'i', 's'] then some DISABLE
    else none
  else none

/-- What a text does to the configuration, and by which part of it. -/
inductive Obeyed (val : List UInt8) (b : Board) : Board → Prop where
  | quiet {b'} : SameConfig b b' → ¬ AsksIP val → askedDHCP val = none → Obeyed val b b'
  | setname {b₀} (name : Bytes) : SameConfig b b₀ → firstWord val = SETNAME →
      Obeyed val b (b₀.updateStrNvsVal .deviceName name)
  | setip {b₀} (addr : Bytes) : SameConfig b b₀ → AsksIP val →
      Obeyed val b ((b₀.setIP addr).setDHCPEnable DISABLE)
  | setdhcp {b₀} (enable : UInt8) : SameConfig b b₀ → askedDHCP val = some enable →
      Obeyed val b (b₀.setDHCPEnable enable)

theorem Obeyed.commanded {val : List UInt8} {b b' : Board} (h : Obeyed val b b') :
    Commanded val b b' := by
  cases h with
  | quiet hsame _ _ => exact .quiet hsame
  | setname name hsame hw => exact .setname name hsame hw
  | setip addr hsame hasks => exact .setip addr hsame hasks.1
  | setdhcp enable hsame _ => exact .setdhcp enable hsame

theorem not_asksIP {val word : List UInt8} (hw : firstWord val = word) (hne : word ≠ SETIP) :
    ¬ AsksIP val := fun h => hne (hw.symm.trans h.1)

theorem askedDHCP_none {val word : List UInt8} (hw : firstWord val = word) (hne : word ≠ SETDHCP) :
    askedDHCP val = none := if_neg fun h => hne (hw.symm.trans h)

section arguments
variable {val word : List UInt8} {d : Delims}

theorem Delimited.argument_nil (h : Delimited val 0 ⟨fun _ => 0, 0⟩ d) (hw : firstWord val = word)
    (hzero : d.count = 0) : argument word val = [] := by
  have hcount : val.count SPACE = 0 := by
    have hsum := h.count
    rw [hzero] at hsum
    exact (Nat.zero_add _).symm.trans hsum.symm
  have hall : firstWord val = val := by
    apply List.takeWhile_eq_self_iff.mpr
    intro x hx
    have hne : x ≠ SPACE := fun h => List.count_eq_zero.mp hcount (h ▸ hx)
    exact decide_eq_true hne
  rw [argument, ← hw, hall, List.drop_eq_nil_of_le (Nat.le_succ _)]
  rfl

theorem Delimited.argument_index (h : Delimited val 0 ⟨fun _ => 0, 0⟩ d) (hw : firstWord val = word)
    (hpos : d.count ≠ 0) : (d.indexes 0).toNat = word.length + 1 := by
  have hmem : SPACE ∈ val := by
    by_contra hno
    have hsum := h.count
    rw [List.count_eq_zero.mpr hno] at hsum
    exact hpos (UInt8.toNat_inj.mp hsum)
  rw [h.first rfl hmem, hw, Nat.zero_add]

theorem genBuf_argument {a : Bytes} (ha : ∀ k < GEN_BUF_SIZE, a k = blank (val.getD k 0))
    {start k : ℕ} (hk : start + k < GEN_BUF_SIZE) :
    a (start + k) = blank ((val.drop start).getD k 0) := by
  rw [ha _ hk, List.getD_eq_getElem?_getD, List.getD_eq_getElem?_getD, List.getElem?_drop]

/-- The window of an address lies in the buffer. -/
theorem genBuf_setip {a : Bytes} (ha : ∀ k < GEN_BUF_SIZE, a k = blank (val.getD k 0)) :
    ∀ n < 15, a (SETIP.length + 1 + (0 + n)) = blank ((val.drop (SETIP.length + 1)).getD n 0) := by
  intro n hn
  rw [Nat.zero_add]
  apply genBuf_argument ha
  change 6 + n < 64
  omega

/-- Behind a character that is dealt with, the buffer still holds the rest of the text. -/
theorem genBuf_rest {a a' : Bytes} {y : UInt8} {ys : List UInt8} {start i k : ℕ}
    (ha : ∀ n < k + 1, a (start + (i + n)) = blank ((y :: ys).getD n 0))
    (hsame : ∀ m ≠ start + i, a' m = a m) :
    ∀ n < k, a' (start + (i + 1 + n)) = blank (ys.getD n 0) := by
  intro n hn
  have hnext := ha (n + 1) (Nat.succ_lt_succ hn)
  rw [hsame _ (by omega), Nat.add_right_comm i 1 n]
  exact hnext

end arguments

section commands
variable {b₀ b : Board} (h : SameConfig b₀ b)
include h

theorem quiet_bind {α β : Type} {log : List Index} {g : Board → α × Board} {f : α → Terminal β}
    {Q : β → Board → Prop} (hg : SameConfig b (g b).2)
    (hf : ∀ a b', SameConfig b₀ b' → EndsIn Q (f a) b') : EndsIn Q (step log g >>= f) b := by
  have hstep : Ends (step log g) b (g b).1 (g b).2 := ends_step
  apply endsIn_bind_of_ends hstep
  exact hf _ _ (h.trans hg)

/-- The loop finds the dots of its argument, and ends it at each. -/
theorem splitIP_dots {rest : List UInt8} (hnul : 0 ∉ rest) (start k i : ℕ) (ipIndex : Bytes) (j : ℕ)
    (hbuf : ∀ n < k, b.genBuf (start + (i + n)) = blank (rest.getD n 0)) :
    EndsIn (fun r b' => r.2 = j + ((firstWord rest).take k).count DOT ∧ SameConfig b₀ b')
      (splitIP start k i ipIndex j) b := by
  induction k generalizing rest i ipIndex j b with
  | zero => exact endsIn_of_ends ends_pure ⟨rfl, h⟩
  | succ k ih =>
    have hread : b.genBuf (start + i) = blank (rest.getD 0 0) := hbuf 0 (Nat.succ_pos k)
    have hget : Ends (getChar (start + i)) b (b.genBuf (start + i)) b := ends_step
    rw [hread] at hget
    apply endsIn_bind_of_ends hget
    cases rest with
    | nil => exact endsIn_of_ends ends_pure ⟨rfl, h⟩
    | cons y ys =>
      obtain ⟨hy, hys⟩ := not_or.mp (mt List.mem_cons.mpr hnul)
      change EndsIn _ (if blank y = DOT then _ else if blank y = 0 then _ else _) b
      by_cases hspace : y = SPACE
      · have hblank : blank y = 0 := if_pos hspace
        rw [hblank, if_neg (by decide), if_pos rfl, hspace, firstWord_space]
        exact endsIn_of_ends ends_pure ⟨rfl, h⟩
      · have hblank : blank y = y := if_neg hspace
        rw [hblank, if_neg (Ne.symm hy), firstWord_cons hspace, List.take_succ_cons]
        by_cases hdot : y = DOT
        · rw [if_pos hdot, hdot, List.count_cons_self, Nat.add_comm _ 1, ← Nat.add_assoc]
          let b₁ : Board := { b with genBuf := Function.update b.genBuf (start + i) 0 }
          have h₁ : SameConfig b₀ b₁ := h.trans ⟨rfl, rfl, rfl, rfl⟩
          have hput : Ends (putChar (start + i) 0) b () b₁ := ends_step
          have hemit : Ends (emit (Index.ipIndex j)) b₁ () b₁ := ends_step
          apply endsIn_bind_of_ends hput
          apply endsIn_bind_of_ends hemit
          apply ih h₁ hys
          apply genBuf_rest hbuf
          intro m hm
          exact Function.update_of_ne hm _ _
        · rw [if_neg hdot, List.count_cons_of_ne hdot]
          exact ih h hys _ _ _ (genBuf_rest hbuf fun _ _ => rfl)

theorem putOctet_quiet (toInt : List UInt8 → ℤ) (n i : ℕ) :
    EndsIn (fun _ b' => SameConfig b₀ b') (putOctet toInt n i) b :=
  endsIn_of_ends (Ends.bind ends_step ends_step) (h.trans ⟨rfl, rfl, rfl, rfl⟩)

theorem setnameCommand_ends {val : List UInt8} (hw : firstWord val = SETNAME) (d : Delims) :
    EndsIn (fun _ b' => Obeyed val b₀ b') (setnameCommand d) b := by
  have hip : ¬ AsksIP val := not_asksIP hw (by decide)
  have hdhcp : askedDHCP val = none := askedDHCP_none hw (by decide)
  unfold setnameCommand
  split
  · exact endsIn_of_ends ends_pure (.quiet h hip hdhcp)
  · apply quiet_bind h ⟨rfl, rfl, rfl, rfl⟩
    intro start b₁ h₁
    apply quiet_bind h₁ ⟨rfl, rfl, rfl, rfl⟩
    intro name b₂ h₂
    exact endsIn_of_ends ends_step (.setname name h₂ hw)

section buffer
variable {val : List UInt8} (hnul : 0 ∉ val) {d : Delims}
  (hd : Delimited val 0 ⟨fun _ => 0, 0⟩ d)
  (hbuf : ∀ k < GEN_BUF_SIZE, b.genBuf k = blank (val.getD k 0))
include hnul hd hbuf

theorem setipCommand_ends (toInt : List UInt8 → ℤ) (hw : firstWord val = SETIP) :
    EndsIn (fun _ b' => Obeyed val b₀ b') (setipCommand toInt d) b := by
  have hdhcp : askedDHCP val = none := askedDHCP_none hw (by decide)
  have hrest : 0 ∉ val.drop (SETIP.length + 1) := fun hmem => hnul (List.mem_of_mem_drop hmem)
  unfold setipCommand
  by_cases hzero : d.count = 0
  · have hip : ¬ AsksIP val := by
      rintro ⟨_, hdots⟩
      rw [hd.argument_nil hw hzero] at hdots
      exact absurd hdots (by decide)
    rw [if_pos hzero]
    exact endsIn_of_ends ends_pure (.quiet h hip hdhcp)
  · have hstart : Ends (argumentAt d) b (d.indexes 0).toNat b := ends_step
    rw [hd.argument_index hw hzero] at hstart
    rw [if_neg hzero]
    apply endsIn_bind_of_ends hstart
    apply (splitIP_dots h hrest _ 15 0 _ 0 (genBuf_setip hbuf)).bind
    rintro parts b₂ ⟨hdots, h₂⟩
    rw [Nat.zero_add] at hdots
    by_cases hthree : parts.2 = 3
    · have hasks : AsksIP val := ⟨hw, hdots.symm.trans hthree⟩
      rw [if_neg (not_not.mpr hthree)]
      -- four octets, each before the index of the next is looked up
      apply (putOctet_quiet h₂ toInt _ _).bind
      intro _ b₃ h₃
      apply quiet_bind h₃ ⟨rfl, rfl, rfl, rfl⟩
      intro _ b₄ h₄
      apply (putOctet_quiet h₄ toInt _ _).bind
      intro _ b₅ h₅
      apply quiet_bind h₅ ⟨rfl, rfl, rfl, rfl⟩
      intro _ b₆ h₆
      apply (putOctet_quiet h₆ toInt _ _).bind
      intro _ b₇ h₇
      apply quiet_bind h₇ ⟨rfl, rfl, rfl, rfl⟩
      intro _ b₈ h₈
      apply (putOctet_quiet h₈ toInt _ _).bind
      intro _ b₉ h₉
      exact endsIn_of_ends (Ends.bind ends_step ends_step) (.setip b₉.ip h₉ hasks)
    · have hip : ¬ AsksIP val := fun hasks => hthree (hdots.trans hasks.2)
      rw [if_pos hthree]
      exact endsIn_of_ends ends_pure (.quiet h₂ hip hdhcp)

theorem setdhcpCommand_ends (hw : firstWord val = SETDHCP) :
    EndsIn (fun _ b' => Obeyed val b₀ b') (setdhcpCommand d) b := by
  have hip : ¬ AsksIP val := not_asksIP hw (by decide)
  have hrest : 0 ∉ val.drop (SETDHCP.length + 1) := fun hmem => hnul (List.mem_of_mem_drop hmem)
  have hasked (x : Option UInt8) (hx : (if argument SETDHCP val = ascii ['e', 'n'] then some ENABLE
      else if argument SETDHCP val = ascii ['d', 'i', 's'] then some DISABLE else none) = x) :
      askedDHCP val = x := (if_pos hw).trans hx
  unfold setdhcpCommand
  by_cases hzero : d.count = 0
  · have hnil : argument SETDHCP val = [] := hd.argument_nil hw hzero
    rw [if_pos hzero]
    exact endsIn_of_ends ends_pure (.quiet h hip (hasked _ (by rw [hnil]; rfl)))
  · have hstart : Ends (argumentAt d) b (d.indexes 0).toNat b := ends_step
    rw [hd.argument_index hw hzero] at hstart
    have htext : Ends (charsAt (SETDHCP.length + 1)) b
        (fun k => b.genBuf (SETDHCP.length + 1 + k)) b := ends_step
    have hword (literal : List UInt8) (hlen : literal.length ≤ 3) :
        equalsString (fun k => b.genBuf (SETDHCP.length + 1 + k)) literal = true ↔
          argument SETDHCP val = literal := by
      apply equalsString_iff hrest
      intro k hk
      apply genBuf_argument hbuf
      change 8 + k < 64
      omega
    rw [if_neg hzero]
    apply endsIn_bind_of_ends hstart
    apply endsIn_bind_of_ends htext
    have hen := hword (ascii ['e', 'n']) (by decide)
    have hdis := hword (ascii ['d', 'i', 's']) (by decide)
    split_ifs with hsaysEn hsaysDis
    · have henable : askedDHCP val = some ENABLE := hasked _ (if_pos (hen.mp hsaysEn))
      exact endsIn_of_ends ends_step (.setdhcp ENABLE h henable)
    · have hdisable : askedDHCP val = some DISABLE :=
        hasked _ (by rw [if_neg (mt hen.mpr hsaysEn), if_pos (hdis.mp hsaysDis)])
      exact endsIn_of_ends ends_step (.setdhcp DISABLE h hdisable)
    · have hnone : askedDHCP val = none :=
        hasked _ (by rw [if_neg (mt hen.mpr hsaysEn), if_neg (mt hdis.mpr hsaysDis)])
      exact endsIn_of_ends ends_pure (.quiet h hip hnone)

theorem runCommand_ends (toInt : List UInt8 → ℤ) :
    EndsIn (fun _ b' => Obeyed val b₀ b') (runCommand toInt val d) b := by
  have hword {literal : List UInt8} (hlen : literal.length < GEN_BUF_SIZE) :
      equalsString (fun k => b.genBuf (0 + k)) literal = true ↔ firstWord val = literal :=
    equalsString_word hnul hbuf hlen
  have htext : Ends (charsAt 0) b (fun k => b.genBuf (0 + k)) b := ends_step
  apply endsIn_bind_of_ends htext
  split_ifs with hhelp hname hip hdhcp
  · have hfirst : firstWord val = ascii ['h', 'e', 'l', 'p'] := by rw [hhelp]; rfl
    have hquiet := Obeyed.quiet h (not_asksIP hfirst (by decide)) (askedDHCP_none hfirst (by decide))
    exact endsIn_of_ends ends_pure hquiet
  · exact setnameCommand_ends h ((hword (by decide)).mp hname) d
  · exact setipCommand_ends h hnul hd hbuf toInt ((hword (by decide)).mp hip)
  · exact setdhcpCommand_ends h hnul hd hbuf ((hword (by decide)).mp hdhcp)
  · have hnoip : firstWord val ≠ SETIP := mt (hword (by decide)).mpr hip
    have hnodhcp : firstWord val ≠ SETDHCP := mt (hword (by decide)).mpr hdhcp
    have hquiet := Obeyed.quiet h (not_asksIP rfl hnoip) (askedDHCP_none rfl hnodhcp)
    exact endsIn_of_ends ends_pure hquiet

end buffer

end commands

/-- Once the buffer holds the text with its spaces ended, the command alone counts. -/
theorem blynkWriteV12_of_runCommand {Q : Unit → Board → Prop} {toInt : List UInt8 → ℤ}
    {val : List UInt8} (hlen : val.length < 256) {fuel : ℕ} (hfuel : val.length < fuel) {b : Board}
    (h : ∀ d b₁, Delimited val 0 ⟨fun _ => 0, 0⟩ d → SameConfig b b₁ →
      (∀ k < GEN_BUF_SIZE, b₁.genBuf k = blank (val.getD k 0)) →
      EndsIn Q (runCommand toInt val d) b₁) :
    EndsIn Q (blynkWriteV12 toInt fuel val) b := by
  obtain ⟨d, hd, hfill⟩ :=
    ends_fillGenBuf hlen fuel 0 ⟨fun _ => 0, 0⟩ b (Nat.zero_le _) le_rfl hfuel
  have hlast : (UInt8.ofNat val.length).toNat = val.length := by
    rw [UInt8.toNat_ofNat']
    exact Nat.mod_eq_of_lt hlen
  apply endsIn_bind_of_ends hfill
  apply endsIn_bind_of_ends (ends_zeroGenBuf _ _)
  apply h d _ hd
  · exact ⟨rfl, rfl, rfl, rfl⟩
  · intro k hk
    simp only [hlast]
    exact genBuf_apply val b.genBuf hk

/-- A text of fewer than 256 bytes is handled to its end. -/
theorem blynkWriteV12_ends (toInt : List UInt8 → ℤ) {val : List UInt8} (hnul : 0 ∉ val)
    (hlen : val.length < 256) {fuel : ℕ} (hfuel : val.length < fuel) (b : Board) :
    EndsIn (fun _ b' => Obeyed val b b') (blynkWriteV12 toInt fuel val) b := by
  apply blynkWriteV12_of_runCommand hlen hfuel
  intro d b₁ hd hsame hbuf
  exact runCommand_ends hsame hnul hd hbuf toInt

end BlizzardBridge
