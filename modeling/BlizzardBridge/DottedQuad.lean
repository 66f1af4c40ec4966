import BlizzardBridge.ConfigEffect
import BlizzardBridge.TerminalSpec

/-! The address that `setip` reads from its argument, against the dotted quads. -/
namespace BlizzardBridge
open CArray Program

def DIGITS : List UInt8 := ascii ['0', '1', '2', '3', '4', '5', '6', '7', '8', '9']

/-- The number that a string of digits writes. -/
def decimal (s : List UInt8) : ℕ := s.foldl (fun n x => 10 * n + (x.toNat - 0x30)) 0

/-- A decimal number between 0 and 255. -/
structure Octet (s : List UInt8) (x : UInt8) : Prop where
  nonempty : s ≠ []
  digits : ∀ c ∈ s, c ∈ DIGITS
  value : decimal s = x.toNat

def joined (p q r s : List UInt8) : List UInt8 := p ++ DOT :: (q ++ DOT :: (r ++ DOT :: s))

theorem not_mem_joined {p q r s : List UInt8} {x : UInt8} (h : x ∉ joined p q r s) :
    x ∉ p ∧ x ∉ q ∧ x ∉ r ∧ x ∉ s := by
  simp only [joined, List.mem_append, List.mem_cons, not_or] at h
  obtain ⟨hp, _, hq, _, hr, _, hs⟩ := h
  exact ⟨hp, hq, hr, hs⟩

def DottedQuad (w : List UInt8) (x y z t : UInt8) : Prop :=
  ∃ p q r s, w = joined p q r s ∧ Octet p x ∧ Octet q y ∧ Octet r z ∧ Octet s t

def IsDottedQuad (w : List UInt8) : Prop := ∃ x y z t, DottedQuad w x y z t

/-- What the source relies on `String.toInt` for. -/
def ReadsOctets (toInt : List UInt8 → ℤ) : Prop := ∀ s x, Octet s x → toInt s = x.toNat

/-- The leading digits as a number, 0 without any. -/
def leadingNumber (s : List UInt8) : ℤ := decimal (s.takeWhile (· ∈ DIGITS))

theorem leadingNumber_readsOctets : ReadsOctets leadingNumber := by
  intro s x h
  have hall : s.takeWhile (· ∈ DIGITS) = s :=
    List.takeWhile_eq_self_iff.mpr fun c hc => decide_eq_true (h.digits c hc)
  rw [leadingNumber, hall, h.value]

theorem Octet.no_dot {s : List UInt8} {x : UInt8} (h : Octet s x) : DOT ∉ s := by
  intro hmem
  exact absurd (h.digits DOT hmem) (by decide)

section split
variable {start : ℕ} {b : Board}

/-- A part and the dot behind it take the loop to the next part. -/
theorem splitIP_part {p : List UInt8} (hdot : DOT ∉ p) (hnul : 0 ∉ p) {k i j : ℕ} {ipIndex : Bytes}
    (hbuf : Holds b.genBuf (start + i) (p ++ [DOT])) {r : Bytes × ℕ} {b' : Board}
    (h : Ends (splitIP start k (i + p.length + 1)
        (Function.update ipIndex j (i + p.length + 1).toUInt8) (j + 1))
      { b with genBuf := Function.update b.genBuf (start + i + p.length) 0 } r b') :
    Ends (splitIP start (k + p.length + 1) i ipIndex j) b r b' := by
  induction p generalizing i with
  | nil =>
    have hread : b.genBuf (start + i) = DOT := hbuf.1
    have hget : Ends (getChar (start + i)) b (b.genBuf (start + i)) b := ends_step
    rw [hread] at hget
    apply hget.bind
    rw [if_pos rfl]
    exact Ends.bind ends_step (Ends.bind ends_step h)
  | cons x xs ih =>
    obtain ⟨hxdot, hxsdot⟩ := not_or.mp (mt List.mem_cons.mpr hdot)
    obtain ⟨hx, hxs⟩ := not_or.mp (mt List.mem_cons.mpr hnul)
    have hread : b.genBuf (start + i) = x := hbuf.1
    have hget : Ends (getChar (start + i)) b (b.genBuf (start + i)) b := ends_step
    have hlast : i + (x :: xs).length = i + 1 + xs.length := by
      rw [List.length_cons]
      omega
    rw [hread] at hget
    rw [hlast, Nat.add_assoc start i, hlast, ← Nat.add_assoc start] at h
    apply hget.bind
    rw [if_neg (Ne.symm hxdot), if_neg (Ne.symm hx)]
    exact ih hxsdot hxs hbuf.2 h

/-- Without a dot in the rest of the window the loop changes nothing any more. -/
theorem splitIP_last {s : List UInt8} (hnul : 0 ∉ s) {k i j : ℕ} {ipIndex : Bytes}
    (hdot : DOT ∉ s.take k) (hbuf : Holds b.genBuf (start + i) (s ++ [0])) :
    Ends (splitIP start k i ipIndex j) b (ipIndex, j) b := by
  induction k generalizing s i with
  | zero => exact ends_pure
  | succ k ih =>
    have hget : Ends (getChar (start + i)) b (b.genBuf (start + i)) b := ends_step
    apply hget.bind
    cases s with
    | nil =>
      have hread : b.genBuf (start + i) = 0 := hbuf.1
      rw [hread, if_neg (by decide), if_pos rfl]
      exact ends_pure
    | cons x xs =>
      rw [List.take_succ_cons] at hdot
      obtain ⟨hxdot, hxsdot⟩ := not_or.mp (mt List.mem_cons.mpr hdot)
      obtain ⟨hx, hxs⟩ := not_or.mp (mt List.mem_cons.mpr hnul)
      have hread : b.genBuf (start + i) = x := hbuf.1
      rw [hread, if_neg (Ne.symm hxdot), if_neg (Ne.symm hx)]
      exact ih hxs hxsdot hbuf.2

end split

/-- Where the parts behind the first begin. -/
def partStarts (p q r : List UInt8) : Bytes :=
  Function.update (Function.update (Function.update (fun _ => 0) 0 (p.length + 1).toUInt8)
    1 (p.length + 1 + q.length + 1).toUInt8) 2 (p.length + 1 + q.length + 1 + r.length + 1).toUInt8

/-- Each of the four parts stands in the buffer as a string. -/
structure SplitAt (a : Bytes) (start : ℕ) (p q r s : List UInt8) : Prop where
  first : Holds a start (p ++ [0])
  second : Holds a (start + (p.length + 1)) (q ++ [0])
  third : Holds a (start + (p.length + 1 + q.length + 1)) (r ++ [0])
  fourth : Holds a (start + (p.length + 1 + q.length + 1 + r.length + 1)) (s ++ [0])

/-- The argument falls into four parts at three dots in the window, with none behind them. -/
structure Window (p q r s : List UInt8) : Prop where
  first : DOT ∉ p
  second : DOT ∉ q
  third : DOT ∉ r
  fourth : DOT ∉ s.take (15 - (p.length + 1 + q.length + 1 + r.length + 1))
  length : p.length + 1 + q.length + 1 + r.length + 1 ≤ 15

theorem splitIP_joined {p q r s : List UInt8} (hw : Window p q r s) (hnul : 0 ∉ joined p q r s)
    {start : ℕ} {b : Board} (hbuf : Holds b.genBuf start (joined p q r s ++ [0])) :
    ∃ a, SplitAt a start p q r s ∧
      Ends (splitIP start 15 0 (fun _ => 0) 0) b (partStarts p q r, 3) { b with genBuf := a } := by
  obtain ⟨hp, hq, hr, hs⟩ := not_mem_joined hnul
  have hlength := hw.length
  let i := p.length + 1
  let j := i + q.length + 1
  let m := j + r.length + 1
  have hparts : joined p q r s ++ [0] =
      (p ++ [DOT]) ++ ((q ++ [DOT]) ++ ((r ++ [DOT]) ++ (s ++ [0]))) := by
    simp only [joined, List.append_assoc, List.cons_append, List.nil_append]
  have hlen (t : List UInt8) : (t ++ [DOT]).length = t.length + 1 := List.length_append
  rw [hparts] at hbuf
  obtain ⟨h1, hbuf⟩ := holds_append.mp hbuf
  obtain ⟨h2, hbuf⟩ := holds_append.mp hbuf
  obtain ⟨h3, h4⟩ := holds_append.mp hbuf
  simp only [hlen] at h2 h3 h4
  have hj : start + (p.length + 1) + (q.length + 1) = start + j := by omega
  have hm : start + j + (r.length + 1) = start + m := by omega
  rw [hj] at h3 h4
  rw [hm] at h4
  -- the dots are ended from the left to the right
  let a₁ := Function.update b.genBuf (start + p.length) 0
  let a₂ := Function.update a₁ (start + i + q.length) 0
  let a₃ := Function.update a₂ (start + j + r.length) 0
  have h2₁ : Holds a₁ (start + i) (q ++ [DOT]) := h2.update_of_lt (by omega) 0
  have h3₂ : Holds a₂ (start + j) (r ++ [DOT]) :=
    (h3.update_of_lt (by omega) 0).update_of_lt (by omega) 0
  have h4₃ : Holds a₃ (start + m) (s ++ [0]) :=
    ((h4.update_of_lt (by omega) 0).update_of_lt (by omega) 0).update_of_lt (by omega) 0
  refine ⟨a₃, ⟨?_, ?_, h3₂.terminated, h4₃⟩, ?_⟩
  · have hp₁ : Holds a₁ start (p ++ [0]) := h1.terminated
    apply (hp₁.update_of_ge _ 0).update_of_ge
    · rw [List.length_append, List.length_singleton]
      omega
    · rw [List.length_append, List.length_singleton]
      omega
  · have hq₂ : Holds a₂ (start + i) (q ++ [0]) := h2₁.terminated
    apply hq₂.update_of_ge
    rw [List.length_append, List.length_singleton]
    omega
  · obtain ⟨k, hk⟩ : ∃ k, 15 = k + r.length + 1 + q.length + 1 + p.length + 1 :=
      ⟨15 - m, by omega⟩
    have hlast : DOT ∉ s.take k := by
      have hrest : k = 15 - (p.length + 1 + q.length + 1 + r.length + 1) := by omega
      rw [hrest]
      exact hw.fourth
    rw [hk]
    apply splitIP_part hw.first hp h1
    rw [Nat.zero_add]
    apply splitIP_part hw.second hq h2₁
    apply splitIP_part hw.third hr h3₂
    exact splitIP_last hs hlast h4₃

theorem partStarts_toNat {p q r s : List UInt8} (hw : Window p q r s) :
    (partStarts p q r 0).toNat = p.length + 1 ∧
      (partStarts p q r 1).toNat = p.length + 1 + q.length + 1 ∧
      (partStarts p q r 2).toNat = p.length + 1 + q.length + 1 + r.length + 1 := by
  have hlength := hw.length
  have hbyte (n : ℕ) (hn : n < 256) : n.toUInt8.toNat = n := by
    rw [Nat.toUInt8, UInt8.toNat_ofNat']
    exact Nat.mod_eq_of_lt hn
  refine ⟨?_, ?_, ?_⟩
  · exact hbyte (p.length + 1) (by omega)
  · exact hbyte (p.length + 1 + q.length + 1) (by omega)
  · exact hbyte (p.length + 1 + q.length + 1 + r.length + 1) (by omega)

/-- A part that stands in the buffer as a string goes to its octet. -/
theorem ends_putOctet (toInt : List UInt8 → ℤ) {b : Board} {n i : ℕ} {p : List UInt8} (hnul : 0 ∉ p)
    (hlen : p.length < NVS_STR_MAX) (h : Holds b.genBuf i (p ++ [0])) :
    Ends (putOctet toInt n i) b ()
      { b with ip := Function.update b.ip n (UInt8.ofInt (toInt p)) } := by
  have hchars : Ends (charsAt i) b (fun k => b.genBuf (i + k)) b := ends_step
  apply hchars.bind
  rw [← cstr_of_holds hnul h hlen]
  exact ends_step

/-- The address holds four numbers in the order in which they are written. -/
structure HoldsOctets (addr : Bytes) (a b c d : UInt8) : Prop where
  first : addr 3 = a
  second : addr 2 = b
  third : addr 1 = c
  fourth : addr 0 = d

/-- `setIP` has been called with four numbers, and DHCP disabled. -/
def AddressSet (b b' : Board) (x y z w : UInt8) : Prop :=
  ∃ b₀, SameConfig b b₀ ∧ HoldsOctets b₀.ip x y z w ∧ b' = (b₀.setIP b₀.ip).setDHCPEnable DISABLE

theorem setipCommand_joined (toInt : List UInt8 → ℤ) {p q r s : List UInt8} (hw : Window p q r s)
    (hnul : 0 ∉ joined p q r s) (hlen : s.length < NVS_STR_MAX) {d : Delims} {start : ℕ} {b : Board}
    (hpos : d.count ≠ 0) (hstart : (d.indexes 0).toNat = start)
    (hbuf : Holds b.genBuf start (joined p q r s ++ [0])) :
    EndsIn (fun _ b' => AddressSet b b' (UInt8.ofInt (toInt p)) (UInt8.ofInt (toInt q))
      (UInt8.ofInt (toInt r)) (UInt8.ofInt (toInt s))) (setipCommand toInt d) b := by
  obtain ⟨hp, hq, hr, hs⟩ := not_mem_joined hnul
  have hlength := hw.length
  have hshort : 15 < NVS_STR_MAX := by decide
  obtain ⟨a, hsplit, hloop⟩ := splitIP_joined hw hnul hbuf
  obtain ⟨h0, h1, h2⟩ := partStarts_toNat hw
  have hargument : Ends (argumentAt d) b (d.indexes 0).toNat b := ends_step
  have hemit (e : Index) (b : Board) : Ends (emit e) b () b := ends_step
  rw [hstart] at hargument
  rw [setipCommand, if_neg hpos]
  apply endsIn_bind_of_ends hargument
  apply endsIn_bind_of_ends hloop
  rw [if_neg (not_not.mpr rfl)]
  apply endsIn_bind_of_ends (ends_putOctet toInt hp (by omega) hsplit.first)
  apply endsIn_bind_of_ends (hemit _ _)
  rw [h0, h1, h2]
  apply endsIn_bind_of_ends (ends_putOctet toInt hq (by omega) hsplit.second)
  apply endsIn_bind_of_ends (hemit _ _)
  apply endsIn_bind_of_ends (ends_putOctet toInt hr (by omega) hsplit.third)
  apply endsIn_bind_of_ends (hemit _ _)
  apply endsIn_bind_of_ends (ends_putOctet toInt hs hlen hsplit.fourth)
  let octet (t : List UInt8) : UInt8 := UInt8.ofInt (toInt t)
  let ip₁ := Function.update (Function.update b.ip 3 (octet p)) 2 (octet q)
  let ip₂ := Function.update (Function.update ip₁ 1 (octet r)) 0 (octet s)
  refine endsIn_of_ends (Ends.bind ends_step ends_step) ?_
  exact ⟨{ b with genBuf := a, ip := ip₂ }, ⟨rfl, rfl, rfl, rfl⟩, ⟨rfl, rfl, rfl, rfl⟩, rfl⟩

section grammar

/-- The first dot of a window ends a part, and the others follow in what is left of it. -/
theorem split_first {w : List UInt8} {n c : ℕ} (h : (w.take n).count DOT = c + 1) :
    ∃ p q, w = p ++ DOT :: q ∧ DOT ∉ p ∧ p.length + 1 ≤ n ∧
      (q.take (n - (p.length + 1))).count DOT = c := by
  have hmem : DOT ∈ w.take n := List.count_pos_iff.mp (by omega)
  obtain ⟨p, t, ht, hp⟩ := List.eq_append_cons_of_mem hmem
  have hn : p.length + 1 ≤ n := by
    have hle : (w.take n).length ≤ n := List.length_take_le n w
    rw [ht, List.length_append, List.length_cons] at hle
    omega
  have hw : w = p ++ DOT :: (t ++ w.drop n) := by
    conv_lhs => rw [← List.take_append_drop n w, ht]
    rw [List.append_assoc, List.cons_append]
  obtain ⟨k, rfl⟩ : ∃ k, n = p.length + (k + 1) := ⟨n - (p.length + 1), by omega⟩
  refine ⟨p, t ++ w.drop (p.length + (k + 1)), hw, hp, hn, ?_⟩
  rw [hw, List.take_length_add_append, List.take_succ_cons, List.count_append,
    List.count_eq_zero.mpr hp, List.count_cons_self] at h
  have hk : p.length + (k + 1) - (p.length + 1) = k := by omega
  rw [hk]
  omega

theorem exists_window {w : List UInt8} (h : (w.take 15).count DOT = 3) :
    ∃ p q r s, w = joined p q r s ∧ Window p q r s := by
  obtain ⟨p, w₁, rfl, hp, hn, h₁⟩ := split_first h
  obtain ⟨q, w₂, rfl, hq, hn₁, h₂⟩ := split_first h₁
  obtain ⟨r, s, rfl, hr, hn₂, h₃⟩ := split_first h₂
  refine ⟨p, q, r, s, rfl, hp, hq, hr, ?_, by omega⟩
  have hlength : 15 - (p.length + 1 + q.length + 1 + r.length + 1) =
      15 - (p.length + 1) - (q.length + 1) - (r.length + 1) := by omega
  rw [hlength]
  exact List.count_eq_zero.mp h₃

/-- A dotted quad has three dots; if they all lie in the window, so do its first three parts. -/
theorem window_of_octets {p q r s : List UInt8} {x y z t : UInt8} (hp : Octet p x) (hq : Octet q y)
    (hr : Octet r z) (hs : Octet s t) (h : ((joined p q r s).take 15).count DOT = 3) :
    Window p q r s where
  first := hp.no_dot
  second := hq.no_dot
  third := hr.no_dot
  fourth hmem := hs.no_dot (List.mem_of_mem_take hmem)
  length := by
    have hall : (joined p q r s).count DOT = 3 := by
      simp only [joined, List.count_append, List.count_cons_self, List.count_eq_zero.mpr hp.no_dot,
        List.count_eq_zero.mpr hq.no_dot, List.count_eq_zero.mpr hr.no_dot,
        List.count_eq_zero.mpr hs.no_dot]
    have hsum : ((joined p q r s).take 15).count DOT + ((joined p q r s).drop 15).count DOT = 3 := by
      rw [← List.count_append, List.take_append_drop, hall]
    have hbehind : DOT ∉ (joined p q r s).drop 15 := List.count_eq_zero.mp (by omega)
    by_contra hlong
    apply hbehind
    have hparts : joined p q r s = (p ++ DOT :: (q ++ DOT :: r)) ++ DOT :: s := by
      simp only [joined, List.append_assoc, List.cons_append]
    have hprefix : 15 ≤ (p ++ DOT :: (q ++ DOT :: r)).length := by
      simp only [List.length_append, List.length_cons]
      omega
    rw [hparts, List.drop_append_of_le_length hprefix]
    exact List.mem_append_right _ List.mem_cons_self

theorem takeWhile_joined {p q r s : List UInt8} (hp : DOT ∉ p) :
    (joined p q r s).takeWhile (· ≠ DOT) = p := by
  have hall : ∀ c ∈ p, decide (c ≠ DOT) = true := by
    intro c hc
    exact decide_eq_true fun h => hp (h ▸ hc)
  rw [joined, List.takeWhile_append_of_pos hall, List.takeWhile_cons_of_neg (by simp),
    List.append_nil]

end grammar

/-- A word that is followed by a space or by the end of the text stands in the buffer as
a string. -/
theorem holds_firstWord {rest : List UInt8} {a : Bytes} {i : ℕ}
    (ha : ∀ n ≤ (firstWord rest).length, a (i + n) = blank (rest.getD n 0)) :
    Holds a i (firstWord rest ++ [0]) := by
  induction rest generalizing i with
  | nil => exact ⟨ha 0 le_rfl, trivial⟩
  | cons x xs ih =>
    have hhead : a i = blank x := ha 0 (Nat.zero_le _)
    by_cases hspace : x = SPACE
    · rw [hspace, firstWord_space]
      exact ⟨hhead.trans (if_pos hspace), trivial⟩
    · rw [firstWord_cons hspace] at ha ⊢
      refine ⟨hhead.trans (if_neg hspace), ih ?_⟩
      intro n hn
      have hnext := ha (n + 1) (Nat.succ_le_succ hn)
      rwa [← Nat.add_assoc, Nat.add_right_comm] at hnext

theorem runCommand_setip {toInt : List UInt8 → ℤ} {val : List UInt8} (hnul : 0 ∉ val) {d : Delims}
    {b : Board} (hbuf : ∀ k < GEN_BUF_SIZE, b.genBuf k = blank (val.getD k 0))
    (hword : firstWord val = SETIP) {Q : Unit → Board → Prop}
    (h : EndsIn Q (setipCommand toInt d) b) : EndsIn Q (runCommand toInt val d) b := by
  have hchars : Ends (charsAt 0) b (fun k => b.genBuf (0 + k)) b := ends_step
  have hhelp : val ≠ ascii ['h', 'e', 'l', 'p'] := by
    rintro rfl
    exact absurd hword (by decide)
  have hname : ¬ equalsString (fun k => b.genBuf (0 + k)) SETNAME = true := by
    rw [equalsString_word hnul hbuf (by decide), hword]
    decide
  have hip : equalsString (fun k => b.genBuf (0 + k)) SETIP = true :=
    (equalsString_word hnul hbuf (by decide)).mpr hword
  apply endsIn_bind_of_ends hchars
  rw [if_neg hhelp, if_neg hname, if_pos hip]
  exact h

/-- What the text should do: with a dotted quad as its second word the address is set to it,
with any other nothing is. -/
structure SetsAsked (w : List UInt8) (b b' : Board) : Prop where
  set : ∀ x y z t, DottedQuad w x y z t → AddressSet b b' x y z t
  refused : ¬ IsDottedQuad w → SameConfig b b'

theorem blynkWriteV12_joined (toInt : List UInt8 → ℤ) {val : CString} (hlen : val.1.length < 64)
    (hword : firstWord val.1 = SETIP) {p q r s : List UInt8} (hw : Window p q r s)
    (harg : argument SETIP val.1 = joined p q r s) {fuel : ℕ} (hfuel : val.1.length < fuel)
    (b : Board) : EndsIn (fun _ b' => AddressSet b b' (UInt8.ofInt (toInt p))
      (UInt8.ofInt (toInt q)) (UInt8.ofInt (toInt r)) (UInt8.ofInt (toInt s)))
      (blynkWriteV12 toInt fuel val.1) b := by
  apply blynkWriteV12_of_runCommand (by omega) hfuel
  intro d b₁ hd hsame hbuf
  apply runCommand_setip val.2 hbuf hword
  have hnul : 0 ∉ joined p q r s := by
    intro hmem
    rw [← harg] at hmem
    exact val.2 (List.mem_of_mem_drop (List.takeWhile_subset _ hmem))
  have hpos : d.count ≠ 0 := by
    intro hzero
    have hnil := hd.argument_nil hword hzero
    rw [harg] at hnil
    exact absurd hnil (by simp [joined])
  have hshort : SETIP.length + 1 + (argument SETIP val.1).length < 64 := by
    have hle : (argument SETIP val.1).length ≤ (val.1.drop (SETIP.length + 1)).length :=
      (List.takeWhile_sublist _).length_le
    have hsix : SETIP.length = 5 := rfl
    rw [List.length_drop] at hle
    omega
  have hholds : Holds b₁.genBuf (SETIP.length + 1) (joined p q r s ++ [0]) := by
    rw [← harg]
    apply holds_firstWord
    intro n hn
    apply genBuf_argument hbuf
    exact Nat.lt_of_le_of_lt (Nat.add_le_add_left hn _) hshort
  have hs : s.length < NVS_STR_MAX := by
    have hmax : NVS_STR_MAX = 4000 := rfl
    simp only [harg, joined, List.length_append, List.length_cons] at hshort
    omega
  obtain ⟨u, b', hends, b₀, hsame₀, hset⟩ :=
    setipCommand_joined toInt hw hnul hs hpos (hd.argument_index hword hpos) hholds
  exact ⟨u, b', hends, b₀, hsame.trans hsame₀, hset⟩

theorem setIP_calls (addr : Bytes) (b : Board) : b.nvs.calls ≤ (b.setIP addr).nvs.calls := by
  unfold Board.setIP Board.setAddress
  split_ifs with hinit hup
  · exact le_rfl
  · have hcalls := NvsStore.updateNvsVal_calls .ownIPAddress (.blob (take addr 4))
      (b.setIpInfo ipAddressVar.setWord addr).nvs
    exact Nat.le_of_lt (Nat.lt_of_lt_of_eq (Nat.lt_add_of_pos_right Nat.two_pos) hcalls.symm)
  · exact le_rfl

/-- Disabling DHCP leaves a trace in any case, if only in the calls made to NVS. -/
theorem AddressSet.not_sameConfig {b b' : Board} {x y z w : UInt8} (h : AddressSet b b' x y z w) :
    ¬ SameConfig b b' := by
  obtain ⟨b₀, hsame, _, rfl⟩ := h
  intro hquiet
  have hcalls : ((b₀.setIP b₀.ip).setDHCPEnable DISABLE).nvs.calls =
      (b₀.setIP b₀.ip).nvs.calls + 2 := NvsStore.updateNvsVal_calls _ _ _
  have hle := setIP_calls b₀.ip b₀
  rw [hquiet.nvs, hsame.nvs.symm] at hcalls
  omega

theorem Octet.read {toInt : List UInt8 → ℤ} (hread : ReadsOctets toInt) {s : List UInt8} {x : UInt8}
    (h : Octet s x) : UInt8.ofInt (toInt s) = x := by
  have hlt := x.toNat_lt
  have hmod : ((x.toNat : ℤ) % 2 ^ 8).toNat = x.toNat := by omega
  rw [hread s x h, UInt8.ofInt, hmod, UInt8.ofNat_toNat]

section setip
variable (toInt : List UInt8 → ℤ) {val : CString} (hlen : val.1.length < 64)
  (hword : firstWord val.1 = SETIP) {fuel : ℕ} (hfuel : val.1.length < fuel) (b : Board)
include hlen hword hfuel

/-- Without three dots in the window nothing is set. -/
theorem blynkWriteV12_refuses (hdots : ((argument SETIP val.1).take 15).count DOT ≠ 3) :
    EndsIn (fun _ b' => SameConfig b b') (blynkWriteV12 toInt fuel val.1) b := by
  apply (blynkWriteV12_ends toInt val.2 (by omega) hfuel b).mono
  intro _ b' hobeyed
  cases hobeyed with
  | quiet hsame _ _ => exact hsame
  | setname _ _ hname => exact absurd (hword.symm.trans hname) (by decide)
  | setip _ _ hasks => exact absurd hasks.2 hdots
  | setdhcp _ _ hasked => exact absurd hasked (by rw [askedDHCP_none hword (by decide)]; nofun)

/-- With three dots there the address is set, whatever stands between them. -/
theorem blynkWriteV12_sets (hdots : ((argument SETIP val.1).take 15).count DOT = 3) :
    EndsIn (fun _ b' => ∃ x y z t, AddressSet b b' x y z t) (blynkWriteV12 toInt fuel val.1) b := by
  obtain ⟨p, q, r, s, harg, hw⟩ := exists_window hdots
  apply (blynkWriteV12_joined toInt hlen hword hw harg hfuel b).mono
  intro _ b' hset
  exact ⟨_, _, _, _, hset⟩

/-- A dotted quad in the window is read as the address. -/
theorem blynkWriteV12_reads (hread : ReadsOctets toInt) {x y z t : UInt8}
    (hquad : DottedQuad (argument SETIP val.1) x y z t)
    (hdots : ((argument SETIP val.1).take 15).count DOT = 3) :
    EndsIn (fun _ b' => AddressSet b b' x y z t) (blynkWriteV12 toInt fuel val.1) b := by
  obtain ⟨p, q, r, s, harg, hp, hq, hr, hs⟩ := hquad
  rw [harg] at hdots
  have hw := window_of_octets hp hq hr hs hdots
  have hset := blynkWriteV12_joined toInt hlen hword hw harg hfuel b
  rwa [hp.read hread, hq.read hread, hr.read hread, hs.read hread] at hset

end setip

/-- `setip` does what it should exactly when the dots in its window tell a dotted quad. -/
theorem blynkWriteV12_setip_iff (toInt : List UInt8 → ℤ) (hread : ReadsOctets toInt)
    (val : CString) (hlen : val.1.length < 64) (hword : firstWord val.1 = SETIP) (fuel : ℕ)
    (hfuel : val.1.length < fuel) (b : Board) :
    EndsIn (fun _ b' => SetsAsked (argument SETIP val.1) b b') (blynkWriteV12 toInt fuel val.1) b ↔
      IsDottedQuad (argument SETIP val.1) ∧ ((argument SETIP val.1).take 15).count DOT = 3 ∨
        ¬ IsDottedQuad (argument SETIP val.1) ∧ ((argument SETIP val.1).take 15).count DOT ≠ 3 := by
  by_cases hdots : ((argument SETIP val.1).take 15).count DOT = 3
  · have hset := blynkWriteV12_sets toInt hlen hword hfuel b hdots
    constructor
    · intro hasked
      obtain ⟨_, b', _, hmeets, _, _, _, _, haddress⟩ := hasked.and hset
      by_cases hquad : IsDottedQuad (argument SETIP val.1)
      · exact Or.inl ⟨hquad, hdots⟩
      · exact absurd (hmeets.refused hquad) haddress.not_sameConfig
    · rintro (⟨hquad, _⟩ | ⟨_, hnot⟩)
      · obtain ⟨u, b', hends, _⟩ := hset
        refine ⟨u, b', hends, fun x y z t hxyzt => ?_, fun hno => ?_⟩
        · obtain ⟨u', b'', hends', haddress⟩ :=
            blynkWriteV12_reads toInt hlen hword hfuel b hread hxyzt hdots
          rwa [(hends.unique hends').2]
        · exact absurd hquad hno
      · exact absurd hdots hnot
  · have hquiet := blynkWriteV12_refuses toInt hlen hword hfuel b hdots
    constructor
    · intro hasked
      obtain ⟨_, b', _, hmeets, hsame⟩ := hasked.and hquiet
      refine Or.inr ⟨?_, hdots⟩
      rintro ⟨x, y, z, t, hquad⟩
      exact (hmeets.set x y z t hquad).not_sameConfig hsame
    · rintro (⟨_, hthree⟩ | ⟨hquad, _⟩)
      · exact absurd hthree hdots
      · apply hquiet.mono
        intro _ b' hsame
        exact ⟨fun x y z t hxyzt => absurd ⟨x, y, z, t, hxyzt⟩ hquad, fun _ => hsame⟩

def setipText : CString := ⟨ascii ("setip 1.2.3.4".toList), by decide⟩

theorem blynkWriteV12_setip_iff_1234 :
    let b := Board.reset (Board.storage fun _ => none) Board.station
    EndsIn (fun _ b' => SetsAsked (argument SETIP setipText.1) b b')
        (blynkWriteV12 leadingNumber 64 setipText.1) b ↔
      IsDottedQuad (argument SETIP setipText.1) ∧
          ((argument SETIP setipText.1).take 15).count DOT = 3 ∨
        ¬ IsDottedQuad (argument SETIP setipText.1) ∧
          ((argument SETIP setipText.1).take 15).count DOT ≠ 3 :=
  blynkWriteV12_setip_iff leadingNumber leadingNumber_readsOctets setipText (by decide) (by decide)
    64 (by decide) _

/-- 300 is no octet, but 44 is what a byte makes of it. -/
theorem blynkWriteV12_takes_300 : ¬ ∀ (val : CString) (b : Board), val.1.length < 64 →
    val.1.count SPACE ≤ 3 → firstWord val.1 = SETIP → EndsIn (fun _ b' => SetsAsked (argument SETIP val.1) b b')
      (blynkWriteV12 leadingNumber 64 val.1) b := by
  intro hall
  let val : CString := ⟨ascii ("setip 300.1.2.3".toList), by decide⟩
  let b := Board.reset (Board.storage fun _ => none) Board.station
  have hlen : val.1.length < 64 := by decide
  have hword : firstWord val.1 = SETIP := by decide
  have hno : ¬ IsDottedQuad (argument SETIP val.1) := by
    rintro ⟨x, y, z, t, p, q, r, s, hw, hp, _⟩
    have hpart : (argument SETIP val.1).takeWhile (· ≠ DOT) = p := by
      rw [hw, takeWhile_joined hp.no_dot]
    have hvalue : decimal p = 300 := by
      rw [← hpart]
      decide
    have hlt := x.toNat_lt
    have hx := hp.value
    omega
  have htaken := blynkWriteV12_sets leadingNumber hlen hword hlen b (by decide)
  obtain ⟨_, b', _, hmeets, _, _, _, _, haddress⟩ := (hall val b hlen (by decide) hword).and htaken
  exact haddress.not_sameConfig (hmeets.refused hno)

end BlizzardBridge
