import BlizzardBridge.ConfigGiven

/-! Sessions: operations on the configuration in any order. They keep to the arrays that they
write: what the setters of the credentials store from index 32 on, and the terminal behind its
buffers, belongs to other variables. -/
namespace BlizzardBridge
open CArray EventMachine

def configMachine (toInt : List UInt8 → ℤ) (b : Board) (op : ConfigOp) : Board × List Empty :=
  (b.perform toInt op, [])

/-- A credential that the operation gives leaves room for its terminator, and a text is taken
within the buffers of the terminal. -/
structure ConfigOp.Within (op : ConfigOp) : Prop where
  ssid : ∀ s, op.given .ssid = some (.str s) → s.1.length < SSID_MAX_LENGTH
  pass : ∀ s, op.given .pass = some (.str s) → s.1.length < PASS_MAX_LENGTH
  text : ∀ text, op = .terminal text → text.1.length ≤ GEN_BUF_SIZE ∧ text.1.count SPACE ≤ 3 ∧
    (firstWord text.1 = SETIP → ((argument SETIP text.1).take 15).count DOT ≤ 3)

/-- The network name and the passphrase end within their arrays. -/
structure Board.Terminated (b : Board) : Prop where
  ssid : ∃ j < SSID_MAX_LENGTH, b.ram.ssid j = 0
  pass : ∃ j < PASS_MAX_LENGTH, b.ram.pass j = 0

theorem exists_zero_iff (a : Bytes) {m n : ℕ} (h : m ≤ n) :
    (∃ j < m, a j = 0) ↔ (cString a n).1.length < m := by
  have hlength : (cString a n).1.length = strnlen a n := length_take a (strnlen a n)
  rw [hlength]
  constructor
  · rintro ⟨j, hj, hzero⟩
    refine Nat.lt_of_not_le fun hle => ?_
    exact ne_zero_of_lt_strnlen (Nat.lt_of_lt_of_le hj hle) hzero
  · exact fun hlt => ⟨strnlen a n, hlt, strnlen_end (Nat.lt_of_lt_of_le hlt h)⟩

section credentials
variable {k : NvsKey} {b b' : Board} {o : Option NvsVal} {m : ℕ} {a a' : Bytes}

/-- An array ends as before, or as what was given. -/
theorem Gives.ends (h : Gives k o b b') (hm : m ≤ NVS_STR_MAX)
    (ha : b.ram.value k = some (.str (cString a NVS_STR_MAX)))
    (ha' : b'.ram.value k = some (.str (cString a' NVS_STR_MAX)))
    (hin : ∀ s, o = some (.str s) → s.1.length < m) (hends : ∃ j < m, a j = 0) : ∃ j < m, a' j = 0 := by
  have hvalue := h.value
  rw [ha, ha'] at hvalue
  -- that an array ends is a fact about its string, and so about the value of the setting
  rw [exists_zero_iff _ hm] at hends ⊢
  cases o with
  | none =>
    rw [Option.none_or] at hvalue
    rwa [NvsVal.str.inj (Option.some.inj hvalue)]
  | some v =>
    rw [Option.some_or] at hvalue
    exact hin _ hvalue.symm

theorem perform_terminated (toInt : List UInt8 → ℤ) {op : ConfigOp} (hop : op.Within) (h : b.Terminated) :
    (b.perform toInt op).Terminated where
  ssid := (perform_gives b toInt (k := .ssid) (by decide) op nofun).ends (by decide) rfl rfl hop.ssid h.ssid
  pass := (perform_gives b toInt (k := .pass) (by decide) op nofun).ends (by decide) rfl rfl hop.pass h.pass

theorem session_terminated (toInt : List UInt8 → ℤ) {ops : List ConfigOp} (hin : ∀ op ∈ ops, op.Within)
    (h : b.Terminated) : (exec (configMachine toInt) b ops).Terminated := by
  have hwithin : Along (configMachine toInt) (fun _ op => op.Within) b ops :=
    along_of_mem (fun op hop _ => hin op hop) b
  exact exec_invariant (I := Board.Terminated) (fun _ _ hb hop => perform_terminated toInt hop hb) h hwithin

end credentials

/-- After every session a setting agrees, unless the last operation that did not write it
through has left it loose; and the credentials are in their arrays. -/
theorem session_agrees (toInt : List UInt8 → ℤ) (key : NvsKey) (b : Board) (ops : List ConfigOp)
    (hr : b.Ready) (ht : b.Terminated) (hin : ∀ op ∈ ops, op.Within)
    (h : Settled (configMachine toInt) (Writes key) (Loosens key) (b.Agrees key) b ops) :
    (exec (configMachine toInt) b ops).Agrees key ∧ (exec (configMachine toInt) b ops).Terminated := by
  refine ⟨?_, session_terminated toInt hin ht⟩
  apply exec_of_settled (J := Board.Ready) _ _ _ hr id h
  · intro b op hr
    exact perform_ready toInt b op hr
  · intro b op hr hw
    exact perform_writes toInt b op hr hw
  · intro b op hr ha hl
    exact (perform_keeps toInt b op hl).agrees hr ha

/-- The lease has replaced the address in RAM; a static address is written to both again. -/
theorem session_agrees_static :
    let b := exec (configMachine fun _ => 0) (Board.reset (Board.storage fun _ => none) Board.station)
      [.setInitDone, .setDHCPEnable ENABLE, .getIP, .setPass (fun _ => 65) 31, .setDHCPEnable DISABLE,
        .setIP (Board.octets 0x0500000A), .getIP]
    b.Agrees .ownIPAddress ∧ b.Terminated := by
  apply session_agrees
  · exact ⟨fun _ => rfl, rfl⟩
  · exact ⟨⟨0, by decide, rfl⟩, ⟨0, by decide, rfl⟩⟩
  · intro op hop
    simp only [List.mem_cons, List.not_mem_nil, or_false] at hop
    rcases hop with rfl | rfl | rfl | rfl | rfl | rfl | rfl
    · exact ⟨nofun, nofun, nofun⟩
    · exact ⟨nofun, nofun, nofun⟩
    · exact ⟨nofun, nofun, nofun⟩
    · refine ⟨nofun, fun s hs => ?_, nofun⟩
      cases hs
      decide
    · exact ⟨nofun, nofun, nofun⟩
    · exact ⟨nofun, nofun, nofun⟩
    · exact ⟨nofun, nofun, nofun⟩
  · exact Or.inr ⟨Or.inl ⟨rfl, rfl⟩, fun h => h.2 rfl⟩

def leased : Board :=
  let b := Board.reset (Board.storage fun _ => none) { Board.station with info := ⟨0x0500000A, 0, 0⟩ }
  let b := { b with ram := { b.ram with dhcpEnable := ENABLE } }
  { b with nvs := Board.storage b.ram.value }

/-- Asking for the address makes RAM differ from NVS. -/
theorem session_disagrees : ¬ ∀ (toInt : List UInt8 → ℤ) (b : Board) (ops : List ConfigOp),
    b.Ready → (∀ key, b.Agrees key) → ∀ key, (exec (configMachine toInt) b ops).Agrees key := by
  intro hall
  have hready : leased.Ready := ⟨fun _ => rfl, rfl⟩
  have hip := hall (fun _ => 0) leased [.getIP] hready (fun _ => rfl) .ownIPAddress
  have hblob : some (NvsVal.blob [0, 0, 0, 0]) = some (.blob [10, 0, 0, 5]) := hip
  exact absurd hblob (by decide)

end BlizzardBridge
