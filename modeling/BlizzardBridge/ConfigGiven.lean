import BlizzardBridge.ConfigAgree
import BlizzardBridge.NvsLoadSpec

/-! What each operation on the configuration gives to a setting, in RAM and in NVS. Names,
credentials, modes and flags are stored at once, the numbers of the node never, and the addresses
from `INIT_DONE` on. -/
namespace BlizzardBridge
open CArray

section effects

/-- Over a change, the setting of `k` goes to RAM and to NVS as `o` says, or stays in both. -/
structure Gives (k : NvsKey) (o : Option NvsVal) (b b' : Board) : Prop where
  faults : b'.nvs.faults = b.nvs.faults
  value : b'.ram.value k = o.or (b.ram.value k)
  content : b.nvs.Sound → b'.nvs.content k = o.or (b.nvs.content k)

variable {k key : NvsKey} {o o' : Option NvsVal} {v : NvsVal} {b b' b'' : Board}

theorem Gives.sound (h : Gives k o b b') (hb : b.nvs.Sound) : b'.nvs.Sound := by
  intro i
  rw [h.faults]
  exact hb i

theorem Gives.trans (h : Gives k o b b') (h' : Gives k o' b' b'') : Gives k (o'.or o) b b'' where
  faults := h'.faults.trans h.faults
  value := by rw [h'.value, h.value, Option.or_assoc]
  content hb := by rw [h'.content (h.sound hb), h.content hb, Option.or_assoc]

theorem Gives.trans_none (h : Gives k o b b')
    (h' : Gives k none b' b'') : Gives k o b b'' := by
  have hor := h.trans h'
  rwa [Option.none_or] at hor

theorem Gives.none_trans (h : Gives k none b b')
    (h' : Gives k o b' b'') : Gives k o b b'' := by
  have hor := h.trans h'
  rwa [Option.or_none] at hor

theorem Touches.gives (h : Touches key b b') (hk : k ≠ key) : Gives k none b b' where
  faults := h.faults
  value := h.value k hk
  content _ := h.content k hk

theorem Persists.gives (h : Persists key v b b') :
    Gives k (if k = key then some v else none) b b' := by
  split_ifs with hk
  · subst hk
    exact ⟨h.faults, h.valueAt, h.contentAt⟩
  · exact h.toTouches.gives hk

theorem SameConfig.gives (h : SameConfig b b') : Gives k none b b' where
  faults := by rw [h.nvs]
  value := by rw [h.ram]; rfl
  content _ := by rw [h.nvs]; rfl

/-- The settings that no operation stores. -/
def volatileKeys : List NvsKey := [.ownAddress, .ownUniverse, .slots, .ownID]

/-- The addresses are stored from `INIT_DONE` on. -/
def addressKeys : List NvsKey := [.ownIPAddress, .ownNetmask, .gateway]

def Unstored (k : NvsKey) (b : Board) : Prop := k ∈ volatileKeys ∨ k ∈ addressKeys ∧ b.initDone = false

/-- Over a change, NVS is given nothing but values that the loader can read. -/
structure Stores (k : NvsKey) (b b' : Board) : Prop where
  faults : b'.nvs.faults = b.nvs.faults
  initDone : b'.initDone = b.initDone
  content : b.nvs.Sound → b'.nvs.content k = b.nvs.content k ∨
    ¬ Unstored k b ∧ ∃ v, Fits k v ∧ b'.nvs.content k = some v

theorem Stores.sound (h : Stores k b b') (hb : b.nvs.Sound) : b'.nvs.Sound := by
  intro i
  rw [h.faults]
  exact hb i

theorem Stores.trans (h : Stores k b b') (h' : Stores k b' b'') : Stores k b b'' where
  faults := h'.faults.trans h.faults
  initDone := h'.initDone.trans h.initDone
  content hb := by
    rcases h'.content (h.sound hb) with hsame | ⟨hunstored, hv⟩
    · rw [hsame]
      exact h.content hb
    · rw [Unstored, h.initDone] at hunstored
      exact Or.inr ⟨hunstored, hv⟩

theorem Touches.stores (h : Touches key b b') (hk : k ≠ key) : Stores k b b' :=
  ⟨h.faults, h.initDone, fun _ => Or.inl (h.content k hk)⟩

theorem RamOnly.stores (h : RamOnly key v b b') : Stores k b b' := by
  by_cases hk : k = key
  · subst hk
    exact ⟨h.faults, h.initDone, fun _ => Or.inl h.contentAt⟩
  · exact h.toTouches.stores hk

theorem Persists.stores (h : Persists key v b b') (hv : Fits key v) (hunstored : ¬ Unstored key b) :
    Stores k b b' := by
  by_cases hk : k = key
  · subst hk
    exact ⟨h.faults, h.initDone, fun hb => Or.inr ⟨hunstored, v, hv, h.contentAt hb⟩⟩
  · exact h.toTouches.stores hk

theorem SameConfig.stores (h : SameConfig b b') : Stores k b b' where
  faults := by rw [h.nvs]
  initDone := h.initDone
  content _ := by rw [h.nvs]; exact Or.inl rfl

theorem Stores.refl (k : NvsKey) (b : Board) : Stores k b b := (SameConfig.refl b).stores

end effects

section stores
variable {k : NvsKey} (b : Board)

theorem not_unstored_of_notMem {key : NvsKey} (h : key ∉ volatileKeys ++ addressKeys) : ¬ Unstored key b := by
  rintro (hvolatile | ⟨haddress, _⟩)
  · exact h (List.mem_append_left _ hvolatile)
  · exact h (List.mem_append_right _ haddress)

theorem setByte_stores (f : ByteVar) (x : UInt8) (hf : Fits f.key (.u8 x))
    (hkey : f.key ∉ volatileKeys ++ addressKeys) : Stores k b (b.setByte f x) :=
  (Board.setByte_persists f x b).stores hf (not_unstored_of_notMem b hkey)

theorem length_cString (a : Bytes) (n : ℕ) : (cString a n).1.length = strnlen a n := length_take _ _

theorem setString_stores (f : StringVar) (src : Bytes) (length : ℕ)
    (hf : ∀ s : CString, s.1.length ≤ f.max + 2 → Fits f.key (.str s))
    (hkey : f.key ∉ volatileKeys ++ addressKeys) : Stores k b (b.setString f src length) := by
  by_cases hlen : length ≤ f.max + 2
  · refine (Board.setString_persists f src length b hlen).stores (hf _ ?_) (not_unstored_of_notMem b hkey)
    calc (cString src (f.length length)).1.length
        = strnlen src (f.length length) := length_cString _ _
      _ ≤ f.length length := strnlen_le _ _
      _ ≤ f.max + 2 := Board.length_le f length hlen
  · rw [Board.setString_refuses f src length b (Nat.not_le.mp hlen)]
    exact Stores.refl k b

theorem setAddress_stores (f : AddressVar) (addr : Bytes)
    (hf : ∀ l : List UInt8, l.length = 4 → Fits f.key (.blob l)) (hkey : f.key ∉ volatileKeys) :
    Stores k b (b.setAddress f addr) := by
  cases hinit : b.initDone with
  | false => exact (Board.setAddress_early f addr b hinit).stores
  | true =>
    cases hup : b.netif.up with
    | false =>
      rw [Board.setAddress_down f addr b hinit hup]
      exact Stores.refl k b
    | true =>
      apply (Board.setAddress_late f addr b hinit hup).stores (hf _ (length_take _ _))
      rintro (hvolatile | ⟨_, hfalse⟩)
      · exact hkey hvolatile
      · rw [hinit] at hfalse
        cases hfalse

theorem getAddress_stores (f : AddressVar) : Stores k b (b.getAddress f) := by
  by_cases hdhcp : b.ram.dhcpEnable = 0
  · rw [Board.getAddress_static f b hdhcp]
    exact Stores.refl k b
  · exact (Board.getAddress_dhcp f b hdhcp).stores

theorem getIP_iterate_stores (n : ℕ) : Stores k b (Board.getIP^[n] b) := by
  induction n generalizing b with
  | zero => exact Stores.refl k b
  | succ n ih =>
    rw [Function.iterate_succ_apply]
    exact (getAddress_stores b ipAddressVar).trans (ih _)

theorem Replies.stores {b b' : Board} (h : Replies b b') : Stores k b b' := by
  obtain ⟨n, hn⟩ := h
  exact (getIP_iterate_stores b n).trans hn.stores

theorem setIP_stores (addr : Bytes) : Stores k b (b.setIP addr) :=
  setAddress_stores b ipAddressVar addr (fun _ hl => hl) (by decide)

theorem setDHCPEnable_stores (enable : UInt8) : Stores k b (b.setDHCPEnable enable) :=
  setByte_stores b dhcpEnableVar enable trivial (by decide)

theorem program_stores (command : UInt8) (ip : Bytes) : Stores k b (b.program command ip) := by
  unfold Board.program
  split_ifs
  · exact Stores.refl k b
  · exact setDHCPEnable_stores b ENABLE
  · exact (setIP_stores b ip).trans (setDHCPEnable_stores _ DISABLE)
  · exact Stores.refl k b

/-- No operation stores a value that the loader cannot read, but for the name of the device. -/
theorem perform_stores (toInt : List UInt8 → ℤ) (hk : k ≠ .deviceName) (op : ConfigOp)
    (hop : op ≠ .setInitDone) : Stores k b (b.perform toInt op) := by
  cases op with
  | setName name length => exact (Board.setName_touches name _ b).stores hk
  | setSSID ssid length => exact setString_stores b ssidVar ssid _ (fun _ hs => hs) (by decide)
  | setPass pass length => exact setString_stores b passVar pass _ (fun _ hs => hs) (by decide)
  | setInputMode mode => exact setByte_stores b inputModeVar mode trivial (by decide)
  | setOutputMode mode => exact setByte_stores b outputModeVar mode trivial (by decide)
  | setOwnAddress address => exact (Board.setWord_ramOnly ownAddressVar address b).stores
  | setOwnUniverse ownUniverse => exact (Board.setWord_ramOnly ownUniverseVar ownUniverse b).stores
  | setSlots count =>
    change Stores k b (b.setSlots count)
    by_cases hrange : DMX_MIN_SLOTS ≤ count.toNat ∧ count.toNat < DMX_MAX_SLOTS
    · exact (Board.setSlots_ramOnly count b hrange.1 hrange.2).stores
    · rw [Board.setSlots_refuses count b (by omega)]
      exact Stores.refl k b
  | setOwnID id => exact (Board.setWord_ramOnly ownIDVar id b).stores
  | setIP addr => exact setIP_stores b addr
  | setNetmask addr => exact setAddress_stores b netmaskVar addr (fun _ hl => hl) (by decide)
  | setGateway addr => exact setAddress_stores b gatewayVar addr (fun _ hl => hl) (by decide)
  | setMac mac =>
    exact (Board.setMac_persists mac b).stores (length_take _ _) (not_unstored_of_notMem b (by decide))
  | setDHCPEnable enable => exact setDHCPEnable_stores b enable
  | setWifiManagerEnable enable => exact setByte_stores b wifiManagerEnableVar enable trivial (by decide)
  | getIP => exact getAddress_stores b ipAddressVar
  | getNetmask => exact getAddress_stores b netmaskVar
  | getGateway => exact getAddress_stores b gatewayVar
  | terminal text =>
    have hcommanded := terminal_commanded toInt text b
    change Stores k b (b.terminal toInt text.1)
    generalize b.terminal toInt text.1 = b' at hcommanded
    cases hcommanded with
    | quiet hsame => exact hsame.stores
    | setname name hsame _ =>
      exact hsame.stores.trans ((Board.updateNvsVal_touches .deviceName _ _).stores hk)
    | setip addr hsame _ =>
      exact hsame.stores.trans ((setIP_stores _ addr).trans (setDHCPEnable_stores _ DISABLE))
    | setdhcp enable hsame => exact hsame.stores.trans (setDHCPEnable_stores _ enable)
  | artAddress c p addr =>
    obtain ⟨b₁, hsame, hreply⟩ := parseArtAddress_leaves c p addr b
    exact ((Board.setName_touches _ _ b).stores hk).trans (hsame.stores.trans hreply.stores)
  | artIpProg c p addr =>
    exact (program_stores b _ _).trans (parseProg_leaves c p addr b).stores
  | setInitDone => exact absurd rfl hop

end stores

instance (val : List UInt8) : Decidable (AsksIP val) := inferInstanceAs (Decidable (_ ∧ _))

/-- What the terminal sets the DHCP client to. A longer text is never passed. -/
def terminalDHCP (text : List UInt8) : Option UInt8 :=
  if 256 ≤ text.length then none
  else if AsksIP text then some DISABLE
  else askedDHCP text

/-- What ArtIpProg sets it to. -/
def progDHCP (command : UInt8) : Option UInt8 :=
  if !progEn command then none
  else if dhcpEn command then some ENABLE
  else if progIP command then some DISABLE
  else none

/-- What an operation gives to one of the settings that are stored at once. -/
def ConfigOp.given (k : NvsKey) : ConfigOp → Option NvsVal
  | .setName name length =>
    if k = .deviceName ∧ length.toNat < NAME_MAX_LENGTH then
      some (.str (cString name length.toNat)) else none
  | .setSSID ssid length =>
    if k = .ssid ∧ length.toNat ≤ SSID_MAX_LENGTH + 2 then
      some (.str (cString ssid (ssidVar.length length.toNat))) else none
  | .setPass pass length =>
    if k = .pass ∧ length.toNat ≤ PASS_MAX_LENGTH + 2 then
      some (.str (cString pass (passVar.length length.toNat))) else none
  | .setInputMode mode => if k = .inputMode then some (.u8 mode) else none
  | .setOutputMode mode => if k = .outputMode then some (.u8 mode) else none
  | .setDHCPEnable enable => if k = .dhcpEnable then some (.u8 enable) else none
  | .setWifiManagerEnable enable => if k = .wifiManagerEnable then some (.u8 enable) else none
  | .terminal text => if k = .dhcpEnable then (terminalDHCP text.1).map .u8 else none
  | .artAddress _ p _ =>
    if k = .deviceName then
      some (.str (cString (fun i => p.payload (ADDRESS_LONG_NAME + i)) (NAME_MAX_LENGTH - 1))) else none
  | .artIpProg _ p _ => if k = .dhcpEnable then (progDHCP (p.payload PROG_COMMAND)).map .u8 else none
  | _ => none

/-- The settings that are stored at once. -/
def durableKeys : List NvsKey :=
  [.deviceName, .ssid, .pass, .inputMode, .outputMode, .dhcpEnable, .wifiManagerEnable]

section gives
variable {k : NvsKey} (b : Board)

theorem Gives.refl (k : NvsKey) (b : Board) : Gives k none b b := (SameConfig.refl b).gives

theorem ne_of_durable {key : NvsKey} (hk : k ∈ durableKeys) (hkey : key ∉ durableKeys) : k ≠ key := by
  rintro rfl
  exact hkey hk

theorem setString_gives (f : StringVar) (src : Bytes) (length : ℕ) :
    Gives k (if k = f.key ∧ length ≤ f.max + 2 then some (.str (cString src (f.length length))) else none)
      b (b.setString f src length) := by
  by_cases hlen : length ≤ f.max + 2
  · simp only [hlen, and_true]
    exact (Board.setString_persists f src length b hlen).gives
  · simp only [hlen, and_false, if_false]
    rw [Board.setString_refuses f src length b (Nat.not_le.mp hlen)]
    exact Gives.refl k b

theorem setName_gives (name : Bytes) (length : ℕ) :
    Gives k (if k = .deviceName ∧ length < NAME_MAX_LENGTH then some (.str (cString name length)) else none)
      b (b.setName name length) := by
  by_cases hlen : length < NAME_MAX_LENGTH
  · simp only [hlen, and_true]
    exact (Board.setName_persists name length b hlen).gives
  · simp only [hlen, and_false, if_false]
    rw [Board.setName_refuses name length b (Nat.not_lt.mp hlen)]
    exact Gives.refl k b

theorem setAddress_gives (f : AddressVar) (addr : Bytes) (hk : k ≠ f.key) :
    Gives k none b (b.setAddress f addr) := (Board.setAddress_touches f addr b).gives hk

theorem getAddress_gives (f : AddressVar) (hk : k ≠ f.key) : Gives k none b (b.getAddress f) := by
  by_cases hdhcp : b.ram.dhcpEnable = 0
  · rw [Board.getAddress_static f b hdhcp]
    exact Gives.refl k b
  · exact (Board.getAddress_dhcp f b hdhcp).toTouches.gives hk

theorem getIP_iterate_gives (n : ℕ) (hk : k ≠ .ownIPAddress) : Gives k none b (Board.getIP^[n] b) := by
  induction n generalizing b with
  | zero => exact Gives.refl k b
  | succ n ih =>
    rw [Function.iterate_succ_apply]
    exact (getAddress_gives b ipAddressVar hk).none_trans (ih _)

theorem Replies.gives {b b' : Board} (h : Replies b b') (hk : k ≠ .ownIPAddress) : Gives k none b b' := by
  obtain ⟨n, hn⟩ := h
  exact (getIP_iterate_gives b n hk).none_trans hn.gives

theorem setDHCPEnable_gives (enable : UInt8) :
    Gives k (if k = .dhcpEnable then some (.u8 enable) else none) b (b.setDHCPEnable enable) :=
  (Board.setByte_persists dhcpEnableVar enable b).gives

theorem setIP_DHCPEnable_gives (addr : Bytes) (hk : k ≠ .ownIPAddress) :
    Gives k (if k = .dhcpEnable then some (.u8 DISABLE) else none) b
      ((b.setIP addr).setDHCPEnable DISABLE) :=
  (setAddress_gives b ipAddressVar addr hk).none_trans (setDHCPEnable_gives _ DISABLE)

theorem program_gives (command : UInt8) (ip : Bytes) (hk : k ≠ .ownIPAddress) :
    Gives k (if k = .dhcpEnable then (progDHCP command).map .u8 else none) b (b.program command ip) := by
  have hnone (o : Option NvsVal) (ho : o = none) : Gives k (if k = .dhcpEnable then o else none) b b := by
    rw [ho, ite_self]
    exact Gives.refl k b
  unfold progDHCP Board.program
  by_cases hen : progEn command = true
  · simp only [hen, Bool.not_true, Bool.false_eq_true, if_false]
    by_cases hdhcp : dhcpEn command = true
    · simp only [hdhcp, if_true]
      exact setDHCPEnable_gives b ENABLE
    · by_cases hip : progIP command = true
      · simp only [hdhcp, hip, if_true]
        exact setIP_DHCPEnable_gives b ip hk
      · simp only [hdhcp, hip]
        exact hnone _ rfl
  · simp only [hen, Bool.not_false, if_true]
    exact hnone _ rfl

/-- The command `setname` of the terminal gives a name to NVS alone. -/
theorem terminal_gives (toInt : List UInt8 → ℤ) (text : CString) (hip : k ≠ .ownIPAddress)
    (hname : k = .deviceName → firstWord text.1 ≠ SETNAME) :
    Gives k (if k = .dhcpEnable then (terminalDHCP text.1).map .u8 else none) b
      (b.terminal toInt text.1) := by
  have hnone (b' : Board) (h : Gives k none b b') (ho : terminalDHCP text.1 = none) :
      Gives k (if k = .dhcpEnable then (terminalDHCP text.1).map .u8 else none) b b' := by
    rw [ho, Option.map_none, ite_self]
    exact h
  rcases Nat.lt_or_ge text.1.length 256 with hlen | hlen
  · have hshort : terminalDHCP text.1 = if AsksIP text.1 then some DISABLE else askedDHCP text.1 :=
      if_neg (Nat.not_le.mpr hlen)
    have hobeyed := terminal_obeyed toInt text b hlen
    generalize b.terminal toInt text.1 = b' at hobeyed
    cases hobeyed with
    | quiet hsame hasks hasked =>
      apply hnone _ hsame.gives
      rw [hshort, if_neg hasks, hasked]
    | setname name hsame hword =>
      apply hnone
      · refine hsame.gives.none_trans ((Board.updateNvsVal_touches .deviceName _ _).gives ?_)
        exact fun hk => hname hk hword
      · rw [hshort, if_neg (not_asksIP hword (by decide)), askedDHCP_none hword (by decide)]
    | setip addr hsame hasks =>
      rw [hshort, if_pos hasks]
      exact hsame.gives.none_trans (setIP_DHCPEnable_gives _ addr hip)
    | setdhcp enable hsame hasked =>
      have hasks : ¬ AsksIP text.1 := by
        rintro ⟨hword, _⟩
        rw [askedDHCP_none hword (by decide)] at hasked
        cases hasked
      rw [hshort, if_neg hasks, hasked]
      exact hsame.gives.none_trans (setDHCPEnable_gives _ enable)
  · rw [terminal_long toInt text b hlen]
    exact hnone b (Gives.refl k b) (if_pos hlen)

theorem perform_gives (toInt : List UInt8 → ℤ) (hk : k ∈ durableKeys) (op : ConfigOp)
    (hop : ∀ text, op = .terminal text → k = .deviceName → firstWord text.1 ≠ SETNAME) :
    Gives k (op.given k) b (b.perform toInt op) := by
  have hne (key : NvsKey) (hkey : key ∉ durableKeys) : k ≠ key := ne_of_durable hk hkey
  cases op with
  | setName name length => exact setName_gives b name length.toNat
  | setSSID ssid length => exact setString_gives b ssidVar ssid length.toNat
  | setPass pass length => exact setString_gives b passVar pass length.toNat
  | setInputMode mode => exact (Board.setByte_persists inputModeVar mode b).gives
  | setOutputMode mode => exact (Board.setByte_persists outputModeVar mode b).gives
  | setOwnAddress address =>
    exact (Board.setWord_ramOnly ownAddressVar address b).toTouches.gives (hne _ (by decide))
  | setOwnUniverse u =>
    exact (Board.setWord_ramOnly ownUniverseVar u b).toTouches.gives (hne _ (by decide))
  | setSlots count => exact (Board.setSlots_touches count b).gives (hne _ (by decide))
  | setOwnID id => exact (Board.setWord_ramOnly ownIDVar id b).toTouches.gives (hne _ (by decide))
  | setIP addr => exact setAddress_gives b ipAddressVar addr (hne _ (by decide))
  | setNetmask addr => exact setAddress_gives b netmaskVar addr (hne _ (by decide))
  | setGateway addr => exact setAddress_gives b gatewayVar addr (hne _ (by decide))
  | setMac mac => exact (Board.setMac_persists mac b).toTouches.gives (hne _ (by decide))
  | setDHCPEnable enable => exact setDHCPEnable_gives b enable
  | setWifiManagerEnable enable => exact (Board.setByte_persists wifiManagerEnableVar enable b).gives
  | getIP => exact getAddress_gives b ipAddressVar (hne _ (by decide))
  | getNetmask => exact getAddress_gives b netmaskVar (hne _ (by decide))
  | getGateway => exact getAddress_gives b gatewayVar (hne _ (by decide))
  | terminal text => exact terminal_gives b toInt text (hne _ (by decide)) (hop text rfl)
  | artAddress c p addr =>
    obtain ⟨b₁, hsame, hreply⟩ := parseArtAddress_leaves c p addr b
    have hname := setName_gives (k := k) b (fun i => p.payload (ADDRESS_LONG_NAME + i)) (NAME_MAX_LENGTH - 1)
    have hlast : NAME_MAX_LENGTH - 1 < NAME_MAX_LENGTH := by decide
    simp only [hlast, and_true] at hname
    exact hname.trans_none (hsame.gives.trans_none (hreply.gives (hne _ (by decide))))
  | artIpProg c p addr =>
    have hip : k ≠ .ownIPAddress := hne _ (by decide)
    exact (program_gives b _ _ hip).trans_none ((parseProg_leaves c p addr b).gives hip)
  | setInitDone => exact ⟨rfl, rfl, fun _ => rfl⟩

end gives

end BlizzardBridge
