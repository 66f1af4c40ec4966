import BlizzardBridge.ArtnetSpec
import BlizzardBridge.ConfigEffect
import BlizzardBridge.EventMachine
import BlizzardBridge.TerminalSpec
import Mathlib.Logic.Function.Iterate

/-! RAM and NVS over whole sessions. A setting agrees when both hold the same value;
most operations write it to both, some change RAM alone. -/
namespace BlizzardBridge
open CArray Program EventMachine

inductive ConfigOp where
  | setName (name : Bytes) (length : UInt8)
  | setSSID (ssid : Bytes) (length : UInt8)
  | setPass (pass : Bytes) (length : UInt8)
  | setInputMode (mode : UInt8)
  | setOutputMode (mode : UInt8)
  | setOwnAddress (address : UInt16)
  | setOwnUniverse (ownUniverse : UInt16)
  | setSlots (count : UInt16)
  | setOwnID (id : UInt16)
  | setIP (addr : Bytes)
  | setNetmask (addr : Bytes)
  | setGateway (addr : Bytes)
  | setMac (mac : Bytes)
  | setDHCPEnable (enable : UInt8)
  | setWifiManagerEnable (enable : UInt8)
  | getIP
  | getNetmask
  | getGateway
  | terminal (text : CString)
  | artAddress (c : Calls) (p : Pbuf) (addr : UInt32)
  | artIpProg (c : Calls) (p : Pbuf) (addr : UInt32)
  | setInitDone

namespace Board

/-- A text of 256 bytes or more is never handled to its end, and changes no setting. -/
def terminal (toInt : List UInt8 → ℤ) (text : List UInt8) (b : Board) : Board :=
  let o := blynkWriteV12 toInt 256 text b
  if o.val.isSome then o.state else b

/-- What an operation leaves behind. Where a packet crashes the node, that is its state
at the crash. -/
def perform (toInt : List UInt8 → ℤ) (b : Board) : ConfigOp → Board
  | .setName name length => b.setName name length.toNat
  | .setSSID ssid length => b.setSSID ssid length.toNat
  | .setPass pass length => b.setPass pass length.toNat
  | .setInputMode mode => b.setInputMode mode
  | .setOutputMode mode => b.setOutputMode mode
  | .setOwnAddress address => b.setOwnAddress address
  | .setOwnUniverse ownUniverse => b.setOwnUniverse ownUniverse
  | .setSlots count => b.setSlots count
  | .setOwnID id => b.setOwnID id
  | .setIP addr => b.setIP addr
  | .setNetmask addr => b.setNetmask addr
  | .setGateway addr => b.setGateway addr
  | .setMac mac => b.setMac mac
  | .setDHCPEnable enable => b.setDHCPEnable enable
  | .setWifiManagerEnable enable => b.setWifiManagerEnable enable
  | .getIP => b.getIP
  | .getNetmask => b.getNetmask
  | .getGateway => b.getGateway
  | .terminal text => b.terminal toInt text.1
  | .artAddress c p addr => (parseArtAddressArtnet c p addr b).state
  | .artIpProg c p addr => (parseProgArtnet c p addr b).state
  | .setInitDone => { b with initDone := true }

def Agrees (key : NvsKey) (b : Board) : Prop := b.nvs.content key = b.ram.value key

structure Ready (b : Board) : Prop where
  sound : b.nvs.Sound
  up : b.netif.up = true

end Board

def progStatic (command : UInt8) : Bool := progEn command && !dhcpEn command && progIP command

/-- The operations that write a setting to RAM and to NVS. -/
def Writes (key : NvsKey) (b : Board) : ConfigOp → Prop
  | .setName _ length => key = .deviceName ∧ length.toNat < NAME_MAX_LENGTH
  | .setSSID _ length => key = .ssid ∧ length.toNat ≤ SSID_MAX_LENGTH + 2
  | .setPass _ length => key = .pass ∧ length.toNat ≤ PASS_MAX_LENGTH + 2
  | .setInputMode _ => key = .inputMode
  | .setOutputMode _ => key = .outputMode
  | .setIP _ => key = .ownIPAddress ∧ b.initDone = true
  | .setNetmask _ => key = .ownNetmask ∧ b.initDone = true
  | .setGateway _ => key = .gateway ∧ b.initDone = true
  | .setMac _ => key = .mac
  | .setDHCPEnable _ => key = .dhcpEnable
  | .setWifiManagerEnable _ => key = .wifiManagerEnable
  | .artAddress _ _ _ => key = .deviceName
  | _ => False

/-- The operations after which a setting need not agree. -/
def Loosens (key : NvsKey) (b : Board) : ConfigOp → Prop
  -- an address is set in RAM alone until INIT_DONE, for the loader
  | .setIP _ => key = .ownIPAddress ∧ b.initDone = false
  | .setNetmask _ => key = .ownNetmask ∧ b.initDone = false
  | .setGateway _ => key = .gateway ∧ b.initDone = false
  -- with DHCP enabled the variable follows the lease
  | .getIP => key = .ownIPAddress ∧ b.ram.dhcpEnable ≠ 0
  | .getNetmask => key = .ownNetmask ∧ b.ram.dhcpEnable ≠ 0
  | .getGateway => key = .gateway ∧ b.ram.dhcpEnable ≠ 0
  | .artAddress _ _ _ => key = .ownIPAddress ∧ b.ram.dhcpEnable ≠ 0
  | .artIpProg _ p _ => key = .ownIPAddress ∧
      (progStatic (p.payload PROG_COMMAND) = true ∧ b.initDone = false ∨
        (b.program (p.payload PROG_COMMAND) (p.reversed PROG_IP)).ram.dhcpEnable ≠ 0)
  -- the numbers of the node are not stored
  | .setOwnAddress _ => key = .ownAddress
  | .setOwnUniverse _ => key = .ownUniverse
  | .setSlots count => key = .slots ∧ DMX_MIN_SLOTS ≤ count.toNat ∧ count.toNat < DMX_MAX_SLOTS
  | .setOwnID _ => key = .ownID
  -- the command setname stores the name without setting it
  | .terminal text => key = .deviceName ∧ firstWord text.1 = SETNAME ∨
      key = .ownIPAddress ∧ firstWord text.1 = SETIP ∧ b.initDone = false
  | _ => False

/-- A change after which a setting agrees if it did before. -/
structure Keeps (key : NvsKey) (b b' : Board) : Prop where
  ready : b.Ready → b'.Ready
  agrees : b.Ready → b.Agrees key → b'.Agrees key

section keeps
variable {key k : NvsKey} {v : NvsVal} {b b' b'' : Board}

theorem Keeps.refl (key : NvsKey) (b : Board) : Keeps key b b := ⟨id, fun _ => id⟩

theorem Keeps.trans (h : Keeps key b b') (h' : Keeps key b' b'') : Keeps key b b'' where
  ready hr := h'.ready (h.ready hr)
  agrees hr ha := h'.agrees (h.ready hr) (h.agrees hr ha)

theorem SameConfig.keeps (h : SameConfig b b') : Keeps key b b' where
  ready hr := ⟨by rw [h.nvs]; exact hr.sound, by rw [h.netif]; exact hr.up⟩
  agrees _ ha := by unfold Board.Agrees; rw [h.nvs, h.ram]; exact ha

theorem Touches.ready (h : Touches k b b') (hr : b.Ready) : b'.Ready where
  sound := h.sound hr.sound
  up := h.up.trans hr.up

theorem Touches.keeps (h : Touches k b b') (hk : key ≠ k) : Keeps key b b' where
  ready := h.ready
  agrees _ ha := by
    unfold Board.Agrees
    rw [h.content key hk, h.value key hk]
    exact ha

theorem Persists.agrees (h : Persists k v b b') (hr : b.Ready) : b'.Agrees k := by
  unfold Board.Agrees
  rw [h.contentAt hr.sound, h.valueAt]

theorem Persists.keeps (h : Persists k v b b') : Keeps key b b' := by
  by_cases hk : key = k
  · subst hk
    exact ⟨h.toTouches.ready, fun hr _ => h.agrees hr⟩
  · exact h.toTouches.keeps hk

end keeps

section effects
variable {key : NvsKey} (b : Board)

theorem setAddress_keeps (f : AddressVar) (addr : Bytes) (h : key = f.key → b.initDone = true) :
    Keeps key b (b.setAddress f addr) := by
  by_cases hk : key = f.key
  · subst hk
    refine ⟨(Board.setAddress_touches f addr b).ready, fun hr _ => ?_⟩
    exact (Board.setAddress_late f addr b (h rfl) hr.up).agrees hr
  · exact (Board.setAddress_touches f addr b).keeps hk

theorem setString_keeps (f : StringVar) (src : Bytes) (length : ℕ) :
    Keeps key b (b.setString f src length) := by
  by_cases hlen : length ≤ f.max + 2
  · exact (Board.setString_persists f src length b hlen).keeps
  · rw [Board.setString_refuses f src length b (Nat.not_le.mp hlen)]
    exact Keeps.refl key b

theorem getAddress_keeps (f : AddressVar) (h : key = f.key → b.ram.dhcpEnable = 0) :
    Keeps key b (b.getAddress f) := by
  by_cases hdhcp : b.ram.dhcpEnable = 0
  · rw [Board.getAddress_static f b hdhcp]
    exact Keeps.refl key b
  · exact (Board.getAddress_dhcp f b hdhcp).toTouches.keeps fun hk => hdhcp (h hk)

theorem getIP_dhcpEnable : b.getIP.ram.dhcpEnable = b.ram.dhcpEnable := by
  unfold Board.getIP Board.getAddress
  split <;> rfl

theorem getIP_iterate_keeps (n : ℕ) (h : key = .ownIPAddress → b.ram.dhcpEnable = 0) :
    Keeps key b (Board.getIP^[n] b) := by
  induction n generalizing b with
  | zero => exact Keeps.refl key b
  | succ n ih =>
    rw [Function.iterate_succ_apply]
    apply (getAddress_keeps b ipAddressVar h).trans
    apply ih
    intro hk
    exact (getIP_dhcpEnable b).trans (h hk)

theorem Touches.dhcpEnable {k : NvsKey} {b b' : Board} (h : Touches k b b') (hk : k ≠ .dhcpEnable) :
    b'.ram.dhcpEnable = b.ram.dhcpEnable := by
  have hv : some (NvsVal.u8 b'.ram.dhcpEnable) = some (.u8 b.ram.dhcpEnable) :=
    h.value .dhcpEnable hk.symm
  exact NvsVal.u8.inj (Option.some.inj hv)

theorem program_keeps (command : UInt8) (ip : Bytes)
    (h : key = .ownIPAddress → progStatic command = true → b.initDone = true) :
    Keeps key b (b.program command ip) := by
  unfold Board.program
  split_ifs with hen hdhcp hip
  · exact Keeps.refl key b
  · exact (Board.setByte_persists dhcpEnableVar ENABLE b).keeps
  · have hstatic : progStatic command = true := by simp_all [progStatic]
    exact (setAddress_keeps b ipAddressVar ip fun hk => h hk hstatic).trans
      (Board.setByte_persists dhcpEnableVar DISABLE _).keeps
  · exact Keeps.refl key b

end effects

section replies
variable (c : Calls) (addr : UInt32) (b : Board)

/-- A reply changes nothing of the configuration but the own address. -/
def Replies (b b' : Board) : Prop := ∃ n, SameConfig (Board.getIP^[n] b) b'

theorem Replies.keeps {key : NvsKey} {b b' : Board} (h : Replies b b')
    (hk : key = .ownIPAddress → b.ram.dhcpEnable = 0) : Keeps key b b' := by
  obtain ⟨n, hn⟩ := h
  exact (getIP_iterate_keeps b n hk).trans hn.keeps

theorem sendPollReply_leaves : Leaves (Replies b) (sendPollReplyArtnet c addr) b := by
  have hcreate : Replies b b.createPacketArtnetPollReply := by
    obtain ⟨packet, hpacket⟩ := b.createPacketArtnetPollReply_board
    refine ⟨4, ?_⟩
    -- the packet goes to the node, which is no setting
    generalize Board.getIP^[4] b = asked at hpacket
    rw [hpacket]
    exact ⟨rfl, rfl, rfl, rfl⟩
  unfold sendPollReplyArtnet
  rw [leaves_get_bind]
  split
  · exact ⟨0, SameConfig.refl b⟩
  · rw [leaves_modify_bind, leaves_get_bind]
    split
    · rw [leaves_emit_bind, leaves_crash]
      exact hcreate
    · rw [leaves_emit_bind, leaves_emit_bind,
        leaves_bind_of_ends (ends_copyBytes (ends_readReply _ _) _ _)]
      simp only [leaves_emit_bind, leaves_emit]
      exact hcreate

theorem sendProgReply_leaves : Leaves (Replies b) (sendProgReplyArtnet c addr) b := by
  have hcreate : Replies b (Board.createProgReply c.heap b).2 := by
    rw [Board.createProgReply_board]
    exact ⟨4, SameConfig.refl _⟩
  unfold sendProgReplyArtnet
  rw [leaves_get_bind]
  split_ifs
  · exact ⟨0, SameConfig.refl b⟩
  · exact ⟨0, SameConfig.refl b⟩
  · rw [leaves_emit_bind, leaves_step_bind, leaves_crash]
    exact hcreate
  · rw [leaves_emit_bind, leaves_step_bind, leaves_emit_bind,
      leaves_bind_of_ends (ends_copyBytes (ends_readReply _ _) _ _)]
    simp only [leaves_emit_bind, leaves_emit]
    exact hcreate

end replies

section packets
variable (c : Calls) (p : Pbuf) (addr : UInt32) (b : Board)

theorem parseArtAddress_leaves : Leaves
    (fun b' => ∃ b₁, SameConfig (b.setName (fun i => p.payload (ADDRESS_LONG_NAME + i))
      (NAME_MAX_LENGTH - 1)) b₁ ∧ Replies b₁ b') (parseArtAddressArtnet c p addr) b := by
  unfold parseArtAddressArtnet
  rw [leaves_bind_of_ends (ends_readName p b _ _), leaves_modify_bind,
    leaves_bind_of_ends (x := readPayload p ADDRESS_COMMAND) ends_step,
    leaves_bind_of_ends (ends_addressCommand _ _)]
  refine ⟨_, ?_, sendPollReply_leaves c addr _⟩
  split
  · exact ⟨rfl, rfl, rfl, rfl⟩
  · exact SameConfig.refl _

/-- The request first changes the settings by its command byte, then it is answered. -/
theorem leaves_parseProg {Q : Board → Prop} : Leaves Q (parseProgArtnet c p addr) b ↔
    Leaves Q (sendProgReplyArtnet c addr) (b.program (p.payload PROG_COMMAND) (p.reversed PROG_IP)) := by
  unfold parseProgArtnet
  rw [leaves_bind_of_ends (x := readPayload p PROG_COMMAND) ends_step,
    leaves_bind_of_ends (ends_readAddress p _ _), leaves_bind_of_ends (ends_readAddress p _ _),
    leaves_bind_of_ends (ends_progCommand p _ _)]

theorem parseProg_leaves :
    Leaves (Replies (b.program (p.payload PROG_COMMAND) (p.reversed PROG_IP)))
      (parseProgArtnet c p addr) b := by
  rw [leaves_parseProg]
  exact sendProgReply_leaves c addr _

variable {key : NvsKey}

theorem artAddress_keeps (h : key = .ownIPAddress → b.ram.dhcpEnable = 0) :
    Keeps key b (parseArtAddressArtnet c p addr b).state ∧
      (b.Ready → key = .deviceName → (parseArtAddressArtnet c p addr b).state.Agrees key) := by
  obtain ⟨b₁, hsame, hreply⟩ := parseArtAddress_leaves c p addr b
  have hname := Board.setName_persists (fun i => p.payload (ADDRESS_LONG_NAME + i))
    (NAME_MAX_LENGTH - 1) b (by decide)
  have hreplied : key = .ownIPAddress → b₁.ram.dhcpEnable = 0 := by
    intro hk
    rw [hsame.ram, hname.toTouches.dhcpEnable (by decide)]
    exact h hk
  have hrest := hsame.keeps.trans (hreply.keeps hreplied)
  refine ⟨hname.keeps.trans hrest, ?_⟩
  rintro hr rfl
  exact hrest.agrees (hname.toTouches.ready hr) (hname.agrees hr)

theorem artIpProg_keeps
    (hinit : key = .ownIPAddress → progStatic (p.payload PROG_COMMAND) = true → b.initDone = true)
    (hdhcp : key = .ownIPAddress →
      (b.program (p.payload PROG_COMMAND) (p.reversed PROG_IP)).ram.dhcpEnable = 0) :
    Keeps key b (parseProgArtnet c p addr b).state :=
  (program_keeps b _ _ hinit).trans ((parseProg_leaves c p addr b).keeps hdhcp)

end packets

section terminal
variable (toInt : List UInt8 → ℤ) (text : CString) (b : Board)

theorem terminal_obeyed (hlen : text.1.length < 256) : Obeyed text.1 b (b.terminal toInt text.1) := by
  obtain ⟨u, b', hends, hobeyed⟩ := blynkWriteV12_ends toInt text.2 hlen hlen b
  have hstate : b.terminal toInt text.1 = b' := by
    simp only [Board.terminal, hends.1, hends.2, Option.isSome_some, if_true]
  rw [hstate]
  exact hobeyed

/-- The counter has eight bits: a longer text is never passed. -/
theorem terminal_long (hlen : 256 ≤ text.1.length) : b.terminal toInt text.1 = b := by
  have hnone : (blynkWriteV12 toInt 256 text.1 b).val = none := by
    unfold blynkWriteV12
    rw [bind_of_crash (fillGenBuf_never_ends hlen _ _ _ _)]
  simp only [Board.terminal, hnone, Option.isSome_none, Bool.false_eq_true, if_false]

theorem terminal_commanded : Commanded text.1 b (b.terminal toInt text.1) := by
  rcases Nat.lt_or_ge text.1.length 256 with hlen | hlen
  · exact (terminal_obeyed toInt text b hlen).commanded
  · rw [terminal_long toInt text b hlen]
    exact .quiet (SameConfig.refl b)

theorem terminal_keeps {key : NvsKey} (hname : firstWord text.1 = SETNAME → key ≠ .deviceName)
    (hip : firstWord text.1 = SETIP → key = .ownIPAddress → b.initDone = true) :
    Keeps key b (b.terminal toInt text.1) := by
  have hcommanded := terminal_commanded toInt text b
  generalize b.terminal toInt text.1 = b' at hcommanded
  cases hcommanded with
  | quiet hsame => exact hsame.keeps
  | setname name hsame hw =>
    exact hsame.keeps.trans ((Board.updateNvsVal_touches .deviceName _ _).keeps (hname hw))
  | setip addr hsame hw =>
    refine hsame.keeps.trans (Keeps.trans (setAddress_keeps _ ipAddressVar addr ?_)
      (Board.setByte_persists dhcpEnableVar DISABLE _).keeps)
    intro hk
    exact hsame.initDone.trans (hip hw hk)
  | setdhcp enable hsame =>
    exact hsame.keeps.trans (Board.setByte_persists dhcpEnableVar enable _).keeps

end terminal

/-- What an operation does not loosen agrees afterwards if it did before. -/
theorem perform_keeps (toInt : List UInt8 → ℤ) {key : NvsKey} (b : Board) (op : ConfigOp)
    (h : ¬ Loosens key b op) : Keeps key b (b.perform toInt op) := by
  have hinit (hne : ¬ b.initDone = false) : b.initDone = true := Bool.of_not_eq_false hne
  cases op with
  | setName name length =>
    by_cases hlen : length.toNat < NAME_MAX_LENGTH
    · exact (Board.setName_persists name _ b hlen).keeps
    · change Keeps key b (b.setName name length.toNat)
      rw [Board.setName_refuses name _ b (Nat.not_lt.mp hlen)]
      exact Keeps.refl key b
  | setSSID ssid length => exact setString_keeps b ssidVar ssid _
  | setPass pass length => exact setString_keeps b passVar pass _
  | setInputMode mode => exact (Board.setByte_persists inputModeVar mode b).keeps
  | setOutputMode mode => exact (Board.setByte_persists outputModeVar mode b).keeps
  | setOwnAddress address => exact (Board.setWord_ramOnly ownAddressVar address b).toTouches.keeps h
  | setOwnUniverse u => exact (Board.setWord_ramOnly ownUniverseVar u b).toTouches.keeps h
  | setSlots count =>
    change Keeps key b (b.setSlots count)
    by_cases hmin : DMX_MIN_SLOTS ≤ count.toNat
    · by_cases hmax : count.toNat < DMX_MAX_SLOTS
      · exact (Board.setSlots_touches count b).keeps fun hk => h ⟨hk, hmin, hmax⟩
      · rw [Board.setSlots_refuses count b (Or.inr (Nat.not_lt.mp hmax))]
        exact Keeps.refl key b
    · rw [Board.setSlots_refuses count b (Or.inl (Nat.not_le.mp hmin))]
      exact Keeps.refl key b
  | setOwnID id => exact (Board.setWord_ramOnly ownIDVar id b).toTouches.keeps h
  | setIP addr => exact setAddress_keeps b ipAddressVar addr fun hk => hinit fun hf => h ⟨hk, hf⟩
  | setNetmask addr => exact setAddress_keeps b netmaskVar addr fun hk => hinit fun hf => h ⟨hk, hf⟩
  | setGateway addr => exact setAddress_keeps b gatewayVar addr fun hk => hinit fun hf => h ⟨hk, hf⟩
  | setMac mac => exact (Board.setMac_persists mac b).keeps
  | setDHCPEnable enable => exact (Board.setByte_persists dhcpEnableVar enable b).keeps
  | setWifiManagerEnable enable => exact (Board.setByte_persists wifiManagerEnableVar enable b).keeps
  | getIP => exact getAddress_keeps b ipAddressVar fun hk => not_not.mp fun hd => h ⟨hk, hd⟩
  | getNetmask => exact getAddress_keeps b netmaskVar fun hk => not_not.mp fun hd => h ⟨hk, hd⟩
  | getGateway => exact getAddress_keeps b gatewayVar fun hk => not_not.mp fun hd => h ⟨hk, hd⟩
  | terminal text =>
    apply terminal_keeps toInt text b
    · intro hw hk
      exact h (Or.inl ⟨hk, hw⟩)
    · intro hw hk
      exact hinit fun hf => h (Or.inr ⟨hk, hw, hf⟩)
  | artAddress c p addr =>
    exact (artAddress_keeps c p addr b fun hk => not_not.mp fun hd => h ⟨hk, hd⟩).1
  | artIpProg c p addr =>
    apply artIpProg_keeps c p addr b
    · intro hk hs
      exact hinit fun hf => h ⟨hk, Or.inl ⟨hs, hf⟩⟩
    · intro hk
      exact not_not.mp fun hd => h ⟨hk, Or.inr hd⟩
  | setInitDone => exact ⟨fun hr => ⟨hr.sound, hr.up⟩, fun _ ha => ha⟩

/-- What an operation writes agrees afterwards in any case. -/
theorem perform_writes (toInt : List UInt8 → ℤ) {key : NvsKey} (b : Board) (op : ConfigOp)
    (hr : b.Ready) (h : Writes key b op) : (b.perform toInt op).Agrees key := by
  cases op with
  | setName name length =>
    obtain ⟨rfl, hlen⟩ := h
    exact (Board.setName_persists name _ b hlen).agrees hr
  | setSSID ssid length =>
    obtain ⟨rfl, hlen⟩ := h
    exact (Board.setString_persists ssidVar ssid _ b hlen).agrees hr
  | setPass pass length =>
    obtain ⟨rfl, hlen⟩ := h
    exact (Board.setString_persists passVar pass _ b hlen).agrees hr
  | setInputMode mode => exact h ▸ (Board.setByte_persists inputModeVar mode b).agrees hr
  | setOutputMode mode => exact h ▸ (Board.setByte_persists outputModeVar mode b).agrees hr
  | setIP addr =>
    obtain ⟨rfl, hinit⟩ := h
    exact (Board.setAddress_late ipAddressVar addr b hinit hr.up).agrees hr
  | setNetmask addr =>
    obtain ⟨rfl, hinit⟩ := h
    exact (Board.setAddress_late netmaskVar addr b hinit hr.up).agrees hr
  | setGateway addr =>
    obtain ⟨rfl, hinit⟩ := h
    exact (Board.setAddress_late gatewayVar addr b hinit hr.up).agrees hr
  | setMac mac => exact h ▸ (Board.setMac_persists mac b).agrees hr
  | setDHCPEnable enable => exact h ▸ (Board.setByte_persists dhcpEnableVar enable b).agrees hr
  | setWifiManagerEnable enable => exact h ▸ (Board.setByte_persists wifiManagerEnableVar enable b).agrees hr
  | artAddress c p addr =>
    have hip : key = .ownIPAddress → b.ram.dhcpEnable = 0 := by
      intro hk
      exact absurd (hk.symm.trans h) (by decide)
    exact (artAddress_keeps c p addr b hip).2 hr h
  | _ => exact h.elim

/-- No operation loosens the key that has no variable, so every one keeps the board ready. -/
theorem perform_ready (toInt : List UInt8 → ℤ) (b : Board) (op : ConfigOp) (hr : b.Ready) :
    (b.perform toInt op).Ready := by
  have hloose : ¬ Loosens .ownUUID b op := by cases op <;> simp [Loosens]
  exact (perform_keeps toInt b op hloose).ready hr

end BlizzardBridge
