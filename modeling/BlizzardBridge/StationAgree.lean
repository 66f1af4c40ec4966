import BlizzardBridge.ArtnetProg

/-! The station interface against the settings. A setter of an address changes its own
word of the interface and stops the DHCP client; `setDHCPEnable` changes the flag alone. -/
namespace BlizzardBridge
open CArray Program EventMachine

/-- The three words of `tcpip_adapter_ip_info_t`. -/
inductive InfoField where
  | ip
  | netmask
  | gw
  deriving DecidableEq, Repr

def InfoField.var : InfoField → AddressVar
  | .ip => ipAddressVar
  | .netmask => netmaskVar
  | .gw => gatewayVar

/-- The word that an address in RAM stands for; its octet 3 is the first. -/
def denotes (a : Bytes) : UInt32 := IP4_ADDR (a 3) (a 2) (a 1) (a 0)

/-- The interface and its DHCP client, and beside them what the settings say of both. -/
@[ext] structure Station where
  client : Bool
  enable : UInt8
  word : InfoField → UInt32
  denoted : InfoField → UInt32

namespace Station

/-- A static address takes effect, and nothing else of the interface changes. -/
def assign (f : InfoField) (w : UInt32) (s : Station) : Station where
  client := false
  enable := DISABLE
  word := Function.update s.word f w
  denoted := Function.update s.denoted f w

def switch (x : UInt8) (s : Station) : Station := { s with enable := x }

/-- With DHCP enabled an answer keeps the own address that it has read. -/
def ask (w : UInt32) (s : Station) : Station :=
  if s.enable = DISABLE then s else { s with denoted := Function.update s.denoted .ip w }

/-- The client runs exactly while DHCP is enabled, and a static configuration is in effect. -/
structure Consistent (s : Station) : Prop where
  client : s.client = true ↔ s.enable = ENABLE
  static : s.enable = DISABLE → ∀ f, s.word f = s.denoted f

def OthersAgree (f : InfoField) (s : Station) : Prop := ∀ g, g ≠ f → s.word g = s.denoted g

theorem assign_consistent_iff (f : InfoField) (w : UInt32) (s : Station) :
    (s.assign f w).Consistent ↔ s.OthersAgree f := by
  have hother (g : InfoField) (hg : g ≠ f) :
      ((s.assign f w).word g = (s.assign f w).denoted g ↔ s.word g = s.denoted g) := by
    simp only [assign, Function.update_of_ne hg]
  have hself : (s.assign f w).word f = (s.assign f w).denoted f := by
    simp only [assign, Function.update_self]
  constructor
  · intro h g hg
    exact (hother g hg).mp (h.static rfl g)
  · intro h
    have hoff : (s.assign f w).enable ≠ ENABLE := (by decide : DISABLE ≠ ENABLE)
    refine ⟨iff_of_false Bool.false_ne_true hoff, fun _ g => ?_⟩
    by_cases hg : g = f
    · rw [hg]
      exact hself
    · exact (hother g hg).mpr (h g hg)

/-- The client goes by the flag before the call. -/
theorem switch_consistent_iff {x : UInt8} {s : Station} (h : s.Consistent)
    (hs : s.enable = ENABLE ∨ s.enable = DISABLE) (hx : x = ENABLE ∨ x = DISABLE) :
    (s.switch x).Consistent ↔ s.enable = x := by
  constructor
  · intro h'
    have hflag : s.enable = ENABLE ↔ x = ENABLE := h.client.symm.trans h'.client
    rcases hs with hs | hs
    · rw [hs]
      exact (hflag.mp hs).symm
    · have hne : s.enable ≠ ENABLE := by rw [hs]; decide
      rw [hs]
      exact (hx.resolve_left (mt hflag.mpr hne)).symm
  · intro heq
    have hsame : s.switch x = s := by rw [← heq]; rfl
    rw [hsame]
    exact h

theorem ask_consistent_iff (w : UInt32) (s : Station) : (s.ask w).Consistent ↔ s.Consistent := by
  unfold ask
  split
  · exact Iff.rfl
  · rename_i hne
    -- with DHCP enabled the address in RAM says nothing about the interface
    constructor
    · intro h
      exact ⟨h.client, fun hstatic => absurd hstatic hne⟩
    · intro h
      exact ⟨h.client, fun hstatic => absurd hstatic hne⟩

end Station

namespace Board

def toStation (b : Board) : Station where
  client := b.netif.dhcpc
  enable := b.ram.dhcpEnable
  word f := f.var.word b.netif.info
  denoted f := denotes (f.var.get b.ram)

/-- After the start, with an interface that answers and a flag of the two values. -/
structure Running (b : Board) : Prop where
  initDone : b.initDone = true
  up : b.netif.up = true
  enable : b.ram.dhcpEnable = ENABLE ∨ b.ram.dhcpEnable = DISABLE

end Board

section fields
variable (f g : InfoField)

theorem InfoField.word_setWord (w : UInt32) (i : IpInfo) :
    g.var.word (f.var.setWord w i) = Function.update (fun g => g.var.word i) f w g := by
  cases f <;> cases g <;> rfl

theorem InfoField.get_set (a : Bytes) (s : Settings) :
    g.var.get (f.var.set a s) = Function.update (fun g => g.var.get s) f a g := by
  cases f <;> cases g <;> rfl

theorem InfoField.get_dhcpEnable (x : UInt8) (s : Settings) :
    g.var.get (dhcpEnableVar.set x s) = g.var.get s := by
  cases g <;> rfl

theorem InfoField.dhcpEnable_set (a : Bytes) (s : Settings) :
    (f.var.set a s).dhcpEnable = s.dhcpEnable := by
  cases f <;> rfl

theorem denotes_copyDown (a addr : Bytes) : denotes (copyDown a addr 4) = denotes addr := by
  have hoctet (i : ℕ) (hi : i < 4) : copyDown a addr 4 i = addr i := by
    rw [copyDown_apply, if_pos hi]
  unfold denotes
  rw [hoctet 3 (by decide), hoctet 2 (by decide), hoctet 1 (by decide), hoctet 0 (by decide)]

/-- A change of one address in RAM changes what one field denotes. -/
theorem denotes_get_set (a : Bytes) (s : Settings) :
    (fun g : InfoField => denotes (g.var.get (f.var.set a s))) =
      Function.update (fun g : InfoField => denotes (g.var.get s)) f (denotes a) := by
  funext g
  rw [f.get_set g]
  by_cases hg : g = f
  · rw [hg, Function.update_self, Function.update_self]
  · rw [Function.update_of_ne hg, Function.update_of_ne hg]

end fields

namespace Board

section simulation
variable (b : Board)

theorem toStation_setDHCPEnable (x : UInt8) :
    (b.setDHCPEnable x).toStation = b.toStation.switch x := by
  apply Station.ext
  · rfl
  · rfl
  · rfl
  · funext g
    exact congrArg denotes (g.get_dhcpEnable x b.ram)

theorem toStation_setAddress (f : InfoField) (addr : Bytes) (hinit : b.initDone = true)
    (hup : b.netif.up = true) :
    ((b.setAddress f.var addr).setDHCPEnable DISABLE).toStation =
      b.toStation.assign f (denotes addr) := by
  let stored := f.var.set (copyDown (f.var.get b.ram) addr 4) b.ram
  have hset : b.setAddress f.var addr =
      { (b.setIpInfo f.var.setWord addr).updateBlobNvsVal f.var.key addr 4 with ram := stored } := by
    simp only [setAddress, hinit, hup, Bool.not_true, Bool.false_eq_true, if_false, if_true, stored]
  have hinfo : b.getIpInfo = b.netif.info := if_pos hup
  rw [toStation_setDHCPEnable, hset]
  apply Station.ext
  · rfl
  · rfl
  · funext g
    change g.var.word (f.var.setWord (denotes addr) b.getIpInfo) = _
    rw [hinfo]
    exact f.word_setWord g (denotes addr) b.netif.info
  · have hdenoted := denotes_get_set f (copyDown (f.var.get b.ram) addr 4) b.ram
    rw [denotes_copyDown] at hdenoted
    exact hdenoted

theorem toStation_getIP : ∃ w, b.getIP.toStation = b.toStation.ask w := by
  let octets := octets b.getIpInfo.ip
  refine ⟨denotes octets, ?_⟩
  by_cases hdhcp : b.ram.dhcpEnable = 0
  · have hget : b.getIP = b := getAddress_static ipAddressVar b hdhcp
    have hask : b.toStation.ask (denotes octets) = b.toStation := if_pos hdhcp
    rw [hget, hask]
  · have hget : b.getIP =
        { b with ram := InfoField.ip.var.set (copyDown b.ram.ipAddress octets 4) b.ram } := if_neg hdhcp
    have hask : b.toStation.ask (denotes octets) =
        { b.toStation with denoted := Function.update b.toStation.denoted .ip (denotes octets) } :=
      if_neg hdhcp
    rw [hget, hask]
    apply Station.ext
    · rfl
    · rfl
    · rfl
    · have hdenoted := denotes_get_set .ip (copyDown b.ram.ipAddress octets 4) b.ram
      rw [denotes_copyDown] at hdenoted
      exact hdenoted

theorem toStation_sameConfig {b b' : Board} (h : SameConfig b b') : b'.toStation = b.toStation := by
  unfold toStation
  rw [h.netif, h.ram]

theorem replied_consistent_iff (c : Calls) :
    (b.replied c).toStation.Consistent ↔ b.toStation.Consistent := by
  unfold replied
  split
  · obtain ⟨w, hw⟩ := toStation_getIP b
    rw [hw]
    exact b.toStation.ask_consistent_iff w
  · exact Iff.rfl

end simulation

section running
variable {b : Board}

theorem Running.setDHCPEnable (h : b.Running) {x : UInt8} (hx : x = ENABLE ∨ x = DISABLE) :
    (b.setDHCPEnable x).Running := ⟨h.initDone, h.up, hx⟩

theorem Running.assign (h : b.Running) (f : AddressVar) (addr : Bytes) :
    ((b.setAddress f addr).setDHCPEnable DISABLE).Running := by
  have htouches := setAddress_touches f addr b
  exact ⟨htouches.initDone.trans h.initDone, htouches.up.trans h.up, Or.inr rfl⟩

theorem Running.replied (h : b.Running) (c : Calls) : (b.replied c).Running := by
  have htouches := replied_touches c b
  refine ⟨htouches.initDone.trans h.initDone, htouches.up.trans h.up, ?_⟩
  rw [htouches.dhcpEnable (by decide)]
  exact h.enable

theorem Running.sameConfig (h : b.Running) {b' : Board} (hsame : SameConfig b b') : b'.Running where
  initDone := hsame.initDone.trans h.initDone
  up := by rw [hsame.netif]; exact h.up
  enable := by rw [hsame.ram]; exact h.enable

theorem Running.assign_iff (h : b.Running) (f : InfoField) (addr : Bytes) :
    ((b.setAddress f.var addr).setDHCPEnable DISABLE).toStation.Consistent ↔
      b.toStation.OthersAgree f := by
  rw [toStation_setAddress b f addr h.initDone h.up]
  exact Station.assign_consistent_iff f (denotes addr) b.toStation

theorem Running.switch_iff (h : b.Running) (hc : b.toStation.Consistent) {x : UInt8}
    (hx : x = ENABLE ∨ x = DISABLE) :
    (b.setDHCPEnable x).toStation.Consistent ↔ b.ram.dhcpEnable = x := by
  rw [toStation_setDHCPEnable]
  exact Station.switch_consistent_iff hc h.enable hx

end running

end Board

/-- What the callers do after the start. A setter of an address is followed by
`setDHCPEnable(DISABLE)`. -/
inductive StationOp where
  | setIP (addr : Bytes)
  | setNetmask (addr : Bytes)
  | setGateway (addr : Bytes)
  | setDHCPEnable (enable : {x : UInt8 // x = ENABLE ∨ x = DISABLE})
  | terminal (text : CString)
  | artIpProg (c : Calls) (p : Pbuf) (addr : UInt32)

def Board.operate (toInt : List UInt8 → ℤ) (b : Board) : StationOp → Board
  | .setIP addr => (b.setIP addr).setDHCPEnable DISABLE
  | .setNetmask addr => (b.setNetmask addr).setDHCPEnable DISABLE
  | .setGateway addr => (b.setGateway addr).setDHCPEnable DISABLE
  | .setDHCPEnable enable => b.setDHCPEnable enable.1
  | .terminal text => b.terminal toInt text.1
  | .artIpProg c p addr => (parseProgArtnet c p addr b).state

def stationMachine (toInt : List UInt8 → ℤ) (b : Board) (op : StationOp) : Board × List Empty :=
  (b.operate toInt op, [])

/-- A setter of one address finds the other two in effect, and the flag is set to what it
is already. -/
def Safe (b : Board) : StationOp → Prop
  | .setIP _ => b.toStation.OthersAgree .ip
  | .setNetmask _ => b.toStation.OthersAgree .netmask
  | .setGateway _ => b.toStation.OthersAgree .gw
  | .setDHCPEnable enable => b.ram.dhcpEnable = enable.1
  -- a longer text is never passed
  | .terminal text => text.1.length < 256 →
      (AsksIP text.1 → b.toStation.OthersAgree .ip) ∧
        ∀ x, askedDHCP text.1 = some x → b.ram.dhcpEnable = x
  | .artIpProg _ p _ =>
      (progStatic (p.payload PROG_COMMAND) = true → b.toStation.OthersAgree .ip) ∧
        (progEn (p.payload PROG_COMMAND) = true → dhcpEn (p.payload PROG_COMMAND) = true →
          b.ram.dhcpEnable = ENABLE)

section terminal
variable {val : List UInt8}

theorem askedDHCP_of_asksIP (h : AsksIP val) : askedDHCP val = none :=
  askedDHCP_none h.1 (by decide)

theorem not_asksIP_of_askedDHCP {x : UInt8} (h : askedDHCP val = some x) : ¬ AsksIP val := by
  intro hasks
  rw [askedDHCP_of_asksIP hasks] at h
  exact Option.some_ne_none x h.symm

theorem askedDHCP_values {x : UInt8} (h : askedDHCP val = some x) : x = ENABLE ∨ x = DISABLE := by
  unfold askedDHCP at h
  split_ifs at h
  · exact Or.inl (Option.some.inj h).symm
  · exact Or.inr (Option.some.inj h).symm

variable {b b' : Board} (h : b.Running) (ho : Obeyed val b b')
include h ho

theorem Board.Running.obeyed : b'.Running := by
  cases ho with
  | quiet hsame _ _ => exact h.sameConfig hsame
  | setname name hsame _ =>
    have h₀ := h.sameConfig hsame
    exact ⟨h₀.initDone, h₀.up, h₀.enable⟩
  | setip addr hsame _ => exact (h.sameConfig hsame).assign ipAddressVar addr
  | setdhcp enable hsame hasked =>
    exact (h.sameConfig hsame).setDHCPEnable (askedDHCP_values hasked)

theorem obeyed_consistent_iff (hc : b.toStation.Consistent) :
    b'.toStation.Consistent ↔ (AsksIP val → b.toStation.OthersAgree .ip) ∧
      ∀ x, askedDHCP val = some x → b.ram.dhcpEnable = x := by
  cases ho with
  | quiet hsame hip hdhcp =>
    rw [Board.toStation_sameConfig hsame]
    refine iff_of_true hc ⟨fun hasks => absurd hasks hip, fun x hx => ?_⟩
    exact absurd (hdhcp.symm.trans hx) (Option.some_ne_none x).symm
  | @setname b₀ name hsame hw =>
    -- the command changes NVS alone
    have hnvs : (b₀.updateStrNvsVal .deviceName name).toStation = b₀.toStation := rfl
    rw [hnvs, Board.toStation_sameConfig hsame]
    refine iff_of_true hc ⟨fun hasks => absurd hasks (not_asksIP hw (by decide)), fun x hx => ?_⟩
    have hnone : askedDHCP val = none := askedDHCP_none hw (by decide)
    exact absurd (hnone.symm.trans hx) (Option.some_ne_none x).symm
  | @setip b₀ addr hsame hasks =>
    have hstation := Board.toStation_sameConfig hsame
    calc ((b₀.setIP addr).setDHCPEnable DISABLE).toStation.Consistent
        ↔ b₀.toStation.OthersAgree .ip := (h.sameConfig hsame).assign_iff .ip addr
      _ ↔ b.toStation.OthersAgree .ip := by rw [hstation]
      _ ↔ _ := by simp only [hasks, askedDHCP_of_asksIP hasks, forall_const, reduceCtorEq,
          false_implies, and_true]
  | @setdhcp b₀ enable hsame hasked =>
    have hstation := Board.toStation_sameConfig hsame
    have hc₀ : b₀.toStation.Consistent := by rw [hstation]; exact hc
    calc (b₀.setDHCPEnable enable).toStation.Consistent
        ↔ b₀.ram.dhcpEnable = enable :=
          (h.sameConfig hsame).switch_iff hc₀ (askedDHCP_values hasked)
      _ ↔ b.ram.dhcpEnable = enable := by rw [hsame.ram]
      _ ↔ _ := by simp only [not_asksIP_of_askedDHCP hasked, hasked, Option.some.injEq,
          false_implies, true_and, forall_eq']

end terminal

section prog
variable (command : UInt8) (ip : Bytes) {b : Board} (h : b.Running)
include h

theorem Board.Running.program : (b.program command ip).Running := by
  unfold Board.program
  split_ifs
  · exact h
  · exact h.setDHCPEnable (Or.inl rfl)
  · exact h.assign ipAddressVar ip
  · exact h

theorem program_consistent_iff (hc : b.toStation.Consistent) :
    (b.program command ip).toStation.Consistent ↔
      (progStatic command = true → b.toStation.OthersAgree .ip) ∧
        (progEn command = true → dhcpEn command = true → b.ram.dhcpEnable = ENABLE) := by
  unfold Board.program progStatic
  cases progEn command with
  | false => exact iff_of_true hc ⟨by simp, by simp⟩
  | true =>
    cases dhcpEn command with
    | true =>
      have hswitch := h.switch_iff hc (Or.inl rfl : ENABLE = ENABLE ∨ ENABLE = DISABLE)
      simpa using hswitch
    | false =>
      cases progIP command with
      | true =>
        have hassign : ((b.setIP ip).setDHCPEnable DISABLE).toStation.Consistent ↔
            b.toStation.OthersAgree .ip := h.assign_iff .ip ip
        simpa using hassign
      | false => exact iff_of_true hc ⟨by simp, by simp⟩

end prog

theorem operate_running (toInt : List UInt8 → ℤ) (b : Board) (op : StationOp) (h : b.Running) :
    (b.operate toInt op).Running := by
  cases op with
  | setIP addr => exact h.assign ipAddressVar addr
  | setNetmask addr => exact h.assign netmaskVar addr
  | setGateway addr => exact h.assign gatewayVar addr
  | setDHCPEnable enable => exact h.setDHCPEnable enable.2
  | terminal text =>
    change (b.terminal toInt text.1).Running
    rcases Nat.lt_or_ge text.1.length 256 with hlen | hlen
    · exact h.obeyed (terminal_obeyed toInt text b hlen)
    · rw [terminal_long toInt text b hlen]
      exact h
  | artIpProg c p addr =>
    change (parseProgArtnet c p addr b).state.Running
    rw [parseProg_state]
    exact (h.program _ _).replied c

/-- An operation keeps the interface consistent exactly when it is safe. -/
theorem operate_consistent_iff (toInt : List UInt8 → ℤ) (b : Board) (op : StationOp)
    (h : b.Running) (hc : b.toStation.Consistent) :
    (b.operate toInt op).toStation.Consistent ↔ Safe b op := by
  cases op with
  | setIP addr => exact h.assign_iff .ip addr
  | setNetmask addr => exact h.assign_iff .netmask addr
  | setGateway addr => exact h.assign_iff .gw addr
  | setDHCPEnable enable => exact h.switch_iff hc enable.2
  | terminal text =>
    change (b.terminal toInt text.1).toStation.Consistent ↔ Safe b (.terminal text)
    rcases Nat.lt_or_ge text.1.length 256 with hlen | hlen
    · have hiff := obeyed_consistent_iff h (terminal_obeyed toInt text b hlen) hc
      rw [hiff]
      exact ⟨fun hsafe _ => hsafe, fun hsafe => hsafe hlen⟩
    · rw [terminal_long toInt text b hlen]
      exact iff_of_true hc fun hshort => absurd hlen (Nat.not_le.mpr hshort)
  | artIpProg c p addr =>
    let b₁ := b.program (p.payload PROG_COMMAND) (p.reversed PROG_IP)
    have hstate : (parseProgArtnet c p addr b).state = b₁.replied c := parseProg_state c p addr b
    calc (parseProgArtnet c p addr b).state.toStation.Consistent
        ↔ b₁.toStation.Consistent := by rw [hstate, Board.replied_consistent_iff]
      _ ↔ _ := program_consistent_iff _ _ h hc

section start
variable (portal : Board → Board) (connect : Netif → Netif) {b : Board}

/-- Before `INIT_DONE` an address goes to RAM alone. -/
structure Untouched (b b' : Board) : Prop where
  netif : b'.netif = b.netif
  dhcpEnable : b'.ram.dhcpEnable = b.ram.dhcpEnable
  initDone : b'.initDone = b.initDone

theorem Untouched.trans {b b' b'' : Board} (h : Untouched b b') (h' : Untouched b' b'') :
    Untouched b b'' where
  netif := h'.netif.trans h.netif
  dhcpEnable := h'.dhcpEnable.trans h.dhcpEnable
  initDone := h'.initDone.trans h.initDone

theorem restoreAddress_untouched (f : InfoField) (b : Board) (hinit : b.initDone = false) :
    Untouched b (b.restoreAddress f.var) := by
  have hget : Untouched b (b.getAddress f.var) := by
    unfold Board.getAddress
    split
    · exact ⟨rfl, rfl, rfl⟩
    · exact ⟨rfl, f.dhcpEnable_set _ _, rfl⟩
  have hset (b : Board) (addr : Bytes) (hinit : b.initDone = false) :
      Untouched b (b.setAddress f.var addr) := by
    have hram : b.setAddress f.var addr =
        { b with ram := f.var.set (copyDown (f.var.get b.ram) addr 4) b.ram } := by
      simp only [Board.setAddress, hinit, Bool.not_false, if_true]
    rw [hram]
    exact ⟨rfl, f.dhcpEnable_set _ _, rfl⟩
  exact hget.trans (hset _ _ (hget.initDone.trans hinit))

theorem start_untouched (hpath : b.ram.wifiManagerEnable ≠ ENABLE) (hinit : b.initDone = false) :
    (b.startConnectionManager portal connect).netif = connect b.netif ∧
      (b.startConnectionManager portal connect).ram.dhcpEnable = b.ram.dhcpEnable ∧
      (b.startConnectionManager portal connect).initDone = true := by
  let b₁ : Board := { b with netif := connect b.netif }
  have hrestore : Untouched b₁ (if b₁.ram.dhcpEnable = DISABLE then
      ((b₁.restoreAddress ipAddressVar).restoreAddress netmaskVar).restoreAddress gatewayVar
      else b₁) := by
    split
    · have hip := restoreAddress_untouched .ip b₁ hinit
      have hinit₂ := hip.initDone.trans hinit
      have hmask := restoreAddress_untouched .netmask _ hinit₂
      have hinit₃ := hmask.initDone.trans hinit₂
      exact (hip.trans hmask).trans (restoreAddress_untouched .gw _ hinit₃)
    · exact ⟨rfl, rfl, rfl⟩
  unfold Board.startConnectionManager
  rw [if_neg hpath]
  exact ⟨hrestore.netif, hrestore.dhcpEnable, rfl⟩

end start

/-- The station joins with its DHCP client, and its interface answers. -/
structure ConnectsByDhcp (connect : Netif → Netif) : Prop where
  client : ∀ n, (connect n).dhcpc = true
  up : ∀ n, (connect n).up = true

/-- The interface is consistent after the start and after every operation exactly when DHCP
is enabled at the start and every operation is safe. -/
theorem stays_consistent_iff (portal : Board → Board) {connect : Netif → Netif}
    (hconnect : ConnectsByDhcp connect) (toInt : List UInt8 → ℤ) (b : Board)
    (hpath : b.ram.wifiManagerEnable ≠ ENABLE) (hinit : b.initDone = false) (ops : List StationOp) :
    (∀ done, done <+: ops → (exec (stationMachine toInt)
      (b.startConnectionManager portal connect) done).toStation.Consistent) ↔
      b.ram.dhcpEnable = ENABLE ∧
        Along (stationMachine toInt) Safe (b.startConnectionManager portal connect) ops := by
  let b₁ := b.startConnectionManager portal connect
  obtain ⟨hnetif, henable, hdone⟩ := start_untouched portal connect hpath hinit
  have hclient : b₁.toStation.client = true := by
    change b₁.netif.dhcpc = true
    rw [hnetif]
    exact hconnect.client b.netif
  -- the start leaves the client running, whatever the flag says
  have hstart : b₁.toStation.Consistent ↔ b.ram.dhcpEnable = ENABLE := by
    constructor
    · intro h
      exact henable.symm.trans (h.client.mp hclient)
    · intro h
      have hon : b₁.ram.dhcpEnable = ENABLE := henable.trans h
      refine ⟨iff_of_true hclient hon, fun hoff => ?_⟩
      exact absurd (hon.symm.trans hoff) (by decide)
  by_cases h : b.ram.dhcpEnable = ENABLE
  · have hrunning : b₁.Running := by
      refine ⟨hdone, ?_, Or.inl (henable.trans h)⟩
      rw [hnetif]
      exact hconnect.up b.netif
    have halong : Along (stationMachine toInt) (fun b _ => b.Running) b₁ ops :=
      along_invariant (operate_running toInt) hrunning ops
    have hruns := forall_prefix_iff_along (I := fun b => b.toStation.Consistent)
      (operate_consistent_iff toInt) halong
    exact hruns.trans (and_congr_left' hstart)
  · refine iff_of_false (fun hall => ?_) fun hsafe => h hsafe.1
    exact h (hstart.mp (hall [] List.nil_prefix))

/-- The station is given 10.0.0.5, with its mask and its gateway. -/
def joinHome (n : Netif) : Netif :=
  { n with
    info := ⟨IP4_ADDR 10 0 0 5, IP4_ADDR 255 0 0 0, IP4_ADDR 10 0 0 1⟩
    dhcpc := true
    up := true }

def atHome (dhcpEnable : UInt8) : Board :=
  let b := Board.reset (Board.storage fun _ => none) Board.station
  { b with ram := { b.ram with
    netmask := fun i => if i = 3 then 255 else 0
    gateway := fun i => if i = 3 then 10 else if i = 0 then 1 else 0
    dhcpEnable := dhcpEnable } }

def homeOps : List StationOp :=
  [.setDHCPEnable ⟨ENABLE, Or.inl rfl⟩, .setIP fun i => if i = 3 then 10 else 7,
    .setDHCPEnable ⟨DISABLE, Or.inr rfl⟩, .setNetmask fun _ => 255]

/-- The mask and the gateway of the lease are the stored ones, so a static address can follow. -/
theorem stays_consistent_iff_static : (exec (stationMachine fun _ => 0)
    ((atHome ENABLE).startConnectionManager id joinHome) homeOps).toStation.Consistent := by
  have hconnect : ConnectsByDhcp joinHome := ⟨fun _ => rfl, fun _ => rfl⟩
  have hsafe : Along (stationMachine fun _ => 0) Safe
      ((atHome ENABLE).startConnectionManager id joinHome) homeOps := by
    refine ⟨rfl, ?_, rfl, ?_, trivial⟩
    · intro g hg
      cases g with
      | ip => exact absurd rfl hg
      | netmask => rfl
      | gw => rfl
    · intro g hg
      cases g with
      | ip => rfl
      | netmask => exact absurd rfl hg
      | gw => rfl
  have hall := (stays_consistent_iff id hconnect (fun _ => 0) (atHome ENABLE) (by decide) rfl
    homeOps).mpr ⟨rfl, hsafe⟩
  exact hall homeOps (List.prefix_refl _)

/-- A static configuration is not in effect after the start. -/
theorem stays_consistent_fails : ¬ ∀ (portal : Board → Board) (connect : Netif → Netif),
    ConnectsByDhcp connect → ∀ (toInt : List UInt8 → ℤ) (b : Board),
      b.ram.wifiManagerEnable ≠ ENABLE → b.initDone = false → ∀ ops done, done <+: ops →
        (exec (stationMachine toInt)
          (b.startConnectionManager portal connect) done).toStation.Consistent := by
  intro hall
  have hstatic := hall id joinHome ⟨fun _ => rfl, fun _ => rfl⟩ (fun _ => 0) (atHome DISABLE)
    (by decide) rfl [] [] List.nil_prefix
  have henable : DISABLE = ENABLE := hstatic.client.mp rfl
  exact absurd henable (by decide)

end BlizzardBridge
