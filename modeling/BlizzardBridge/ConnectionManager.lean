import BlizzardBridge.Board

/-! The setters and getters of `blizzard_connection_manager.c`. Before `INIT_DONE` an
address is set in RAM only, for the loader; afterwards it goes to the interface, to
NVS and to RAM. A getter answers from the interface while DHCP is enabled and keeps
the answer in RAM. -/
namespace BlizzardBridge
open CArray

/-- lwIP puts the first octet in the low-order byte. -/
def IP4_ADDR (a b c d : UInt8) : UInt32 :=
  d.toUInt32 <<< 24 ||| c.toUInt32 <<< 16 ||| b.toUInt32 <<< 8 ||| a.toUInt32

/-- `SSID` or `PASS`: its key, the size of its array, and its variable. -/
structure StringVar where
  key : NvsKey
  max : ℕ
  get : Settings → Bytes
  set : Bytes → Settings → Settings
  max_lt : max + 3 < 256
  value_self : ∀ a s, (set a s).value key = some (.str (cString a NVS_STR_MAX))
  value_other : ∀ a s, ∀ j ≠ key, (set a s).value j = s.value j

def ssidVar : StringVar where
  key := .ssid
  max := SSID_MAX_LENGTH
  get s := s.ssid
  set a s := { s with ssid := a }
  max_lt := by decide
  value_self _ _ := rfl
  value_other _ _ j hj := by cases j <;> first | rfl | exact absurd rfl hj

def passVar : StringVar where
  key := .pass
  max := PASS_MAX_LENGTH
  get s := s.pass
  set a s := { s with pass := a }
  max_lt := by decide
  value_self _ _ := rfl
  value_other _ _ j hj := by cases j <;> first | rfl | exact absurd rfl hj

/-- One of the three addresses: its key, its variable, and its word of the interface
information. A change of the variable changes the value of this key only. -/
structure AddressVar where
  key : NvsKey
  get : Settings → Bytes
  set : Bytes → Settings → Settings
  word : IpInfo → UInt32
  setWord : UInt32 → IpInfo → IpInfo
  value_self : ∀ a s, (set a s).value key = some (.blob (take a 4))
  value_other : ∀ a s, ∀ j ≠ key, (set a s).value j = s.value j

def ipAddressVar : AddressVar where
  key := .ownIPAddress
  get s := s.ipAddress
  set a s := { s with ipAddress := a }
  word i := i.ip
  setWord w i := { i with ip := w }
  value_self _ _ := rfl
  value_other _ _ j hj := by cases j <;> first | rfl | exact absurd rfl hj

def netmaskVar : AddressVar where
  key := .ownNetmask
  get s := s.netmask
  set a s := { s with netmask := a }
  word i := i.netmask
  setWord w i := { i with netmask := w }
  value_self _ _ := rfl
  value_other _ _ j hj := by cases j <;> first | rfl | exact absurd rfl hj

def gatewayVar : AddressVar where
  key := .gateway
  get s := s.gateway
  set a s := { s with gateway := a }
  word i := i.gw
  setWord w i := { i with gw := w }
  value_self _ _ := rfl
  value_other _ _ j hj := by cases j <;> first | rfl | exact absurd rfl hj

def dhcpEnableVar : ByteVar where
  key := .dhcpEnable
  set x s := { s with dhcpEnable := x }
  value_self _ _ := rfl
  value_other _ _ j hj := by cases j <;> first | rfl | exact absurd rfl hj

def wifiManagerEnableVar : ByteVar where
  key := .wifiManagerEnable
  set x s := { s with wifiManagerEnable := x }
  value_self _ _ := rfl
  value_other _ _ j hj := by cases j <;> first | rfl | exact absurd rfl hj

namespace Board

/-- The length counts a terminator, and 0 asks for the default. The comparison
`length - 2 > max` is made in `int`. -/
def setString (f : StringVar) (src : Bytes) (length : ℕ) (b : Board) : Board :=
  if f.max + 2 < length then b
  else
    let length := if length = 0 then f.max - 1 else length
    let stored := terminate (copyWrite src length 0 (f.get b.ram))
    updateStrNvsVal f.key stored { b with ram := f.set stored b.ram }

def setSSID : Bytes → ℕ → Board → Board := setString ssidVar

def setPass : Bytes → ℕ → Board → Board := setString passVar

-- The strings at the addresses that the getters return.
def getSSID (b : Board) : CString := cString b.ram.ssid NVS_STR_MAX

def getPass (b : Board) : CString := cString b.ram.pass NVS_STR_MAX

-- `a[3] = addr >> 24; .. a[0] = addr;`
def octets (addr : UInt32) : Bytes := fun i => (addr >>> (8 * i).toUInt32).toUInt8

def getIpInfo (b : Board) : IpInfo := if b.netif.up then b.netif.info else b.netif.unset

def getAddress (f : AddressVar) (b : Board) : Board :=
  if b.ram.dhcpEnable = 0 then b
  else { b with ram := f.set (copyDown (f.get b.ram) (octets (f.word b.getIpInfo)) 4) b.ram }

def getIP : Board → Board := getAddress ipAddressVar

def getNetmask : Board → Board := getAddress netmaskVar

def getGateway : Board → Board := getAddress gatewayVar

/-- `tcpip_adapter_dhcpc_stop`, `IP4_ADDR` on one word of the current information, and
`tcpip_adapter_set_ip_info`. -/
def setIpInfo (word : UInt32 → IpInfo → IpInfo) (addr : Bytes) (b : Board) : Board :=
  { b with netif := { b.netif with
      dhcpc := false
      info := word (IP4_ADDR (addr 3) (addr 2) (addr 1) (addr 0)) b.getIpInfo } }

def setAddress (f : AddressVar) (addr : Bytes) (b : Board) : Board :=
  let stored := f.set (copyDown (f.get b.ram) addr 4) b.ram
  if !b.initDone then { b with ram := stored }
  else if b.netif.up then
    { (b.setIpInfo f.setWord addr).updateBlobNvsVal f.key addr 4 with ram := stored }
  else b

def setIP : Bytes → Board → Board := setAddress ipAddressVar

def setNetmask : Bytes → Board → Board := setAddress netmaskVar

def setGateway : Bytes → Board → Board := setAddress gatewayVar

def setMac (mac : Bytes) (b : Board) : Board :=
  let b := b.updateBlobNvsVal .mac mac 6
  { b with ram := { b.ram with mac := copyDown b.ram.mac mac 6 } }

def setDHCPEnable : UInt8 → Board → Board := setByte dhcpEnableVar

def setWifiManagerEnable : UInt8 → Board → Board := setByte wifiManagerEnableVar

/-- `setIP(getIP())`, and its like for the other two addresses. -/
def restoreAddress (f : AddressVar) (b : Board) : Board :=
  let b := b.getAddress f
  b.setAddress f (f.get b.ram)

/-- `portal` is `start_wifi_manager`. `connect` is what `start_blizzard_wifi` makes of the
interface until it sees `CONNECTED_BIT`. -/
def startConnectionManager (portal : Board → Board) (connect : Netif → Netif) (b : Board) : Board :=
  let b :=
    if b.ram.wifiManagerEnable = ENABLE then portal b
    else
      let b := { b with netif := connect b.netif }
      if b.ram.dhcpEnable = DISABLE then
        ((b.restoreAddress ipAddressVar).restoreAddress netmaskVar).restoreAddress gatewayVar
      else b
  { b with initDone := true }

end Board

end BlizzardBridge
