import BlizzardBridge.Dmx
import BlizzardBridge.Nvs

/-! The state that the tasks of the board share: the configuration in RAM, its copy
in NVS, the station interface, the DMX buffer and the Art-Net node. -/
namespace BlizzardBridge
open CArray

def ENABLE : UInt8 := 1
def DISABLE : UInt8 := 0

def SSID_MAX_LENGTH : ℕ := 32
def PASS_MAX_LENGTH : ℕ := 32

/-- The longest string that `nvs_set_str` looks at. -/
def NVS_STR_MAX : ℕ := 4000

/-- Each array stands for itself and has no end. In memory SSID, PASS and INIT_DONE are neighbours:
a byte that is stored behind the end of a credential falls into another of them, as `Strays` says. -/
structure Settings where
  deviceName : Bytes
  ssid : Bytes
  pass : Bytes
  inputMode : UInt8
  outputMode : UInt8
  ownAddress : UInt16
  ownUniverse : UInt16
  slots : UInt16
  ownID : UInt16
  ipAddress : Bytes
  netmask : Bytes
  gateway : Bytes
  mac : Bytes
  dhcpEnable : UInt8
  wifiManagerEnable : UInt8

/-- `tcpip_adapter_ip_info_t`: the words of lwIP, low-order byte first. -/
structure IpInfo where
  ip : UInt32
  netmask : UInt32
  gw : UInt32
  deriving DecidableEq, Repr

/-- The station interface. `up` is the outcome of `tcpip_adapter_get_ip_info`, and
`unset` is what an `ip_info` holds that the call has not written. -/
structure Netif where
  info : IpInfo
  dhcpc : Bool
  up : Bool
  unset : IpInfo

structure ArtnetNode where
  direction : Direction
  enabled : Bool
  pollReply : Bytes

/-- The scratch buffers of the NVS module, and the local `length` of its loader. -/
structure Scratch where
  buf8 : Bytes
  buf16 : UInt16
  length : ℕ

structure Board where
  ram : Settings
  nvs : Nvs
  netif : Netif
  scratch : Scratch
  initDone : Bool
  dmx : Bytes
  artnet : ArtnetNode
  -- `gen_buf` and `ip` of the terminal.
  genBuf : Bytes
  ip : Bytes

namespace Settings

/-- What a setting holds, as the value that its key has to have. `RDM_UUID` has no variable. -/
def value (s : Settings) : NvsKey → Option NvsVal
  | .deviceName => some (.str (cString s.deviceName NVS_STR_MAX))
  | .ssid => some (.str (cString s.ssid NVS_STR_MAX))
  | .pass => some (.str (cString s.pass NVS_STR_MAX))
  | .inputMode => some (.u8 s.inputMode)
  | .outputMode => some (.u8 s.outputMode)
  | .ownIPAddress => some (.blob (take s.ipAddress 4))
  | .ownNetmask => some (.blob (take s.netmask 4))
  | .ownAddress => some (.u16 s.ownAddress)
  | .ownUniverse => some (.u16 s.ownUniverse)
  | .mac => some (.blob (take s.mac 6))
  | .gateway => some (.blob (take s.gateway 4))
  | .slots => some (.u16 s.slots)
  | .ownUUID => none
  | .ownID => some (.u16 s.ownID)
  | .dhcpEnable => some (.u8 s.dhcpEnable)
  | .wifiManagerEnable => some (.u8 s.wifiManagerEnable)

end Settings

/-- A setting of one byte: its key and its variable. A change of the variable changes the
value of this key only. -/
structure ByteVar where
  key : NvsKey
  set : UInt8 → Settings → Settings
  value_self : ∀ x s, (set x s).value key = some (.u8 x)
  value_other : ∀ x s, ∀ j ≠ key, (set x s).value j = s.value j

/-- A setting of two bytes. -/
structure WordVar where
  key : NvsKey
  set : UInt16 → Settings → Settings
  value_self : ∀ x s, (set x s).value key = some (.u16 x)
  value_other : ∀ x s, ∀ j ≠ key, (set x s).value j = s.value j

namespace Board

def reset (nvs : Nvs) (netif : Netif) : Board where
  ram := {
    deviceName := fun _ => 0, ssid := fun _ => 0, pass := fun _ => 0, inputMode := 0
    outputMode := 0, ownAddress := 0, ownUniverse := 0, slots := 0, ownID := 0
    ipAddress := fun _ => 0, netmask := fun _ => 0, gateway := fun _ => 0, mac := fun _ => 0
    dhcpEnable := 0, wifiManagerEnable := 0 }
  nvs := nvs
  netif := netif
  scratch := { buf8 := fun _ => 0, buf16 := 0, length := 0 }
  initDone := false
  dmx := fun _ => 0
  artnet := { direction := .receive, enabled := false, pollReply := fun _ => 0 }
  genBuf := fun _ => 0
  ip := fun _ => 0

def storage (content : NvsKey → Option NvsVal) : Nvs := ⟨content, fun _ => none, 0⟩

/-- A station interface that answers, without an address and with its DHCP client running. -/
def station : Netif := ⟨⟨0, 0, 0⟩, true, true, ⟨0, 0, 0⟩⟩

def updateNvsVal (key : NvsKey) (value : NvsVal) (b : Board) : Board :=
  { b with nvs := b.nvs.updateNvsVal key value }

theorem updateNvsVal_nvs (key : NvsKey) (value : NvsVal) (b : Board) :
    (b.updateNvsVal key value).nvs = b.nvs.updateNvsVal key value := rfl

def updateU8NvsVal (key : NvsKey) (value : UInt8) (b : Board) : Board :=
  b.updateNvsVal key (.u8 value)

def updateBlobNvsVal (key : NvsKey) (value : Bytes) (length : ℕ) (b : Board) : Board :=
  b.updateNvsVal key (.blob (take value length))

def updateStrNvsVal (key : NvsKey) (value : Bytes) (b : Board) : Board :=
  b.updateNvsVal key (.str (cString value NVS_STR_MAX))

def setByte (f : ByteVar) (x : UInt8) (b : Board) : Board :=
  updateU8NvsVal f.key x { b with ram := f.set x b.ram }

def setWord (f : WordVar) (x : UInt16) (b : Board) : Board := { b with ram := f.set x b.ram }

end Board

end BlizzardBridge
