import BlizzardBridge.ConnectionManager
import BlizzardBridge.DmxConfig

/-! Loading the configuration. Each block of the loader reads a key into a scratch
buffer, writes the default and reads again while the key is missing, and hands the
buffer to a setter. -/
namespace BlizzardBridge
open CArray

def DMX_MODE : UInt8 := 2
def ARTNET_MODE : UInt8 := 0

def DEFAULT_DEVICE_NAME : CString :=
  ⟨ascii ['M', 'r', ' ', 'B', 'l', 'i', 'n', 'k', ' ', 'B', 'l', 'i', 'n', 'k'], by decide⟩
def DEFAULT_SSID : CString := ⟨ascii ['s', 's', 'i', 'd'], by decide⟩
def DEFAULT_PASS : CString := ⟨ascii ['p', 'a', 's', 's', 'w', 'o', 'r', 'd'], by decide⟩

/-- What `init_nvs_key_pair_default` writes; blobs by rising index. -/
def defaultVal : NvsKey → NvsVal
  | .deviceName => .str DEFAULT_DEVICE_NAME
  | .ssid => .str DEFAULT_SSID
  | .pass => .str DEFAULT_PASS
  | .inputMode => .u8 ARTNET_MODE
  | .outputMode => .u8 DMX_MODE
  | .ownIPAddress => .blob [1, 1, 168, 192]
  | .ownNetmask => .blob [0, 255, 255, 255]
  | .ownAddress => .u16 0
  | .ownUniverse => .u16 0
  | .mac => .blob [0x21, 0x68, 0x63, 0x75, 0x68, 0x43]
  | .gateway => .blob [1, 1, 168, 192]
  | .slots => .u16 513
  | .ownUUID => .blob [0x16, 0x15, 0x14, 0x13, 0x12, 0x11]
  | .ownID => .u16 1
  | .dhcpEnable => .u8 ENABLE
  | .wifiManagerEnable => .u8 ENABLE

namespace Board

/-- A default blob is laid out in `buf8` first. -/
def initNvsKeyPairDefault (index : NvsKey) (b : Board) : Board :=
  let buf8 := match defaultVal index with
    | .blob bytes => store b.scratch.buf8 0 bytes
    | _ => b.scratch.buf8
  updateNvsVal index (defaultVal index) { b with scratch := { b.scratch with buf8 := buf8 } }

/-- A number is read into a scratch buffer. -/
def readNumber {α : Type} (pick : NvsVal → Option α) (put : α → Scratch → Scratch) (key : NvsKey)
    (b : Board) : Option EspErr × Board :=
  match b.nvs.get pick key with
  | .error e => (some e, { b with nvs := b.nvs.tick })
  | .ok v => (none, { b with nvs := b.nvs.tick, scratch := put v b.scratch })

def readU8 : NvsKey → Board → Option EspErr × Board :=
  readNumber NvsVal.u8Val fun v s => { s with buf8 := Function.update s.buf8 0 v }

def readU16 : NvsKey → Board → Option EspErr × Board :=
  readNumber NvsVal.u16Val fun v s => { s with buf16 := v }

def readData (pick : NvsVal → Option (List UInt8)) (key : NvsKey) (b : Board) :
    Option EspErr × Board :=
  let data := b.nvs.readData pick key b.scratch.buf8 b.scratch.length
  (data.1, { b with
    nvs := data.2.2
    scratch := { b.scratch with buf8 := data.2.1.1, length := data.2.1.2 } })

/-- The read of a block. -/
def readOf : NvsKey → Board → Option EspErr × Board
  | .dhcpEnable => readU8 .dhcpEnable
  | .deviceName => readData NvsVal.strData .deviceName
  | .ssid => readData NvsVal.strData .ssid
  | .pass => readData NvsVal.strData .pass
  | .inputMode => readU8 .inputMode
  | .outputMode => readU8 .outputMode
  | .ownIPAddress => readData NvsVal.blobData .ownIPAddress
  | .ownNetmask => readData NvsVal.blobData .ownNetmask
  | .ownAddress => readU16 .ownAddress
  | .ownUniverse => readU16 .ownUniverse
  | .slots => readU16 .slots
  -- the block of the RDM identifier is commented out
  | .ownUUID => fun b => (none, b)
  | .ownID => readU16 .ownID
  | .wifiManagerEnable => readU8 .wifiManagerEnable
  | .mac => readData NvsVal.blobData .mac
  | .gateway => readData NvsVal.blobData .gateway

/-- The slot count that the loader hands on; a stored one includes the start byte. -/
def scratchSlots (b : Board) : UInt16 :=
  if b.scratch.buf16.toNat = DMX_MAX_SLOTS then b.scratch.buf16 - 1 else b.scratch.buf16

/-- The setter of a block, given what the scratch buffers hold. -/
def useOf : NvsKey → Board → Board
  | .dhcpEnable, b => b.setDHCPEnable (b.scratch.buf8 0)
  | .deviceName, b => b.setName b.scratch.buf8 (b.scratch.length % 256)
  | .ssid, b => b.setSSID b.scratch.buf8 (b.scratch.length % 256)
  | .pass, b => b.setPass b.scratch.buf8 (b.scratch.length % 256)
  | .inputMode, b => b.setInputMode (b.scratch.buf8 0)
  | .outputMode, b => b.setOutputMode (b.scratch.buf8 0)
  | .ownIPAddress, b => b.setIP b.scratch.buf8
  | .ownNetmask, b => b.setNetmask b.scratch.buf8
  | .ownAddress, b => b.setOwnAddress b.scratch.buf16
  | .ownUniverse, b => b.setOwnUniverse b.scratch.buf16
  | .slots, b =>
    { b with scratch := { b.scratch with buf16 := b.scratchSlots } }.setSlots b.scratchSlots
  | .ownUUID, b => b
  | .ownID, b => b.setOwnID b.scratch.buf16
  | .wifiManagerEnable, b => b.setWifiManagerEnable (b.scratch.buf8 0)
  | .mac, b => b.setMac b.scratch.buf8
  -- the gateway goes to the setter of the MAC address
  | .gateway, b => b.setMac b.scratch.buf8

/-- `LABEL: read; if (not found) { default; goto LABEL; } else use;` The jumps are
bounded by `fuel`. -/
def loadLoop (index : NvsKey) (read : Board → Option EspErr × Board) (use : Board → Board) :
    ℕ → Board → Option Board
  | 0, _ => none
  | fuel + 1, b =>
    let r := read b
    if r.1 = some .nvsNotFound then loadLoop index read use fuel (r.2.initNvsKeyPairDefault index)
    else some (use r.2)

/-- The block of a key. -/
def load (k : NvsKey) : ℕ → Board → Option Board := loadLoop k (readOf k) (useOf k)

def loadOrder : List NvsKey :=
  [.dhcpEnable, .deviceName, .ssid, .pass, .inputMode, .outputMode, .ownIPAddress, .ownNetmask,
    .ownAddress, .ownUniverse, .slots, .ownID, .wifiManagerEnable]

/-- The blocks of the loader, as they stand. -/
def blocks : List NvsKey := loadOrder ++ [.mac, .gateway]

def loadAll (fuel : ℕ) (keys : List NvsKey) (b : Board) : Option Board :=
  keys.foldlM (fun b key => load key fuel b) b

def populateAllDmxNvsValues (fuel : ℕ) (b : Board) : Option Board := loadAll fuel blocks b

end Board

end BlizzardBridge
