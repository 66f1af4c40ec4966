import BlizzardBridge.Artnet
import BlizzardBridge.EventMachine

/-! The sACN sender. The packed structure is kept as a byte array, each field at its
offset; a datagram is this array with the slots behind it. -/
namespace BlizzardBridge
open CArray Program EventMachine

def MAX_SACN_BUFFER : ℕ := 638
def SACN_DMX_START_INDEX : ℕ := 125

-- Constants of the fields, which the processor stores low-order byte first.
def SACN_PREAMBLE_SIZE : UInt16 := 0x1000
def SACN_POSTABMLE_SIZE : UInt16 := 0
def VECTOR_ROOT_E131_DATA : UInt32 := 0x04000000
def VECTOR_E131_DATA_PACKET : UInt32 := 0x02000000
def VECTOR_DMP_SET_PROPERTY : UInt8 := 2
def SACN_ADDRESS_DATA_TYPE : UInt8 := 0xA1
def SACN_PRIORITY_DEFAULT : UInt8 := 100
def SACN_FIRST_ADDRESS_DEFAULT : UInt16 := 0
def SACN_FIRST_ADDRESS_INCREMENT_DEFAULT : UInt16 := 0x0100

def ACN_ID : List UInt8 := ascii ['A', 'S', 'C', '-', 'E', '1', '.', '3', '1'] ++ [0, 0, 0]
def CID : List UInt8 :=
  ascii ['B', 'e', 'e', 'p', 'B', 'e', 'e', 'p', 'B', 'l', 'i', 'z', 'z', 'a', 'r', 'd']

def dword (v : UInt32) : List UInt8 :=
  [v.toUInt8, (v >>> 8).toUInt8, (v >>> 16).toUInt8, (v >>> 24).toUInt8]

-- `_h = v >> 8; _l = v & 0xFF;`
def highLow (v : UInt16) : List UInt8 := [(v >>> 8).toUInt8, (v &&& 0xFF).toUInt8]

/-- `SACNPACKET` from the configuration. -/
def createDataPacketsACN (packet : Bytes) (s : Settings) : Bytes :=
  let packet := store packet 0 (word SACN_PREAMBLE_SIZE)
  let packet := store packet 2 (word SACN_POSTABMLE_SIZE)
  let packet := store packet 4 ACN_ID
  let packet := store packet 16 (highLow (s.slots + 110 + 0x7000))
  let packet := store packet 18 (dword VECTOR_ROOT_E131_DATA)
  let packet := store packet 22 CID
  let packet := store packet 38 (highLow (s.slots + 88 + 0x7000))
  let packet := store packet 40 (dword VECTOR_E131_DATA_PACKET)
  let packet := store packet 44 (take s.deviceName NAME_MAX_LENGTH)
  let packet := store packet 108 [SACN_PRIORITY_DEFAULT]
  let packet := store packet 109 (word 0)
  let packet := store packet 111 [1]
  let packet := store packet 112 [0]
  let packet := store packet 113 [0, 0]
  let packet := store packet 115 (highLow (s.slots + 11 + 0x7000))
  let packet := store packet 117 [VECTOR_DMP_SET_PROPERTY]
  let packet := store packet 118 [SACN_ADDRESS_DATA_TYPE]
  let packet := store packet 119 (word SACN_FIRST_ADDRESS_DEFAULT)
  let packet := store packet 121 (word SACN_FIRST_ADDRESS_INCREMENT_DEFAULT)
  -- the low-order byte is `flag_length && 0xFF`, with the logical operator
  store packet 123 [((s.slots + 1) >>> 8).toUInt8, if s.slots + 1 = 0 then 0 else 1]

/-- `SACNPACKET`, and whether `SACN._packet` points to it. -/
structure SacnDevice where
  board : Board
  packet : Bytes
  bound : Bool

namespace SacnDevice

def startDMXsACN (d : SacnDevice) : SacnDevice :=
  { d with packet := createDataPacketsACN d.packet d.board.ram, bound := true }

def setUniverse (u : UInt16) (d : SacnDevice) : SacnDevice :=
  { d with packet := store d.packet 113 (highLow u) }

def nextSequence (d : SacnDevice) : SacnDevice :=
  { d with packet := store d.packet 111 [if d.packet 111 = 0 then 1 else d.packet 111 + 1] }

/-- What goes to index `i` of the payload: the structure, then the slots from 0 on. -/
def payloadAt (d : SacnDevice) (i : ℕ) : UInt8 :=
  if i < SACN_DMX_START_INDEX then d.packet i else d.board.dmx (i - SACN_DMX_START_INDEX)

def withDmx (dmx : Bytes) (d : SacnDevice) : SacnDevice :=
  { d with board := { d.board with dmx := dmx } }

end SacnDevice

/-- Neither the answer of `pbuf_alloc` nor the pointer to the packet is tested. -/
def sendDMXDatasACN (c : Calls) (u : UInt16) : Prog SacnDevice Access Unit := do
  modify (SacnDevice.setUniverse u)
  let bound ← get SacnDevice.bound
  if !c.pbufOk then crash
  else if !bound then crash
  else do
    let payload ← get fun d => copyLoop c.pool 0 d.payloadAt MAX_SACN_BUFFER
    modify SacnDevice.nextSequence
    emit (.send (take payload MAX_SACN_BUFFER))

def datagrams (log : List Access) : List (List UInt8) :=
  log.filterMap fun
    | .send bytes => some bytes
    | _ => none

inductive SacnEvent where
  | setSlots (count : UInt16)
  | setName (name : Bytes) (length : ℕ)
  | setBuffer (dmx : Bytes)
  | startDMXsACN
  | sendDMXDatasACN (c : Calls) (u : UInt16)

namespace SacnDevice

def step (d : SacnDevice) : SacnEvent → SacnDevice × List (List UInt8)
  | .setSlots count => ({ d with board := d.board.setSlots count }, [])
  | .setName name length => ({ d with board := d.board.setName name length }, [])
  | .setBuffer dmx => (d.withDmx dmx, [])
  | .startDMXsACN => (d.startDMXsACN, [])
  | .sendDMXDatasACN c u =>
    let o := BlizzardBridge.sendDMXDatasACN c u d
    (o.state, datagrams o.log)

/-- Before the first start. -/
def boot (board : Board) : SacnDevice := ⟨board, fun _ => 0, false⟩

section send
variable (c : Calls) (u : UInt16) (d : SacnDevice)

/-- The datagram that a send makes. -/
def datagram : List UInt8 := take (d.setUniverse u).payloadAt MAX_SACN_BUFFER

theorem sendDMXDatasACN_crash (h : ¬ (c.pbufOk = true ∧ d.bound = true)) :
    sendDMXDatasACN c u d = ⟨none, d.setUniverse u, []⟩ := by
  obtain ⟨_, _, pbufOk, _, _⟩ := c
  obtain ⟨_, _, bound⟩ := d
  cases pbufOk with
  | false => rfl
  | true =>
    cases bound with
    | false => rfl
    | true => exact absurd ⟨rfl, rfl⟩ h

theorem sendDMXDatasACN_sends (hpbuf : c.pbufOk = true) (hbound : d.bound = true) :
    sendDMXDatasACN c u d =
      ⟨some (), (d.setUniverse u).nextSequence, [.send (d.datagram u)]⟩ := by
  have htake : take (copyLoop c.pool 0 (d.setUniverse u).payloadAt MAX_SACN_BUFFER)
      MAX_SACN_BUFFER = d.datagram u := by
    apply take_congr
    intro i hi
    rw [copyLoop_apply, if_pos (by omega), Nat.sub_zero]
  rw [← htake]
  obtain ⟨_, _, pbufOk, _, _⟩ := c
  obtain ⟨_, _, bound⟩ := d
  subst hpbuf hbound
  rfl

/-- A send makes its datagram, or crashes with the universe set. -/
theorem step_send : d.step (.sendDMXDatasACN c u) =
    if c.pbufOk = true ∧ d.bound = true then ((d.setUniverse u).nextSequence, [d.datagram u])
    else (d.setUniverse u, []) := by
  change ((sendDMXDatasACN c u d).state, datagrams (sendDMXDatasACN c u d).log) = _
  split_ifs with h
  · rw [sendDMXDatasACN_sends c u d h.1 h.2]
    rfl
  · rw [sendDMXDatasACN_crash c u d h]
    rfl

end send

end SacnDevice

end BlizzardBridge
