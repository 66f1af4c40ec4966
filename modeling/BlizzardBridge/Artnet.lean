import BlizzardBridge.ArtnetReply
import BlizzardBridge.DmxConfig
import BlizzardBridge.Program

/-! The receive callback of the Art-Net node. It reports every byte of the datagram
and of a reply block that it reads, every slot that it writes, and what it asks of
the system. -/
namespace BlizzardBridge
open CArray Program

def ART_OP_DMX : UInt16 := 0x5000
def ART_OP_POLL : UInt16 := 0x2000
def ART_OP_PROG : UInt16 := 0xF800
def ART_OP_ART_ADDRESS : UInt16 := 0x6000

def ART_DATA_UNIVERSE_H_INDEX : ℕ := 15
def ART_DATA_UNIVERSE_L_INDEX : ℕ := 14
def ART_DATA_SLOTS_H_INDEX : ℕ := 16
def ART_DATA_SLOTS_L_INDEX : ℕ := 17
def ART_DMX_DATA_INDEX : ℕ := 18

-- Offsets of fields in `ArtnetProgPacket` and in `ArtnetArtAddressPacket`.
def PROG_COMMAND : ℕ := 14
def PROG_IP : ℕ := 16
def PROG_SUBNET_MASK : ℕ := 20
def ADDRESS_LONG_NAME : ℕ := 32
def ADDRESS_COMMAND : ℕ := 106

/-- A datagram: the memory at its payload, and the length of the payload. -/
structure Pbuf where
  payload : Bytes
  len : ℕ

/-- How the calls made for one datagram turn out, and what the memory holds that they hand out. -/
structure Calls where
  mutexTaken : Bool
  mallocOk : Bool
  pbufOk : Bool
  heap : Bytes
  pool : Bytes

inductive Block where
  | received
  | packet
  | reply
  deriving DecidableEq, Repr

/-- An access of the callback. Reading the byte again that was read last is not repeated. -/
inductive Access where
  | readPayload (i : ℕ)
  | writeDmx (i : ℕ)
  | readReply (i size : ℕ)
  | take
  | give
  | alloc (block : Block)
  | free (block : Block)
  | connect (addr : UInt32)
  | send (bytes : List UInt8)
  | disconnect
  deriving DecidableEq

abbrev Node := Prog Board Access

def readPayload (p : Pbuf) (i : ℕ) : Node UInt8 := step [.readPayload i] fun b => (p.payload i, b)

def writeDmx (i : ℕ) (v : UInt8) : Node Unit :=
  step [.writeDmx i] fun b => ((), { b with dmx := Function.update b.dmx i v })

def readReply (block : Bytes) (size i : ℕ) : Node UInt8 :=
  step [.readReply i size] fun b => (block i, b)

-- `for (i = 0; i < n; i++) dst[i] = src[i];`
def copyBytes (src : ℕ → Node UInt8) (n : ℕ) (dst : Bytes) : Node Bytes :=
  loop (fun i dst => do
    let x ← src i
    pure (Function.update dst i x)) n dst

-- `for (i = 0; i < n; i++) DMX[i + off] = src[i];`
def copySlots (src : ℕ → Node UInt8) (off n : ℕ) : Node Unit :=
  loop (fun i _ => do
    let x ← src i
    writeDmx (i + off) x) n ()

/-- `((uint16_t)h << 8) | (l && 0xFF)`: the operator is the logical one. -/
def joinBytes (h l : UInt8) : UInt16 := h.toUInt16 <<< 8 ||| if l = 0 then 0 else 1

def parseDMXDataPacketArtnet (p : Pbuf) : Node Unit := do
  let h ← readPayload p ART_DATA_UNIVERSE_H_INDEX
  let l ← readPayload p ART_DATA_UNIVERSE_L_INDEX
  let ownUniverse ← get fun b => b.ram.ownUniverse
  if joinBytes h l ≠ ownUniverse then pure ()
  else do
    let h ← readPayload p ART_DATA_SLOTS_H_INDEX
    let l ← readPayload p ART_DATA_SLOTS_L_INDEX
    copySlots (fun i => readPayload p (ART_DMX_DATA_INDEX + i)) 1 (joinBytes h l).toNat

/-- The answer of `pbuf_alloc` is not tested. -/
def sendPollReplyArtnet (c : Calls) (addr : UInt32) : Node Unit := do
  let enabled ← get fun b => b.artnet.enabled
  if !enabled then pure ()
  else do
    modify Board.createPacketArtnetPollReply
    let packet ← get fun b => b.artnet.pollReply
    if !c.pbufOk then do
      emit (.connect addr)
      crash
    else do
      emit (.alloc .reply)
      emit (.connect addr)
      let payload ← copyBytes (readReply packet POLL_REPLY_SIZE) POLL_REPLY_SIZE c.pool
      emit (.send (CArray.take payload POLL_REPLY_SIZE))
      emit .disconnect
      emit (.free .reply)

/-- The block has the size of an ArtAddress packet, the copy that of a poll reply. -/
def sendProgReplyArtnet (c : Calls) (addr : UInt32) : Node Unit := do
  let enabled ← get fun b => b.artnet.enabled
  if !enabled then pure ()
  else if !c.mallocOk then pure ()
  else do
    emit (.alloc .packet)
    let packet ← step [] (Board.createProgReply c.heap)
    if !c.pbufOk then crash
    else do
      emit (.alloc .reply)
      let payload ← copyBytes (readReply packet ART_ADDRESS_SIZE) POLL_REPLY_SIZE c.pool
      emit (.connect addr)
      emit (.send (CArray.take payload PROG_REPLY_SIZE))
      emit .disconnect
      emit (.free .reply)
      emit (.free .packet)

/-- The bytes at which `setName` looks, up to a terminator. -/
def readName (p : Pbuf) : (k i : ℕ) → Node Unit
  | 0, _ => pure ()
  | k + 1, i => do
    let x ← readPayload p (ADDRESS_LONG_NAME + i)
    if x = 0 then pure () else readName p k (i + 1)

def clearSlots : Node Unit := copySlots (fun _ => pure 0) 0 DMX_MAX_SLOTS

def addressCommand (command : UInt8) : Node Unit :=
  if command = 0x90 then clearSlots else pure ()

def parseArtAddressArtnet (c : Calls) (p : Pbuf) (addr : UInt32) : Node Unit := do
  readName p (NAME_MAX_LENGTH - 1) 0
  modify (Board.setName (fun i => p.payload (ADDRESS_LONG_NAME + i)) (NAME_MAX_LENGTH - 1))
  let command ← readPayload p ADDRESS_COMMAND
  addressCommand command
  sendPollReplyArtnet c addr

-- `_prog_ip`, `_dhcp_en` and `_prog_en` of the command byte.
def progIP (command : UInt8) : Bool := command &&& 0x04 ≠ 0
def dhcpEn (command : UInt8) : Bool := command &&& 0x40 ≠ 0
def progEn (command : UInt8) : Bool := command &&& 0x80 ≠ 0

/-- `packet[3 - i]` of a field of four bytes at `off`, for `i` from 0 to 3. -/
def readAddress (p : Pbuf) (off : ℕ) : Node Bytes :=
  copyBytes (fun i => readPayload p (off + (3 - i))) 4 fun _ => 0

def progCommand (p : Pbuf) (command : UInt8) : Node Unit :=
  if !progEn command then pure ()
  else if dhcpEn command then modify (Board.setDHCPEnable ENABLE)
  else if progIP command then do
    let temp ← readAddress p PROG_IP
    modify (Board.setIP temp)
    modify (Board.setDHCPEnable DISABLE)
  else pure ()

def parseProgArtnet (c : Calls) (p : Pbuf) (addr : UInt32) : Node Unit := do
  -- the packet is printed first
  let command ← readPayload p PROG_COMMAND
  let _ ← readAddress p PROG_IP
  let _ ← readAddress p PROG_SUBNET_MASK
  progCommand p command
  sendProgReplyArtnet c addr

/-- The identifier is compared byte by byte, up to the first difference. -/
def checkID (p : Pbuf) : (k i : ℕ) → Node Bool
  | 0, _ => pure true
  | k + 1, i => do
    let x ← readPayload p i
    if x ≠ ARTNET_ID i then pure false else checkID p k (i + 1)

-- `switch (opcode)`.
def switchArtnet (c : Calls) (p : Pbuf) (addr : UInt32) (opcode : UInt16) : Node Unit := do
  let direction ← get fun b => b.artnet.direction
  if opcode = ART_OP_DMX then
    if direction ≠ .receive then pure () else parseDMXDataPacketArtnet p
  else if opcode = ART_OP_POLL then sendPollReplyArtnet c addr
  -- the handler of a poll reply returns at once
  else if opcode = ART_OP_POLL_REPLY then pure ()
  else if opcode = ART_OP_PROG then parseProgArtnet c p addr
  else if opcode = ART_OP_ART_ADDRESS then parseArtAddressArtnet c p addr
  else pure ()

def dispatchArtnet (c : Calls) (p : Pbuf) (addr : UInt32) : Node Unit := do
  let valid ← checkID p 8 0
  if !valid then pure ()
  else do
    let l ← readPayload p 8
    let h ← readPayload p 9
    switchArtnet c p addr (h.toUInt16 <<< 8 ||| l.toUInt16)

/-- When the mutex is not free in time, the datagram is dropped, and its `pbuf` kept. -/
def recieveDMXArtnet (c : Calls) (p : Pbuf) (addr : UInt32) : Node Unit := do
  if !c.mutexTaken then pure ()
  else do
    emit .take
    dispatchArtnet c p addr
    emit (.free .received)
    emit .give

end BlizzardBridge
