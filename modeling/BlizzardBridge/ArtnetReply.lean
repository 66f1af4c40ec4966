import BlizzardBridge.ConnectionManager
import Mathlib.Logic.Function.Iterate

/-! The two replies of the Art-Net node as byte arrays, each field at its offset in
the packed structure. Both ask for the own address octet by octet. -/
namespace BlizzardBridge
open CArray

def ARTNET_ID : Bytes := store (fun _ => 0) 0 (ascii ['A', 'r', 't', '-', 'N', 'e', 't'])

def ART_NET_PORT : UInt16 := 0x1936
def ART_NET_PORT_REV : UInt16 := 0x3619
def ART_OP_POLL_REPLY : UInt16 := 0x2100
def ART_OP_PROG_REPLY : UInt16 := 0xF900
def ART_PROTO_VER : UInt16 := 14

-- The sizes of `ArtnetPollReplyPacket`, `ArtnetProgReplyPacket` and `ArtnetArtAddressPacket`.
def POLL_REPLY_SIZE : ℕ := 239
def PROG_REPLY_SIZE : ℕ := 34
def ART_ADDRESS_SIZE : ℕ := 107

/-- A `uint16_t` in the byte order of the processor, low-order byte first. -/
def word (v : UInt16) : List UInt8 := [v.toUInt8, (v >>> 8).toUInt8]

def bitField (v n : UInt8) : UInt8 := (v &&& 1) <<< n

namespace Board

-- `for (i = 0; i < n; i++) dst[at(i)] = getIP()[i];`
def copyIP (pos : ℕ → ℕ) : ℕ → Bytes × Board → Bytes × Board
  | 0, r => r
  | n + 1, r =>
    let b := (copyIP pos n r).2.getIP
    (Function.update (copyIP pos n r).1 (pos n) (b.ram.ipAddress n), b)

-- `for (i = 0; i < n; i++) { temp = getName()[i]; if (temp == '\0') break; dst[i] = temp; }`
-- on a field of `n` bytes that has been cleared.
def copyName (name : Bytes) (n : ℕ) : Bytes := (copyTest name n 0 fun _ => 0).2

/-- The fields of the reply behind the own address. Bits that no field covers stay. -/
def pollReplyFields (packet : Bytes) (s : Settings) : Bytes :=
  let packet := store packet 14 (word ART_NET_PORT)
  let packet := store packet 16 [0, 3]
  let packet := store packet 18
    [(s.ownUniverse >>> 8).toUInt8, ((s.ownUniverse &&& 0xFF) >>> 4).toUInt8]
  let packet := store packet 20 [0x12, 0x51, 0]
  let packet := store packet 23 [(packet 23 &&& 0x08) ||| 0xA0]
  let packet := store packet 24 [0x04, 0x01]
  let packet := store packet 26 (take (copyName s.deviceName 18) 18)
  -- the multi-character constant '/0' is cut to the character '0'
  let packet := store packet 43 [0x30]
  let packet := store packet 44 (take (copyName s.deviceName 64) 64)
  let packet := store packet 107 [0]
  let packet := store packet 108 [0x69]
  let packet := store packet 172 [0, 1]
  let packet := store packet 174 [0xC0, 0, 0, 0]
  let packet := store packet 178 [0, 0, 0, 0]
  let packet := store packet 182 [0, 0, 0, 0]
  let packet := store packet 186 [(s.ownUniverse &&& 0x0F).toUInt8, 0, 0, 0]
  let packet := store packet 190 [(s.ownUniverse &&& 0x0F).toUInt8, 0, 0, 0]
  let packet := store packet 194 [0, 0, 0, 0, 0, 0, 0]
  let packet := store packet 201 (take s.mac 6).reverse
  let packet := store packet 207 [0, 0, 0, 0, 0]
  let packet := store packet 212 [(packet 212 &&& 0xE0) ||| 0x0D ||| bitField s.dhcpEnable 1]
  store packet 213 (List.replicate 26 0)

def createPacketArtnetPollReply (b : Board) : Board :=
  let packet := store b.artnet.pollReply 0 (take ARTNET_ID 8)
  let packet := store packet 8 (word ART_OP_POLL_REPLY)
  let r := copyIP (10 + ·) 4 (packet, b)
  { r.2 with artnet := { r.2.artnet with pollReply := pollReplyFields r.1 r.2.ram } }

/-- The reply to ArtIpProg in the block `heap`, of which the filler and the spare bytes
are not written. -/
def createProgReply (heap : Bytes) (b : Board) : Bytes × Board :=
  let packet := store heap 0 (take ARTNET_ID 8)
  let packet := store packet 8 (word ART_OP_PROG_REPLY)
  let packet := store packet 10 (word ART_PROTO_VER)
  let (packet, b) := copyIP (fun i => 16 + (3 - i)) 4 (packet, b)
  let packet := store packet 20 [255, 255, 255, 0]
  let packet := store packet 24 (word ART_NET_PORT_REV)
  let packet := store packet 26 [(packet 26 &&& 0xF7) ||| bitField b.ram.dhcpEnable 3]
  (packet, b)

theorem copyIP_board (pos : ℕ → ℕ) (n : ℕ) (r : Bytes × Board) :
    (copyIP pos n r).2 = getIP^[n] r.2 := by
  induction n with
  | zero => rfl
  | succ n ih => rw [copyIP, ih, Function.iterate_succ_apply']

/-- Building the reply refreshes the own address; the rest of the configuration stays. -/
theorem createPacketArtnetPollReply_board (b : Board) :
    ∃ packet, b.createPacketArtnetPollReply =
      { getIP^[4] b with artnet := { (getIP^[4] b).artnet with pollReply := packet } } := by
  simp only [createPacketArtnetPollReply, copyIP_board]
  exact ⟨_, rfl⟩

/-- The fields behind the address are filled from the configuration that this leaves. -/
theorem pollReply_eq (b : Board) : ∃ packet, b.createPacketArtnetPollReply.artnet.pollReply =
    pollReplyFields packet (getIP^[4] b).ram := by
  simp only [createPacketArtnetPollReply, copyIP_board]
  exact ⟨_, rfl⟩

theorem createProgReply_board (heap : Bytes) (b : Board) :
    (createProgReply heap b).2 = getIP^[4] b := copyIP_board _ 4 (_, b)

end Board

end BlizzardBridge
