import BlizzardBridge.ArtnetSpec

/-! The sending side of the Art-Net node. The header of the packet is kept between
sends, and the payload is the header followed by the slots behind the start byte. -/
namespace BlizzardBridge
open CArray Program

def MAX_ARTNET_BUFFER : ℕ := 530

/-- The packed structure up to its last field, the pointer to the DMX buffer. -/
structure ArtnetPacket where
  id : List UInt8
  opcode : UInt16
  protocolVersion : UInt16
  sequence : UInt8
  physical : UInt8
  universeSubnet : UInt8
  universeHi : UInt8
  slotLengthHi : UInt8
  slotLengthLo : UInt8

def ArtnetPacket.header (k : ArtnetPacket) : List UInt8 :=
  k.id ++ word k.opcode ++ word k.protocolVersion ++
    [k.sequence, k.physical, k.universeSubnet, k.universeHi, k.slotLengthHi, k.slotLengthLo]

/-- A node with the packet that it sends from. -/
structure Device where
  board : Board
  packet : ArtnetPacket

namespace Device

def stopDMXArtnet (d : Device) : Device :=
  { d with board := { d.board with artnet := { d.board.artnet with enabled := false } } }

def createPacketArtnet (d : Device) : Device :=
  { d with packet := {
      id := take ARTNET_ID 8
      opcode := ART_OP_DMX
      protocolVersion := ART_PROTO_VER
      sequence := 1
      physical := 1
      universeSubnet := 0
      universeHi := 0
      slotLengthHi := UInt8.ofNat ((DMX_MAX_SLOTS - 1) >>> 8 &&& 0xFF)
      slotLengthLo := UInt8.ofNat ((DMX_MAX_SLOTS - 1) &&& 0xFF) } }

/-- The part of `startDMXArtnet` that prepares the node. The callback and the task are
set up by the calls that follow. -/
def startDMXArtnet (dir : Direction) (d : Device) : Device :=
  let d := if d.board.artnet.enabled then d.stopDMXArtnet else d
  let artnet := { d.board.artnet with direction := dir, enabled := true }
  let d := { d with board := { d.board with artnet := artnet } }
  let d := d.createPacketArtnet
  { d with board := d.board.createPacketArtnetPollReply }

/-- `ARTNETPACKET._universe = ..; ARTNETPACKET._universe_subnet = ..;` -/
def setUniverse (u : UInt16) (d : Device) : Device :=
  { d with packet := { d.packet with
      universeHi := (u >>> 8).toUInt8
      universeSubnet := (u &&& 0xFF).toUInt8 } }

def nextSequence (d : Device) : Device :=
  { d with packet := { d.packet with
      sequence := if d.packet.sequence = 0 then 1 else d.packet.sequence + 1 } }

/-- What goes to index `i` of the payload: the header, then the slots from 1 on. -/
def payloadAt (d : Device) (i : ℕ) : UInt8 :=
  if i < ART_DMX_DATA_INDEX then d.packet.header.getD i 0
  else d.board.dmx (i - ART_DMX_DATA_INDEX + 1)

end Device

abbrev Sender := Prog Device Access

/-- The answer of `pbuf_alloc` is not tested. -/
def sendDMXDataArtnet (c : Calls) (dest : UInt32) (u : UInt16) : Sender Unit := do
  let enabled ← get fun d => d.board.artnet.enabled
  if !enabled then pure ()
  else do
    emit (.connect dest)
    modify (Device.setUniverse u)
    if !c.pbufOk then crash
    else do
      let payload ← get fun d => copyLoop c.pool 0 d.payloadAt MAX_ARTNET_BUFFER
      modify Device.nextSequence
      emit (.send (CArray.take payload MAX_ARTNET_BUFFER))
      emit .disconnect

def Device.withDmx (dmx : Bytes) (d : Device) : Device := { d with board := { d.board with dmx := dmx } }

/-- The node after some sends, each with the universe and the buffer at its time. -/
def Device.afterSends (dest : UInt32) : List (Calls × UInt16 × Bytes) → Device → Device
  | [], d => d
  | (c, u, dmx) :: rest, d =>
    afterSends dest rest (sendDMXDataArtnet c dest u (d.withDmx dmx)).state

/-- What the header holds at any time after the start. -/
structure ArtnetPacket.Made (k : ArtnetPacket) : Prop where
  id : k.id = CArray.take ARTNET_ID 8
  opcode : k.opcode = ART_OP_DMX
  slotLengthHi : k.slotLengthHi = 2
  slotLengthLo : k.slotLengthLo = 0

section made
variable (c : Calls) (dest : UInt32) (u : UInt16) (d : Device)

theorem made_startDMXArtnet (dir : Direction) : (d.startDMXArtnet dir).packet.Made :=
  ⟨rfl, rfl, rfl, rfl⟩

theorem sendDMXData_state : (sendDMXDataArtnet c dest u d).state =
    if !d.board.artnet.enabled then d
    else if !c.pbufOk then d.setUniverse u
    else (d.setUniverse u).nextSequence := by
  change Leaves (fun d' => d' = _) (sendDMXDataArtnet c dest u) d
  unfold sendDMXDataArtnet
  rw [leaves_get_bind]
  split
  · rfl
  · rw [leaves_emit_bind, leaves_modify_bind]
    split
    · rfl
    · rw [leaves_get_bind, leaves_modify_bind, leaves_emit_bind, leaves_emit]

/-- A send leaves the header with another universe and sequence number at most. -/
theorem made_send (h : d.packet.Made) : (sendDMXDataArtnet c dest u d).state.packet.Made := by
  have hset : (d.setUniverse u).packet.Made :=
    ⟨h.id, h.opcode, h.slotLengthHi, h.slotLengthLo⟩
  rw [sendDMXData_state]
  split_ifs
  · exact h
  · exact hset
  · exact ⟨h.id, h.opcode, h.slotLengthHi, h.slotLengthLo⟩

theorem made_afterSends (history : List (Calls × UInt16 × Bytes)) (h : d.packet.Made) :
    (d.afterSends dest history).packet.Made := by
  induction history generalizing d with
  | nil => exact h
  | cons s history ih =>
    obtain ⟨c, u, dmx⟩ := s
    apply ih
    exact made_send c dest u _ h

end made

section log
variable (c : Calls) (dest : UInt32) (u : UInt16) (d : Device)

theorem sendDMXData_disabled (hoff : d.board.artnet.enabled = false) :
    (sendDMXDataArtnet c dest u d).log = [] := by
  unfold sendDMXDataArtnet
  rw [log_get_bind, if_pos (by rw [hoff]; rfl)]
  rfl

/-- The remote address is set before the allocation, so a failure leaves it behind. -/
theorem sendDMXData_crash (hon : d.board.artnet.enabled = true) (hpbuf : c.pbufOk = false) :
    (sendDMXDataArtnet c dest u d).log = [.connect dest] := by
  unfold sendDMXDataArtnet
  rw [log_get_bind, if_neg (by rw [hon]; decide), log_emit_bind, log_modify_bind,
    if_pos (by rw [hpbuf]; rfl)]
  rfl

/-- What the datagram holds was in the structure and in the buffer at the time of the send. -/
theorem sendDMXData_log (hon : d.board.artnet.enabled = true) (hpbuf : c.pbufOk = true) :
    (sendDMXDataArtnet c dest u d).log =
      [.connect dest, .send (CArray.take (d.setUniverse u).payloadAt MAX_ARTNET_BUFFER),
        .disconnect] := by
  have htake : CArray.take (copyLoop c.pool 0 (d.setUniverse u).payloadAt MAX_ARTNET_BUFFER)
      MAX_ARTNET_BUFFER = CArray.take (d.setUniverse u).payloadAt MAX_ARTNET_BUFFER := by
    apply take_congr
    intro i hi
    rw [copyLoop_apply, if_pos (by omega), Nat.sub_zero]
  rw [← htake]
  unfold sendDMXDataArtnet
  rw [log_get_bind, if_neg (by rw [hon]; decide), log_emit_bind, log_modify_bind,
    if_neg (by rw [hpbuf]; decide), log_get_bind, log_modify_bind, log_emit_bind]
  rfl

theorem sendDMXData_sends {bytes : List UInt8} (h : .send bytes ∈ (sendDMXDataArtnet c dest u d).log) :
    bytes = CArray.take (d.setUniverse u).payloadAt MAX_ARTNET_BUFFER := by
  cases hon : d.board.artnet.enabled with
  | false =>
    rw [sendDMXData_disabled c dest u d hon] at h
    exact absurd h List.not_mem_nil
  | true =>
    cases hpbuf : c.pbufOk with
    | false =>
      rw [sendDMXData_crash c dest u d hon hpbuf] at h
      exact absurd (List.mem_singleton.mp h) nofun
    | true =>
      rw [sendDMXData_log c dest u d hon hpbuf] at h
      simpa using h

end log

end BlizzardBridge
