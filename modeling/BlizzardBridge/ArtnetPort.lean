import BlizzardBridge.ArtnetAddress
import BlizzardBridge.ArtnetLink

/-! The port address that the node advertises in its poll reply, and the port addresses
whose ArtDmx packets it takes for its own. -/
namespace BlizzardBridge
open CArray Program

/-- A port address in three fields, as the poll reply has it. -/
structure PortAddress where
  net : UInt8
  sub : UInt8
  sw : UInt8

def PortAddress.value (a : PortAddress) : ℕ := 256 * a.net.toNat + 16 * a.sub.toNat + a.sw.toNat

-- `_net_switch`, `_sub_switch` and `_sw_out[0]` of the reply.
def Board.advertised (b : Board) : PortAddress where
  net := b.createPacketArtnetPollReply.artnet.pollReply 18
  sub := b.createPacketArtnetPollReply.artnet.pollReply 19
  sw := b.createPacketArtnetPollReply.artnet.pollReply 190

/-- The packet has the port address `a` in its universe field. -/
def Pbuf.AddressedTo (p : Pbuf) (a : PortAddress) : Prop :=
  p.payload ART_DATA_UNIVERSE_H_INDEX = a.net ∧
    (p.payload ART_DATA_UNIVERSE_L_INDEX).toNat = 16 * a.sub.toNat + a.sw.toNat

/-- The handler goes on to the slots of the packet. -/
def Accepts (p : Pbuf) (b : Board) : Prop :=
  .readPayload ART_DATA_SLOTS_H_INDEX ∈ (parseDMXDataPacketArtnet p b).log

/-- What a controller relies on: the node advertises its own universe, hears what is sent
to it there, and nothing that is sent elsewhere. -/
structure Board.PortAgrees (b : Board) : Prop where
  value : b.advertised.value = b.ram.ownUniverse.toNat
  own : ∀ p : Pbuf, p.AddressedTo b.advertised → Accepts p b
  others : ∀ v < 2 ^ 15, v ≠ b.ram.ownUniverse.toNat → ∀ p : Pbuf, p.universeField = v → ¬ Accepts p b

section parse
variable (p : Pbuf) (b : Board)

theorem accepts_iff : Accepts p b ↔ p.universeSeen = b.ram.ownUniverse.toNat := by
  have hu := joinBytes_eq_iff p ART_DATA_UNIVERSE_H_INDEX ART_DATA_UNIVERSE_L_INDEX b.ram.ownUniverse
  have hother (i : ℕ) (hi : ART_DATA_SLOTS_H_INDEX ≠ i) :
      Access.readPayload ART_DATA_SLOTS_H_INDEX ≠ .readPayload i :=
    fun h => hi (Access.readPayload.inj h)
  unfold Accepts parseDMXDataPacketArtnet
  rw [log_bind_of_ends (x := readPayload p _) ends_step,
    log_bind_of_ends (x := readPayload p _) ends_step, log_get_bind]
  by_cases hseen : p.universeSeen = b.ram.ownUniverse.toNat
  · rw [if_neg (not_not.mpr (hu.mpr hseen)), log_bind_of_ends (x := readPayload p _) ends_step]
    refine iff_of_true ?_ hseen
    exact List.mem_append_right _ (List.mem_append_right _ (List.mem_append_left _ List.mem_cons_self))
  · rw [if_pos fun h => hseen (hu.mp h)]
    refine iff_of_false ?_ hseen
    intro hmem
    rcases List.mem_append.mp hmem with hhi | hmem
    · exact hother _ (by decide) (List.mem_singleton.mp hhi)
    · rcases List.mem_append.mp hmem with hlo | hnone
      · exact hother _ (by decide) (List.mem_singleton.mp hlo)
      · exact absurd hnone List.not_mem_nil

end parse

section fields
variable (u : UInt16)

theorem subSwitch_toNat : ((u &&& 0xFF) >>> 4).toUInt8.toNat = u.toNat % 256 / 16 := by
  have hlow : (u &&& 0xFF).toNat = u.toNat % 256 := by
    rw [UInt16.toNat_and]
    change u.toNat &&& 2 ^ 8 - 1 = _
    rw [Nat.and_two_pow_sub_one_eq_mod]
  rw [UInt16.toNat_toUInt8, UInt16.toNat_shiftRight, hlow]
  change (u.toNat % 256) >>> 4 % 256 = _
  rw [Nat.shiftRight_eq_div_pow]
  omega

theorem output_toNat : (u &&& 0x0F).toUInt8.toNat = u.toNat % 16 := by
  rw [UInt16.toNat_toUInt8, UInt16.toNat_and]
  change (u.toNat &&& 2 ^ 4 - 1) % 256 = _
  rw [Nat.and_two_pow_sub_one_eq_mod]
  omega

end fields

namespace Board
variable (b : Board)

theorem getIP_ownUniverse : b.getIP.ram.ownUniverse = b.ram.ownUniverse := by
  unfold getIP getAddress
  split <;> rfl

/-- The three fields split the own universe. -/
theorem advertised_eq : b.advertised =
    ⟨(b.ram.ownUniverse >>> 8).toUInt8, ((b.ram.ownUniverse &&& 0xFF) >>> 4).toUInt8,
      (b.ram.ownUniverse &&& 0x0F).toUInt8⟩ := by
  obtain ⟨packet, hpacket⟩ := b.pollReply_eq
  have hram : (getIP^[4] b).ram.ownUniverse = b.ram.ownUniverse := by
    rw [getIP_iterate b 3, getIP_ownUniverse]
  rw [advertised, hpacket, ← hram]
  rfl

theorem advertised_value : b.advertised.value = b.ram.ownUniverse.toNat := by
  rw [advertised_eq, PortAddress.value, highByte_toNat, subSwitch_toNat, output_toNat]
  omega

end Board

theorem seen_of_field (p : Pbuf) {v : ℕ} (hv : p.universeField = v) :
    p.universeSeen = 256 * (v / 256) + if v % 256 = 0 then 0 else 1 := by
  have hlt : (p.payload ART_DATA_UNIVERSE_L_INDEX).toNat < 256 := UInt8.toNat_lt _
  have hzero : p.payload ART_DATA_UNIVERSE_L_INDEX = 0 ↔ v % 256 = 0 := by
    rw [← UInt8.toNat_inj, ← hv]
    change _ = 0 ↔ (256 * _ + _) % 256 = 0
    omega
  have hdiv : (p.payload ART_DATA_UNIVERSE_H_INDEX).toNat = v / 256 := by
    rw [← hv]
    change _ = (256 * _ + _) / 256
    omega
  rw [← hdiv]
  exact congrArg _ (if_congr hzero rfl rfl)

/-- The reply and the universe field of a packet split a universe in the same way. -/
theorem addressedTo_iff (p : Pbuf) (b : Board) :
    p.AddressedTo b.advertised ↔ p.universeField = b.ram.ownUniverse.toNat := by
  have hlt : (p.payload ART_DATA_UNIVERSE_L_INDEX).toNat < 256 := UInt8.toNat_lt _
  have hfield : p.universeField = 256 * (p.payload ART_DATA_UNIVERSE_H_INDEX).toNat +
      (p.payload ART_DATA_UNIVERSE_L_INDEX).toNat := rfl
  rw [Board.advertised_eq, Pbuf.AddressedTo, ← UInt8.toNat_inj, highByte_toNat, subSwitch_toNat,
    output_toNat, hfield]
  omega

/-- A packet whose two bytes are those of `v`. -/
def packetTo (v : ℕ) : Pbuf where
  payload := store (fun _ => 0) 14 [UInt8.ofNat v, UInt8.ofNat (v / 256)]
  len := 530

theorem packetTo_field {v : ℕ} (hv : v < 2 ^ 16) : (packetTo v).universeField = v := by
  change 256 * (UInt8.ofNat (v / 256)).toNat + (UInt8.ofNat v).toNat = v
  rw [UInt8.toNat_ofNat', UInt8.toNat_ofNat']
  omega

/-- The own universe is the only one that the node hears exactly when its low-order byte
is zero. -/
theorem port_agrees_iff (b : Board) (hu : b.ram.ownUniverse.toNat < 2 ^ 15) :
    b.PortAgrees ↔ b.ram.ownUniverse.toNat % 256 = 0 := by
  let u := b.ram.ownUniverse.toNat
  have haccepts (v : ℕ) (p : Pbuf) (hp : p.universeField = v) :
      Accepts p b ↔ 256 * (v / 256) + (if v % 256 = 0 then 0 else 1) = u := by
    rw [accepts_iff, seen_of_field p hp]
  constructor
  · intro hagrees
    have hown : (packetTo u).universeField = u := packetTo_field (by omega)
    have hnext : (packetTo (u + 1)).universeField = u + 1 := packetTo_field (by omega)
    by_contra hlow
    -- a low-order byte above 1 keeps out the own packets, and 1 lets in those of the next universe
    have hone : u % 256 = 1 := by
      have hseen := (haccepts u _ hown).mp (hagrees.own _ ((addressedTo_iff _ b).mpr hown))
      rw [if_neg hlow] at hseen
      omega
    apply hagrees.others (u + 1) (by omega) (Nat.succ_ne_self u) _ hnext
    rw [haccepts _ _ hnext, if_neg (by omega)]
    omega
  · intro hzero
    have hdiv : 256 * (u / 256) = u := by omega
    refine ⟨b.advertised_value, ?_, ?_⟩
    · intro p hp
      rw [haccepts u p ((addressedTo_iff p b).mp hp), if_pos hzero]
      exact hdiv
    · intro v _ hne p hp hseen
      rw [haccepts v p hp] at hseen
      apply hne
      split_ifs at hseen
      · omega
      · omega

theorem port_agrees_next_net :
    let b := Board.setOwnUniverse 0x2300 startedNode
    b.ram.ownUniverse.toNat < 2 ^ 15 ∧ b.PortAgrees := by
  intro b
  have hbound : b.ram.ownUniverse.toNat < 2 ^ 15 := by decide
  exact ⟨hbound, (port_agrees_iff b hbound).mpr (by decide)⟩

/-- A node with the universe 2 does not hear what is sent to the address it advertises. -/
theorem port_agrees_fails : ¬ ∀ b : Board, b.ram.ownUniverse.toNat < 2 ^ 15 → b.PortAgrees := by
  intro hall
  let b := Board.setOwnUniverse 2 startedNode
  have hagrees := hall b (by decide)
  have hheard : Accepts (packetTo 2) b := hagrees.own _ ((addressedTo_iff _ b).mpr rfl)
  have hseen := (accepts_iff _ b).mp hheard
  exact absurd hseen (by decide)

end BlizzardBridge
