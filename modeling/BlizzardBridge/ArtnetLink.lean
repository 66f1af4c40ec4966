import BlizzardBridge.ArtnetBounds
import BlizzardBridge.ArtnetDispatch
import BlizzardBridge.ArtnetDmx
import BlizzardBridge.ArtnetSend
import Mathlib.Algebra.Group.Nat.Defs

/-! One node sends its buffer, another one receives the datagram. The two meet on the
wire only: the sender fills a structure, the receiver reads bytes at its own offsets. -/
namespace BlizzardBridge
open CArray Program

/-- The slots behind the start byte. -/
def SameSlots (a b : Bytes) : Prop := ∀ k, 1 ≤ k → k ≤ 512 → a k = b k

/-- What a node whose universe is `w` makes of a buffer sent to the universe `u`. -/
def Linked (u w : UInt16) (sent before after : Bytes) : Prop :=
  (w = u → SameSlots after sent ∧ after 0 = before 0) ∧ (w ≠ u → after = before)

/-- The universe that a receiver sees when `u` is sent. -/
def universeOnWire (u : UInt16) : ℕ := 256 * (u.toNat / 256) + if u.toNat % 256 = 0 then 0 else 1

theorem universeOnWire_eq_iff (u : UInt16) : universeOnWire u = u.toNat ↔ u.toNat % 256 ≤ 1 := by
  have hdiv : 256 * (u.toNat / 256) + u.toNat % 256 = u.toNat := Nat.div_add_mod _ _
  unfold universeOnWire
  split <;> omega

theorem highByte_toNat (u : UInt16) : (u >>> 8).toUInt8.toNat = u.toNat / 256 := by
  have hlt : u.toNat < 65536 := u.toNat_lt
  rw [UInt16.toNat_toUInt8, UInt16.toNat_shiftRight]
  change u.toNat >>> 8 % 256 = _
  rw [Nat.shiftRight_eq_div_pow]
  omega

theorem lowByte_toNat (u : UInt16) : (u &&& 0xFF).toUInt8.toNat = u.toNat % 256 := by
  rw [UInt16.toNat_toUInt8, UInt16.toNat_and]
  change (u.toNat &&& 2 ^ 8 - 1) % 256 = _
  rw [Nat.and_two_pow_sub_one_eq_mod]
  omega

section wire
variable {d : Device} {p : Pbuf} {u : UInt16}

/-- What the receiver can tell of a datagram that holds the payload of `d`. -/
structure Pbuf.Carries (p : Pbuf) (d : Device) (u : UInt16) : Prop where
  hasID : p.HasID 8 0
  opcode : p.opcode = ART_OP_DMX
  universeSeen : p.universeSeen = universeOnWire u
  slotsSeen : p.slotsSeen = 512
  data : ∀ k, 1 ≤ k → k ≤ 512 → p.payload (17 + k) = d.board.dmx k

theorem payloadAt_data (k : ℕ) (hk : 1 ≤ k) : d.payloadAt (17 + k) = d.board.dmx k := by
  have hno : ¬ 17 + k < ART_DMX_DATA_INDEX := by unfold ART_DMX_DATA_INDEX; omega
  have hidx : 17 + k - ART_DMX_DATA_INDEX + 1 = k := by unfold ART_DMX_DATA_INDEX; omega
  rw [Device.payloadAt, if_neg hno, hidx]

theorem carries_of_payload (hmade : d.packet.Made)
    (hpayload : ∀ i < MAX_ARTNET_BUFFER, p.payload i = (d.setUniverse u).payloadAt i) :
    p.Carries d u := by
  let k := (d.setUniverse u).packet
  have hheader : k.header = take ARTNET_ID 8 ++ word ART_OP_DMX ++ word k.protocolVersion ++
      [k.sequence, k.physical, (u &&& 0xFF).toUInt8, (u >>> 8).toUInt8, 2, 0] := by
    change d.packet.id ++ word d.packet.opcode ++ _ ++
      [_, _, _, _, d.packet.slotLengthHi, d.packet.slotLengthLo] = _
    rw [hmade.id, hmade.opcode, hmade.slotLengthHi, hmade.slotLengthLo]
    rfl
  have hbyte (i : ℕ) (hi : i < 18) : p.payload i = k.header.getD i 0 := by
    rw [hpayload i (by unfold MAX_ARTNET_BUFFER; omega), Device.payloadAt,
      if_pos (by unfold ART_DMX_DATA_INDEX; omega)]
  rw [hheader] at hbyte
  refine ⟨?_, ?_, ?_, ?_, ?_⟩
  · intro i hi
    have hid : i < (take ARTNET_ID 8).length := by rwa [length_take]
    rw [Nat.zero_add, hbyte i (by omega), List.getD_eq_getElem?_getD]
    simp only [List.append_assoc]
    rw [List.getElem?_append_left hid, getElem?_take ARTNET_ID hi]
    rfl
  · have hlo : p.payload 8 = 0 := hbyte 8 (by omega)
    have hhi : p.payload 9 = 0x50 := hbyte 9 (by omega)
    rw [Pbuf.opcode, hlo, hhi]
    decide
  · have hlo : p.payload 14 = (u &&& 0xFF).toUInt8 := hbyte 14 (by omega)
    have hhi : p.payload 15 = (u >>> 8).toUInt8 := hbyte 15 (by omega)
    have hzero : p.payload 14 = 0 ↔ u.toNat % 256 = 0 := by
      rw [hlo, ← UInt8.toNat_inj, lowByte_toNat]
      rfl
    change 256 * (p.payload 15).toNat + (if p.payload 14 = 0 then 0 else 1) = _
    rw [hhi, highByte_toNat, universeOnWire]
    exact congrArg _ (if_congr hzero rfl rfl)
  · have hhi : p.payload 16 = 2 := hbyte 16 (by omega)
    have hlo : p.payload 17 = 0 := hbyte 17 (by omega)
    change 256 * (p.payload 16).toNat + (if p.payload 17 = 0 then 0 else 1) = 512
    rw [hhi, hlo]
    rfl
  · intro j hj hlast
    rw [hpayload (17 + j) (by unfold MAX_ARTNET_BUFFER; omega), payloadAt_data j hj]
    rfl

end wire

section link
variable (c : Calls) (p : Pbuf) (addr : UInt32) (d : Device) (b : Board) (u : UInt16)

theorem receive_carried (hmutex : c.mutexTaken = true) (hdir : b.artnet.direction = .receive)
    (hcarries : p.Carries d u) : (recieveDMXArtnet c p addr b).state.dmx =
      if universeOnWire u = b.ram.ownUniverse.toNat then p.dataIn 512 b.dmx else b.dmx := by
  rw [recieve_state c p addr b hmutex hcarries.hasID, hcarries.opcode, switch_dmx c p addr b hdir,
    (ends_parseDMX p b).2, hcarries.universeSeen, hcarries.slotsSeen]
  split <;> rfl

theorem dataIn_sameSlots (hcarries : p.Carries d u) (dmx : Bytes) :
    SameSlots (p.dataIn 512 dmx) d.board.dmx ∧ p.dataIn 512 dmx 0 = dmx 0 := by
  constructor
  · intro k hk hlast
    rw [dataIn_apply, if_pos ⟨hk, hlast⟩]
    exact hcarries.data k hk hlast
  · rw [dataIn_apply, if_neg (by omega)]

theorem dataIn_eq_self_iff (hcarries : p.Carries d u) (dmx : Bytes) :
    p.dataIn 512 dmx = dmx ↔ SameSlots dmx d.board.dmx := by
  constructor
  · intro heq
    have hsame := (dataIn_sameSlots p d u hcarries dmx).1
    rwa [heq] at hsame
  · intro hsame
    funext k
    rw [dataIn_apply]
    by_cases hk : 1 ≤ k ∧ k ≤ 512
    · rw [if_pos hk, hcarries.data k hk.1 hk.2]
      exact (hsame k hk.1 hk.2).symm
    · rw [if_neg hk]

/-- An enabled node whose start lies some sends back puts its buffer on the wire. -/
theorem sent_carries (dir : Direction) (dest : UInt32) (history : List (Calls × UInt16 × Bytes))
    (dmx : Bytes)
    (hsent : .send (take p.payload p.len) ∈ (sendDMXDataArtnet c dest u
      (((d.startDMXArtnet dir).afterSends dest history).withDmx dmx)).log) :
    p.Carries (((d.startDMXArtnet dir).afterSends dest history).withDmx dmx) u := by
  let sender := ((d.startDMXArtnet dir).afterSends dest history).withDmx dmx
  have hmade : sender.packet.Made :=
    made_afterSends dest (d.startDMXArtnet dir) history (made_startDMXArtnet d dir)
  apply carries_of_payload hmade
  exact eq_of_take_eq (sendDMXData_sends c dest u sender hsent)

end link

/-- The link works exactly as long as the low-order byte of neither universe is above 1,
or the receiver holds the buffer already: another universe in that byte is not seen. -/
theorem dmx_link_iff (d : Device) (dir : Direction) (dest : UInt32)
    (history : List (Calls × UInt16 × Bytes)) (dmx : Bytes) (u : UInt16) (c c' : Calls) (p : Pbuf)
    (addr : UInt32) (b : Board) (hmutex : c'.mutexTaken = true)
    (hdir : b.artnet.direction = .receive)
    (hsent : .send (take p.payload p.len) ∈ (sendDMXDataArtnet c dest u
      (((d.startDMXArtnet dir).afterSends dest history).withDmx dmx)).log) :
    Linked u b.ram.ownUniverse dmx b.dmx (recieveDMXArtnet c' p addr b).state.dmx ↔
      (b.ram.ownUniverse = u → 2 ≤ u.toNat % 256 → SameSlots b.dmx dmx) ∧
      (b.ram.ownUniverse ≠ u → universeOnWire u = b.ram.ownUniverse.toNat → SameSlots b.dmx dmx) := by
  let sender := ((d.startDMXArtnet dir).afterSends dest history).withDmx dmx
  have hcarries : p.Carries sender u := sent_carries c p d u dir dest history dmx hsent
  have hcopy : SameSlots (p.dataIn 512 b.dmx) dmx ∧ p.dataIn 512 b.dmx 0 = b.dmx 0 :=
    dataIn_sameSlots p sender u hcarries b.dmx
  have hself : p.dataIn 512 b.dmx = b.dmx ↔ SameSlots b.dmx dmx :=
    dataIn_eq_self_iff p sender u hcarries b.dmx
  have hseen : universeOnWire u = u.toNat ↔ u.toNat % 256 ≤ 1 := universeOnWire_eq_iff u
  rw [receive_carried c' p addr sender b u hmutex hdir hcarries, Linked]
  by_cases hw : b.ram.ownUniverse = u
  · -- the datagram is meant for the receiver
    have hiff : universeOnWire u = b.ram.ownUniverse.toNat ↔ u.toNat % 256 ≤ 1 := by rw [hw, hseen]
    simp only [hw, ne_eq, not_true, false_imp_iff, and_true, forall_const]
    rw [hw] at hiff
    by_cases hlow : u.toNat % 256 ≤ 1
    · rw [if_pos (hiff.mpr hlow)]
      exact iff_of_true hcopy fun htwo => absurd hlow (by omega)
    · rw [if_neg (fun h => hlow (hiff.mp h))]
      have htwo : 2 ≤ u.toNat % 256 := by omega
      simp only [htwo, forall_const, and_true]
  · -- the datagram is meant for another node
    simp only [hw, ne_eq, not_false_iff, false_imp_iff, true_and, forall_const]
    by_cases hwire : universeOnWire u = b.ram.ownUniverse.toNat
    · rw [if_pos hwire]
      simp only [hwire, forall_const]
      exact hself
    · rw [if_neg hwire]
      exact iff_of_true rfl fun h => absurd h hwire

def zeroDevice : Device where
  board := startedNode
  packet := ⟨[], 0, 0, 0, 0, 0, 0, 0, 0⟩

/-- A node that sends the value 10 in every slot. -/
def tenSender : Device :=
  ((zeroDevice.startDMXArtnet .send).afterSends 0 []).withDmx fun _ => 10

def sentBy (d : Device) (u : UInt16) : Pbuf where
  payload := (d.setUniverse u).payloadAt
  len := MAX_ARTNET_BUFFER

theorem sentBy_sent (u : UInt16) : Access.send (take (sentBy tenSender u).payload (sentBy tenSender u).len) ∈
    (sendDMXDataArtnet allCalls 0 u tenSender).log := by
  rw [sendDMXData_log allCalls 0 u tenSender rfl rfl]
  exact List.mem_cons_of_mem _ List.mem_cons_self

theorem dmx_link_one : let b := Board.setOwnUniverse 1 startedNode
    Linked 1 b.ram.ownUniverse (fun _ => 10) b.dmx
      (recieveDMXArtnet allCalls (sentBy tenSender 1) 0 b).state.dmx := by
  intro b
  apply (dmx_link_iff zeroDevice .send 0 [] (fun _ => 10) 1 allCalls allCalls _ 0 b rfl rfl
    (sentBy_sent 1)).mpr
  refine ⟨fun _ htwo => ?_, fun hw => absurd rfl hw⟩
  exact absurd htwo (by decide)

/-- Two nodes that both use the universe 2 do not hear each other. -/
theorem dmx_link_fails : ¬ ∀ (d : Device) (dir : Direction) (dest : UInt32)
    (history : List (Calls × UInt16 × Bytes)) (dmx : Bytes) (u : UInt16) (c c' : Calls) (p : Pbuf)
    (addr : UInt32) (b : Board), u.toNat < 2 ^ 15 → c'.mutexTaken = true →
    b.artnet.direction = .receive →
    .send (take p.payload p.len) ∈ (sendDMXDataArtnet c dest u
      (((d.startDMXArtnet dir).afterSends dest history).withDmx dmx)).log →
    Linked u b.ram.ownUniverse dmx b.dmx (recieveDMXArtnet c' p addr b).state.dmx := by
  intro hall
  let b := Board.setOwnUniverse 2 startedNode
  have hlink := hall zeroDevice .send 0 [] (fun _ => 10) 2 allCalls allCalls _ 0 b (by decide) rfl rfl
    (sentBy_sent 2)
  have hcarries : (sentBy tenSender 2).Carries tenSender 2 :=
    sent_carries allCalls _ zeroDevice 2 .send 0 [] _ (sentBy_sent 2)
  have hkept := receive_carried allCalls _ 0 tenSender b 2 rfl rfl hcarries
  rw [if_neg (show ¬ universeOnWire 2 = b.ram.ownUniverse.toNat by decide)] at hkept
  rw [hkept] at hlink
  have hslot : (0 : UInt8) = 10 := (hlink.1 rfl).1 1 le_rfl (by omega)
  exact absurd hslot (by decide)

end BlizzardBridge
