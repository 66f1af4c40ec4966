import BlizzardBridge.ArtnetSpec

/-! What an ArtDmx packet does to the DMX buffer, compared with its fields read as
whole numbers. -/
namespace BlizzardBridge
open CArray Program

def Pbuf.number (p : Pbuf) (hi lo : ℕ) : ℕ := 256 * (p.payload hi).toNat + (p.payload lo).toNat

def Pbuf.universeField (p : Pbuf) : ℕ := p.number ART_DATA_UNIVERSE_H_INDEX ART_DATA_UNIVERSE_L_INDEX
def Pbuf.slotCount (p : Pbuf) : ℕ := p.number ART_DATA_SLOTS_H_INDEX ART_DATA_SLOTS_L_INDEX

/-- The slots after `lo` and up to `hi` hold the data of the packet already. -/
def Pbuf.Present (p : Pbuf) (dmx : Bytes) (lo hi : ℕ) : Prop :=
  ∀ k, lo < k → k ≤ hi → dmx k = p.payload (17 + k)

/-- What the fields of the packet ask for, at a node whose universe is `u`. -/
def Pbuf.Delivered (p : Pbuf) (u : ℕ) (before after : Bytes) : Prop :=
  (p.universeField = u →
    after = fun k => if 1 ≤ k ∧ k ≤ p.slotCount then p.payload (17 + k) else before k) ∧
  (p.universeField ≠ u → after = before)

/-- The data of the packet in the slots from 1 to `n`, and nothing else changed. -/
def Pbuf.dataIn (p : Pbuf) (n : ℕ) (dmx : Bytes) : Bytes :=
  copyLoop dmx 1 (fun i => p.payload (ART_DMX_DATA_INDEX + i)) n

section packet
variable (p : Pbuf) (b : Board)

theorem ends_parseDMX : Ends (parseDMXDataPacketArtnet p) b ()
    (if p.universeSeen = b.ram.ownUniverse.toNat then { b with dmx := p.dataIn p.slotsSeen b.dmx }
      else b) := by
  have hn : (joinBytes (p.payload ART_DATA_SLOTS_H_INDEX)
      (p.payload ART_DATA_SLOTS_L_INDEX)).toNat = p.slotsSeen := joinBytes_toNat _ _
  have hu := joinBytes_eq_iff p ART_DATA_UNIVERSE_H_INDEX ART_DATA_UNIVERSE_L_INDEX b.ram.ownUniverse
  apply Ends.bind ends_step
  apply Ends.bind ends_step
  apply Ends.bind ends_step
  by_cases hseen : p.universeSeen = b.ram.ownUniverse.toNat
  · rw [if_pos hseen, if_neg (not_not.mpr (hu.mpr hseen))]
    apply Ends.bind ends_step
    apply Ends.bind ends_step
    rw [← hn]
    exact ends_copySlots (ends_readPayload p (ART_DMX_DATA_INDEX + ·)) 1 _
  · rw [if_neg hseen, if_pos (fun h => hseen (hu.mp h))]
    exact ends_pure

theorem dataIn_apply (n k : ℕ) (dmx : Bytes) :
    p.dataIn n dmx k = if 1 ≤ k ∧ k ≤ n then p.payload (17 + k) else dmx k := by
  rw [Pbuf.dataIn, copyLoop_apply]
  by_cases hk : 1 ≤ k ∧ k ≤ n
  · have hidx : ART_DMX_DATA_INDEX + (k - 1) = 17 + k := by unfold ART_DMX_DATA_INDEX; omega
    rw [if_pos (by omega), if_pos hk, hidx]
  · rw [if_neg (by omega), if_neg hk]

/-- Of the universe field the node sees the low-order byte only when it is 0 or 1. -/
theorem seen_eq_number_iff (hi lo : ℕ) :
    p.seen hi lo = p.number hi lo ↔ (p.payload lo).toNat ≤ 1 := by
  unfold Pbuf.seen Pbuf.number
  split_ifs with h0
  · rw [h0]
    exact iff_of_true rfl (Nat.zero_le 1)
  · have hpos : (p.payload lo).toNat ≠ 0 := fun h => h0 (UInt8.toNat_inj.mp h)
    omega

theorem seen_le_number (hi lo : ℕ) : p.seen hi lo ≤ p.number hi lo := by
  unfold Pbuf.seen Pbuf.number
  split_ifs with h0
  · omega
  · have hpos : (p.payload lo).toNat ≠ 0 := fun h => h0 (UInt8.toNat_inj.mp h)
    omega

variable {p}

theorem dataIn_eq_iff {m n : ℕ} {dmx : Bytes} (hmn : m ≤ n) :
    p.dataIn m dmx = p.dataIn n dmx ↔ p.Present dmx m n := by
  constructor
  · intro heq k hm hn
    have hk := congrFun heq k
    rwa [dataIn_apply, dataIn_apply, if_neg (by omega), if_pos (by omega)] at hk
  · intro hpresent
    funext k
    rw [dataIn_apply, dataIn_apply]
    by_cases hk : 1 ≤ k ∧ k ≤ m
    · rw [if_pos hk, if_pos (by omega)]
    · rw [if_neg hk]
      split_ifs with hkn
      · exact hpresent k (by omega) hkn.2
      · rfl

end packet

/-- An ArtDmx packet does what its fields say exactly when the slots on which the fields
and the numbers that the node sees differ hold the data already. -/
theorem parseDMX_copies_iff (p : Pbuf) (b : Board) :
    p.Delivered b.ram.ownUniverse.toNat b.dmx (parseDMXDataPacketArtnet p b).state.dmx ↔
    (p.universeField = b.ram.ownUniverse.toNat → (p.payload ART_DATA_UNIVERSE_L_INDEX).toNat ≤ 1 →
        p.Present b.dmx p.slotsSeen p.slotCount) ∧
      (p.universeField = b.ram.ownUniverse.toNat → 2 ≤ (p.payload ART_DATA_UNIVERSE_L_INDEX).toNat →
        p.Present b.dmx 0 p.slotCount) ∧
      (p.universeField ≠ b.ram.ownUniverse.toNat → p.universeSeen = b.ram.ownUniverse.toNat →
        p.Present b.dmx 0 p.slotsSeen) := by
  have hdata : (fun k => if 1 ≤ k ∧ k ≤ p.slotCount then p.payload (17 + k) else b.dmx k) =
      p.dataIn p.slotCount b.dmx := (funext fun k => dataIn_apply p _ k b.dmx).symm
  have hseen : p.universeSeen = p.universeField ↔
      (p.payload ART_DATA_UNIVERSE_L_INDEX).toNat ≤ 1 := seen_eq_number_iff p _ _
  have hle : p.slotsSeen ≤ p.slotCount := seen_le_number p _ _
  rw [(ends_parseDMX p b).2, Pbuf.Delivered, hdata]
  -- four cases: is the packet for this universe, and does the code take it for one
  by_cases hfield : p.universeField = b.ram.ownUniverse.toNat
  · by_cases hlow : (p.payload ART_DATA_UNIVERSE_L_INDEX).toNat ≤ 1
    · have hu : p.universeSeen = b.ram.ownUniverse.toNat := (hseen.mpr hlow).trans hfield
      have hno : ¬ 2 ≤ (p.payload ART_DATA_UNIVERSE_L_INDEX).toNat := by omega
      simp only [hfield, hlow, hno, if_pos hu, ne_eq, not_true, forall_const, false_imp_iff, and_true]
      exact dataIn_eq_iff hle
    · have hu : p.universeSeen ≠ b.ram.ownUniverse.toNat := fun h =>
        hlow (hseen.mp (h.trans hfield.symm))
      have htwo : 2 ≤ (p.payload ART_DATA_UNIVERSE_L_INDEX).toNat := by omega
      simp only [hfield, hlow, htwo, if_neg hu, ne_eq, not_true, forall_const, false_imp_iff,
        and_true, true_and]
      exact dataIn_eq_iff (Nat.zero_le _)
  · by_cases hu : p.universeSeen = b.ram.ownUniverse.toNat
    · simp only [hfield, hu, if_true, ne_eq, not_false_iff, forall_const, false_imp_iff, true_and]
      rw [eq_comm]
      exact dataIn_eq_iff (Nat.zero_le _)
    · simp only [hfield, hu, if_false, ne_eq, not_false_iff, forall_const, false_imp_iff, and_true]

def dmxPacket : Pbuf where
  payload := store (fun _ => 0) 0 (take ARTNET_ID 8 ++ word ART_OP_DMX ++ [0, 14, 1, 1, 2, 0, 0, 2, 10, 20])
  len := 20

/-- A packet for the own universe is ignored. -/
theorem parseDMX_ignores : ¬ ∀ (p : Pbuf) (b : Board), p.slotCount ≤ 512 → 18 + p.slotCount ≤ p.len →
    p.Delivered b.ram.ownUniverse.toNat b.dmx (parseDMXDataPacketArtnet p b).state.dmx := by
  intro hall
  let b := Board.setOwnUniverse 2 (Board.reset (Board.storage fun _ => none) Board.station)
  have hdmx := (hall dmxPacket b (by decide) (by decide)).1 (by decide)
  rw [(ends_parseDMX dmxPacket b).2] at hdmx
  have hone : (0 : UInt8) = 10 := congrFun hdmx 1
  exact absurd hone (by decide)

end BlizzardBridge
