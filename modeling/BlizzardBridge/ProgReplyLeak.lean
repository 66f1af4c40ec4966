import BlizzardBridge.ArtnetAddress

/-! Two runs of the reply to ArtIpProg that differ in what the allocated block holds. -/
namespace BlizzardBridge
open CArray Program

/-- The bytes that no assignment reaches: `_filler` and `_spare`. -/
def Unwritten (j : ℕ) : Prop := 12 ≤ j ∧ j < 16 ∨ 27 ≤ j ∧ j < PROG_REPLY_SIZE

/-- Two blocks that look the same under the reply. In the status byte the assignment reaches
one bit of eight. -/
structure SameUnderReply (heap heap' : Bytes) : Prop where
  bytes : ∀ j, Unwritten j → heap j = heap' j
  status : heap 26 &&& 0xF7 = heap' 26 &&& 0xF7

namespace Board

theorem copyIP_other {pos : ℕ → ℕ} {j : ℕ} (n : ℕ) (r : Bytes × Board) (hj : ∀ i < n, pos i ≠ j) :
    (copyIP pos n r).1 j = r.1 j := by
  induction n with
  | zero => rfl
  | succ n ih =>
    have hlast : (copyIP pos (n + 1) r).1 j = (copyIP pos n r).1 j :=
      Function.update_of_ne (hj n (Nat.lt_succ_self n)).symm _ _
    rw [hlast]
    exact ih fun i hi => hj i (Nat.lt_succ_of_lt hi)

section fields
variable (heap heap' : Bytes) (b : Board)

/-- The reply up to its address. -/
def progReplyHead : Bytes :=
  store (store (store heap 0 (take ARTNET_ID 8)) 8 (word ART_OP_PROG_REPLY)) 10 (word ART_PROTO_VER)

/-- The reply up to its status byte. -/
def progReplyFront : Bytes :=
  store (store (copyIP (fun i => 16 + (3 - i)) 4 (progReplyHead heap, b)).1 20 [255, 255, 255, 0])
    24 (word ART_NET_PORT_REV)

theorem createProgReply_eq : (createProgReply heap b).1 = store (progReplyFront heap b) 26
    [(progReplyFront heap b 26 &&& 0xF7) |||
      bitField (copyIP (fun i => 16 + (3 - i)) 4 (progReplyHead heap, b)).2.ram.dhcpEnable 3] := by
  unfold createProgReply progReplyFront progReplyHead
  rfl

variable {heap heap' b} {j : ℕ}

theorem progReplyHead_written (hj : j < 12) : progReplyHead heap j = progReplyHead heap' j := by
  have hword (v : UInt16) : (word v).length = 2 := rfl
  unfold progReplyHead
  rcases Nat.lt_or_ge j 10 with h10 | h10
  · rw [store_before _ _ h10, store_before _ _ h10]
    rcases Nat.lt_or_ge j 8 with h8 | h8
    · rw [store_before _ _ h8, store_before _ _ h8]
      exact store_inside _ _ (Nat.zero_le j) (by rw [length_take]; omega)
    · exact store_inside _ _ h8 (by rw [hword]; omega)
  · exact store_inside _ _ h10 (by rw [hword]; omega)

theorem progReplyHead_unwritten (hj : 12 ≤ j) : progReplyHead heap j = heap j := by
  have hword (v : UInt16) : (word v).length = 2 := rfl
  unfold progReplyHead
  rw [store_after _ (by rw [hword]; exact hj), store_after _ (by rw [hword]; omega),
    store_after _ (by rw [length_take]; omega)]

/-- Outside the address, the mask and the port the head shows through. -/
theorem progReplyFront_head (hj : j < 16 ∨ 26 ≤ j) : progReplyFront heap b j = progReplyHead heap j := by
  have hother : (copyIP (fun i => 16 + (3 - i)) 4 (progReplyHead heap, b)).1 j = progReplyHead heap j := by
    apply copyIP_other
    intro i hi
    omega
  unfold progReplyFront
  rcases hj with hj | hj
  · rw [store_before _ _ (by omega), store_before _ _ (by omega), hother]
  · have hport : 24 + (word ART_NET_PORT_REV).length ≤ j := hj
    have hmask : 20 + [255, 255, 255, (0 : UInt8)].length ≤ j := Nat.le_trans (by decide) hj
    rw [store_after _ hport, store_after _ hmask, hother]

theorem createProgReply_front (hj : j < 26) : (createProgReply heap b).1 j = progReplyFront heap b j := by
  rw [createProgReply_eq, store_before _ _ hj]

theorem createProgReply_written (hj : j < 12 ∨ 16 ≤ j ∧ j < 26) :
    (createProgReply heap b).1 j = (createProgReply heap' b).1 j := by
  rcases hj with hj | ⟨hlo, hhi⟩
  · rw [createProgReply_front (by omega), createProgReply_front (by omega),
      progReplyFront_head (by omega), progReplyFront_head (by omega), progReplyHead_written hj]
  · rcases Nat.lt_or_ge j 20 with h20 | h20
    · obtain ⟨i, rfl⟩ : ∃ i, j = 16 + i := ⟨j - 16, by omega⟩
      rw [progReply_ip heap b (by omega), progReply_ip heap' b (by omega)]
    · rw [createProgReply_front hhi, createProgReply_front hhi]
      unfold progReplyFront
      rcases Nat.lt_or_ge j 24 with h24 | h24
      · rw [store_before _ _ h24, store_before _ _ h24]
        exact store_inside _ _ h20 h24
      · exact store_inside _ _ h24 hhi

theorem createProgReply_unwritten (hj : Unwritten j) : (createProgReply heap b).1 j = heap j := by
  have hfront (hj : 12 ≤ j ∧ j < 16 ∨ 26 ≤ j) : progReplyFront heap b j = heap j := by
    rw [progReplyFront_head (by omega), progReplyHead_unwritten (by omega)]
  rcases hj with hj | ⟨hlo, _⟩
  · rw [createProgReply_front (by omega), hfront (Or.inl hj)]
  · rw [createProgReply_eq, store_after _ hlo, hfront (Or.inr (by omega))]

theorem createProgReply_status : (createProgReply heap b).1 26 =
    (heap 26 &&& 0xF7) ||| bitField (getIP^[4] b).ram.dhcpEnable 3 := by
  have hfront : progReplyFront heap b 26 = heap 26 := by
    rw [progReplyFront_head (Or.inr le_rfl), progReplyHead_unwritten (by omega)]
  rw [createProgReply_eq, copyIP_board, hfront]
  rfl

end fields

end Board

/-- Bits outside a mask do not matter under it. -/
theorem or_and_of_disjoint (z : UInt8) {c m : UInt8} (h : c &&& m = 0) :
    ((z &&& m) ||| c) &&& m = z &&& m := by
  apply eq_of_bits
  intro i hi
  have hbit := congrArg (fun u : UInt8 => u.toBitVec[i]) h
  simp only [UInt8.toBitVec_and, UInt8.toBitVec_or, BitVec.getElem_and, BitVec.getElem_or,
    UInt8.toBitVec_zero, BitVec.getElem_zero] at hbit ⊢
  revert hbit
  cases z.toBitVec[i] <;> cases c.toBitVec[i] <;> cases m.toBitVec[i] <;> simp

theorem bitField_three (v : UInt8) : bitField v 3 = 0 ∨ bitField v 3 = 8 := by
  have hone : v &&& 1 = 0 ∨ v &&& 1 = 1 := by
    rcases Nat.mod_two_eq_zero_or_one v.toNat with h | h
    · left
      apply UInt8.toNat_inj.mp
      rw [UInt8.toNat_and]
      exact (Nat.and_one_is_mod _).trans h
    · right
      apply UInt8.toNat_inj.mp
      rw [UInt8.toNat_and]
      exact (Nat.and_one_is_mod _).trans h
  unfold bitField
  rcases hone with h | h
  · left
    rw [h]
    rfl
  · right
    rw [h]
    rfl

/-- The flag is in the bit that the mask leaves out. -/
theorem status_eq_iff (x y v : UInt8) :
    (x &&& 0xF7) ||| bitField v 3 = (y &&& 0xF7) ||| bitField v 3 ↔ x &&& 0xF7 = y &&& 0xF7 := by
  have hdisjoint : bitField v 3 &&& 0xF7 = 0 := by
    rcases bitField_three v with h | h
    · rw [h]
      rfl
    · rw [h]
      rfl
  have hcleared (z : UInt8) := or_and_of_disjoint z hdisjoint
  constructor
  · intro h
    rw [← hcleared x, h, hcleared]
  · intro h
    rw [h]

theorem progReplyBytes_eq_iff (heap heap' : Bytes) (b : Board) :
    progReplyBytes heap b = progReplyBytes heap' b ↔ SameUnderReply heap heap' := by
  unfold progReplyBytes
  constructor
  · intro h
    have hbytes := eq_of_take_eq h
    constructor
    · intro j hj
      have hlt : j < PROG_REPLY_SIZE := by
        rcases hj with ⟨_, hlt⟩ | ⟨_, hlt⟩
        · exact Nat.lt_trans hlt (by decide)
        · exact hlt
      have heq := hbytes j hlt
      rwa [Board.createProgReply_unwritten hj, Board.createProgReply_unwritten hj] at heq
    · have heq := hbytes 26 (by decide)
      rwa [Board.createProgReply_status, Board.createProgReply_status, status_eq_iff] at heq
  · intro h
    apply take_congr
    intro j hj
    by_cases hstatus : j = 26
    · rw [hstatus, Board.createProgReply_status, Board.createProgReply_status, status_eq_iff]
      exact h.status
    · by_cases hunwritten : Unwritten j
      · rw [Board.createProgReply_unwritten hunwritten, Board.createProgReply_unwritten hunwritten,
          h.bytes j hunwritten]
      · apply Board.createProgReply_written
        unfold Unwritten at hunwritten
        omega

/-- What a run sends, if it gets as far as that. -/
theorem mem_sendProgReply_iff {c : Calls} {addr : UInt32} {b : Board} {bytes : List UInt8} :
    .send bytes ∈ (sendProgReplyArtnet c addr b).log ↔
      ¬ (b.artnet.enabled = false ∨ c.mallocOk = false ∨ c.pbufOk = false) ∧
        bytes = progReplyBytes c.heap b := by
  have hudp : .send bytes ∈ (sendProgReplyArtnet c addr b).log ↔
      .send bytes ∈ udp (sendProgReplyArtnet c addr b).log :=
    (mem_udp_iff.trans (and_iff_left rfl)).symm
  rw [hudp, sendProgReply_udp]
  split_ifs with hquiet
  · exact iff_of_false List.not_mem_nil fun h => h.1 hquiet
  · rw [and_iff_right hquiet]
    simp

/-- What two runs send is the same exactly when nothing is sent, or the two blocks look the
same under the reply. -/
theorem sendProgReply_same_iff (c : Calls) (heap : Bytes) (addr : UInt32) (b : Board) :
    (∀ bytes, .send bytes ∈ (sendProgReplyArtnet c addr b).log ↔
      .send bytes ∈ (sendProgReplyArtnet { c with heap := heap } addr b).log) ↔
      (b.artnet.enabled = false ∨ c.mallocOk = false ∨ c.pbufOk = false) ∨
        SameUnderReply c.heap heap := by
  by_cases hquiet : b.artnet.enabled = false ∨ c.mallocOk = false ∨ c.pbufOk = false
  · refine iff_of_true (fun bytes => ?_) (Or.inl hquiet)
    rw [mem_sendProgReply_iff, mem_sendProgReply_iff]
    exact iff_of_false (fun h => h.1 hquiet) fun h => h.1 hquiet
  · rw [or_iff_right hquiet, ← progReplyBytes_eq_iff c.heap heap b]
    constructor
    · intro h
      have hfirst := (h (progReplyBytes c.heap b)).mp (mem_sendProgReply_iff.mpr ⟨hquiet, rfl⟩)
      exact (mem_sendProgReply_iff.mp hfirst).2
    · intro h bytes
      rw [mem_sendProgReply_iff, mem_sendProgReply_iff]
      exact and_congr_right fun _ => by rw [h]

/-- A block that has held 0xAA shows in the reply, and so does one that has held 0x55. -/
theorem sendProgReply_discloses : ¬ ∀ (c : Calls) (heap : Bytes) (addr : UInt32) (b : Board)
    (bytes : List UInt8), .send bytes ∈ (sendProgReplyArtnet c addr b).log ↔
      .send bytes ∈ (sendProgReplyArtnet { c with heap := heap } addr b).log := by
  intro hall
  let c : Calls := ⟨true, true, true, fun _ => 0xAA, fun _ => 0⟩
  have hsent : .send (progReplyBytes c.heap startedNode) ∈ (sendProgReplyArtnet c 0 startedNode).log :=
    mem_sendProgReply_iff.mpr ⟨by decide, rfl⟩
  have hother := (hall c (fun _ => 0x55) 0 startedNode (progReplyBytes c.heap startedNode)).mp hsent
  have hbytes := (mem_sendProgReply_iff.mp hother).2
  have hheap := (progReplyBytes_eq_iff _ _ startedNode).mp hbytes
  exact absurd (hheap.bytes 12 (Or.inl ⟨by decide, by decide⟩)) (by decide)

end BlizzardBridge
