import BlizzardBridge.ArtnetSpec

/-! The receive callback as a whole: which handler a datagram reaches, and what the
callback leaves. -/
namespace BlizzardBridge
open CArray Program

section callback
variable (c : Calls) (p : Pbuf) (addr : UInt32) (b : Board)

theorem recieve_drops (hmutex : c.mutexTaken = false) : recieveDMXArtnet c p addr = pure () := by
  unfold recieveDMXArtnet
  rw [hmutex]
  rfl

theorem dispatch_drops (hid : ¬ p.HasID 8 0) :
    (dispatchArtnet c p addr b).state = b ∧ (dispatchArtnet c p addr b).val = some () := by
  unfold dispatchArtnet
  rw [bind_of_ends (ends_checkID p b 8 0), decide_eq_false hid]
  exact ⟨rfl, rfl⟩

theorem dispatch_state (hid : p.HasID 8 0) :
    (dispatchArtnet c p addr b).state = (switchArtnet c p addr p.opcode b).state := by
  unfold dispatchArtnet
  rw [bind_of_ends (ends_checkID p b 8 0), decide_eq_true hid]
  rfl

/-- What follows the handler frees the datagram and gives the mutex back. -/
theorem recieve_state (hmutex : c.mutexTaken = true) (hid : p.HasID 8 0) :
    (recieveDMXArtnet c p addr b).state = (switchArtnet c p addr p.opcode b).state := by
  rw [← dispatch_state c p addr b hid]
  unfold recieveDMXArtnet
  rw [hmutex]
  change ((dispatchArtnet c p addr >>= _) b).state = _
  apply state_bind_left
  intro _ b' _
  rfl

theorem switch_dmx (hdir : b.artnet.direction = .receive) :
    (switchArtnet c p addr ART_OP_DMX b).state = (parseDMXDataPacketArtnet p b).state := by
  unfold switchArtnet
  rw [bind_of_ends (x := get _) ends_step, hdir]
  rfl

end callback

end BlizzardBridge
