import BlizzardBridge.ArtnetDmx
import BlizzardBridge.ArtnetProg

/-! What datagrams leave alone. An invariant of the board that none of the writes of the
handlers breaks is an invariant of the receive callback. -/
namespace BlizzardBridge
open CArray Program

/-- The writes of the handlers: the own address in RAM, the poll reply, the name, the
programmed address, and the two ways in which the buffer is written. -/
structure Stable (I : Board → Prop) : Prop where
  getIP : ∀ b, I b → I b.getIP
  pollReply : ∀ packet b, I b → I { b with artnet := { b.artnet with pollReply := packet } }
  setName : ∀ name length b, I b → I (b.setName name length)
  program : ∀ command ip b, I b → I (b.program command ip)
  clearDMX : ∀ b, I b → I { b with dmx := clearDMX b.dmx }
  dataIn : ∀ (p : Pbuf) n b, I b → I { b with dmx := p.dataIn n b.dmx }

theorem preserves_quiet {α : Type} {x : Node α} {I : Board → Prop} (h : ∀ b, (x b).state = b) :
    Preserves I x := by
  intro b hb
  rw [h b]
  exact hb

namespace Stable
variable {I : Board → Prop} (h : Stable I) (c : Calls) (p : Pbuf) (addr : UInt32)
include h

theorem createPacketArtnetPollReply (b : Board) (hb : I b) : I b.createPacketArtnetPollReply := by
  have hasked (n : ℕ) : I (Board.getIP^[n] b) := by
    induction n with
    | zero => exact hb
    | succ n ih =>
      rw [Function.iterate_succ_apply']
      exact h.getIP _ ih
  obtain ⟨packet, hpacket⟩ := Board.createPacketArtnetPollReply_board b
  rw [hpacket]
  exact h.pollReply packet _ (hasked 4)

theorem sendPollReplyArtnet : Preserves I (sendPollReplyArtnet c addr) := by
  unfold BlizzardBridge.sendPollReplyArtnet
  refine preserves_get.bind fun enabled => ?_
  split
  · exact preserves_pure
  · refine Preserves.bind (preserves_modify h.createPacketArtnetPollReply) fun _ => ?_
    refine preserves_get.bind fun packet => ?_
    split
    · exact preserves_emit.bind fun _ => preserves_crash
    · refine preserves_emit.bind fun _ => preserves_emit.bind fun _ => ?_
      refine Preserves.bind (preserves_quiet fun b => ?_) fun payload => ?_
      · exact (ends_copyBytes (ends_readReply _ _) _ _).2
      · exact preserves_emit.bind fun _ => preserves_emit.bind fun _ => preserves_emit

theorem parseProgArtnet : Preserves I (parseProgArtnet c p addr) := by
  intro b hb
  have hprog : I (b.program (p.payload PROG_COMMAND) (p.reversed PROG_IP)) := h.program _ _ b hb
  rw [parseProg_state]
  unfold Board.replied
  split
  · exact h.getIP _ hprog
  · exact hprog

theorem parseArtAddressArtnet : Preserves I (parseArtAddressArtnet c p addr) := by
  unfold BlizzardBridge.parseArtAddressArtnet
  refine Preserves.bind (preserves_quiet fun b => (ends_readName p b _ _).2) fun _ => ?_
  refine Preserves.bind (preserves_modify (h.setName _ _)) fun _ => ?_
  refine Preserves.bind (preserves_step fun _ hb => hb) fun command => ?_
  refine Preserves.bind (fun b hb => ?_) fun _ => h.sendPollReplyArtnet c addr
  rw [(ends_addressCommand b command).2]
  split
  · exact h.clearDMX b hb
  · exact hb

theorem parseDMXDataPacketArtnet : Preserves I (parseDMXDataPacketArtnet p) := by
  intro b hb
  rw [(ends_parseDMX p b).2]
  split
  · exact h.dataIn p _ b hb
  · exact hb

theorem switchArtnet (opcode : UInt16) : Preserves I (switchArtnet c p addr opcode) := by
  unfold BlizzardBridge.switchArtnet
  refine preserves_get.bind fun direction => ?_
  split_ifs
  · exact preserves_pure
  · exact h.parseDMXDataPacketArtnet p
  · exact h.sendPollReplyArtnet c addr
  · exact preserves_pure
  · exact h.parseProgArtnet c p addr
  · exact h.parseArtAddressArtnet c p addr
  · exact preserves_pure

theorem recieveDMXArtnet : Preserves I (recieveDMXArtnet c p addr) := by
  unfold BlizzardBridge.recieveDMXArtnet
  split
  · exact preserves_pure
  · refine preserves_emit.bind fun _ => Preserves.bind ?_ fun _ => ?_
    · unfold dispatchArtnet
      refine Preserves.bind (preserves_quiet fun b => (ends_checkID p b 8 0).2) fun valid => ?_
      split
      · exact preserves_pure
      · refine Preserves.bind (preserves_step fun _ hb => hb) fun l => ?_
        refine Preserves.bind (preserves_step fun _ hb => hb) fun _ => ?_
        exact h.switchArtnet c p addr _
    · exact preserves_emit.bind fun _ => preserves_emit

end Stable

end BlizzardBridge
