import BlizzardBridge.ArtnetEnabled
import BlizzardBridge.ProgReplyLeak

/-! Several nodes on one network. What a node has sent may come to any node, also to itself,
late, in any order and any number of times; what other senders make up comes besides. -/
namespace BlizzardBridge
open CArray Program EventMachine

/-- The datagrams that go out, in order. -/
def sends (log : List Access) : List (List UInt8) :=
  log.filterMap fun | .send bytes => some bytes | _ => none

theorem mem_sends {log : List Access} {bytes : List UInt8} : bytes ∈ sends log ↔ .send bytes ∈ log := by
  unfold sends
  rw [List.mem_filterMap]
  constructor
  · rintro ⟨e, he, hbytes⟩
    cases e <;> cases hbytes
    exact he
  · intro h
    exact ⟨.send bytes, h, rfl⟩

theorem sends_udp (log : List Access) : sends (udp log) = sends log := by
  unfold sends udp
  rw [List.filterMap_filter]
  congr
  funext e
  cases e <;> rfl

/-- One datagram has one answer at most. -/
theorem sends_le_of_oneSend {addr : UInt32} {log : List Access} (h : OneSend addr (udp log)) :
    (sends log).length ≤ 1 := by
  rw [← sends_udp]
  rcases h with h | h | ⟨bytes, h⟩
  · rw [h]
    exact Nat.zero_le 1
  · rw [h]
    exact Nat.zero_le 1
  · rw [h]
    exact Nat.le_refl 1

/-- The identifier and the opcode, with which every packet starts. -/
def artHead (op : UInt16) : Bytes := store (store (fun _ => 0) 0 (take ARTNET_ID 8)) 8 (word op)

/-- The bytes of one of the two replies. -/
def IsReply (bytes : List UInt8) : Prop :=
  ∃ op a n, (op = ART_OP_POLL_REPLY ∨ op = ART_OP_PROG_REPLY) ∧ bytes = take a n ∧ 10 ≤ n ∧
    ∀ i < 10, a i = artHead op i

theorem head_written (heap : Bytes) (op : UInt16) {j : ℕ} (hj : j < 10) :
    store (store heap 0 (take ARTNET_ID 8)) 8 (word op) j = artHead op j := by
  unfold artHead
  rcases Nat.lt_or_ge j 8 with h8 | h8
  · rw [store_before _ _ h8, store_before _ _ h8]
    exact store_inside _ _ (Nat.zero_le j) (by rw [length_take]; omega)
  · have hword : (word op).length = 2 := rfl
    exact store_inside _ _ h8 (by rw [hword]; omega)

theorem isReply_poll (b : Board) : IsReply (pollReplyBytes b) := by
  refine ⟨ART_OP_POLL_REPLY, _, _, Or.inl rfl, rfl, by unfold POLL_REPLY_SIZE; omega, ?_⟩
  intro i hi
  change Board.pollReplyFields (Board.copyIP (10 + ·) 4 (_, b)).1 _ i = _
  rw [Board.pollReplyFields_before _ _ (by omega), Board.copyIP_other 4 (_, b) (fun k _ => by omega)]
  exact head_written _ _ hi

theorem isReply_prog (heap : Bytes) (b : Board) : IsReply (progReplyBytes heap b) := by
  refine ⟨ART_OP_PROG_REPLY, _, _, Or.inr rfl, rfl, by unfold PROG_REPLY_SIZE; omega, ?_⟩
  intro i hi
  rw [Board.createProgReply_front (by omega), Board.progReplyFront_head (by omega)]
  unfold Board.progReplyHead
  rw [store_before _ _ hi]
  exact head_written _ _ hi

/-- A node takes its replies for the replies that they are. -/
theorem opcode_of_isReply {p : Pbuf} (h : IsReply (take p.payload p.len)) :
    p.HasID 8 0 ∧ (p.opcode = ART_OP_POLL_REPLY ∨ p.opcode = ART_OP_PROG_REPLY) := by
  obtain ⟨op, a, n, hop, hbytes, hn, ha⟩ := h
  have hbyte (i : ℕ) (hi : i < 10) : p.payload i = artHead op i := by
    rw [eq_of_take_eq hbytes i (by omega), ha i hi]
  constructor
  · intro i hi
    rw [Nat.zero_add, hbyte i (by omega), artHead, store_before _ _ hi]
    have hid := store_take (fun _ => 0) ARTNET_ID 0 hi
    rwa [Nat.zero_add] at hid
  · rcases hop with rfl | rfl
    · left
      rw [Pbuf.opcode, hbyte 8 (by omega), hbyte 9 (by omega)]
      decide
    · right
      rw [Pbuf.opcode, hbyte 8 (by omega), hbyte 9 (by omega)]
      decide

section callback
variable (c : Calls) (p : Pbuf) (addr : UInt32) (b : Board)

theorem parseArtAddress_udp : ∃ b', udp (parseArtAddressArtnet c p addr b).log =
    udp (sendPollReplyArtnet c addr b').log := by
  have hread : ∀ i, (Access.readPayload i).isUdp = false := fun _ => rfl
  have hwrite : ∀ i, (Access.writeDmx i).isUdp = false := fun _ => rfl
  unfold parseArtAddressArtnet
  rw [udp_bind (ends_readName p b _ _) (logs_readName hread p b _ _),
    udp_bind (x := modify _) ends_step (logs_step.mpr nofun),
    udp_bind (x := readPayload p ADDRESS_COMMAND) ends_step (logs_readPayload.mpr rfl),
    udp_bind (ends_addressCommand _ _) (logs_addressCommand hwrite _ _)]
  exact ⟨_, rfl⟩

/-- On the connection the callback does what the handler of the datagram does. -/
theorem recieve_udp : udp (recieveDMXArtnet c p addr b).log =
    if c.mutexTaken = true ∧ p.HasID 8 0 then udp (switchArtnet c p addr p.opcode b).log else [] := by
  cases hmutex : c.mutexTaken with
  | false =>
    rw [recieve_drops c p addr hmutex, if_neg nofun]
    rfl
  | true =>
    have hrest : udp (recieveDMXArtnet c p addr b).log = udp (dispatchArtnet c p addr b).log := by
      unfold recieveDMXArtnet
      rw [hmutex, if_neg (by decide), log_emit_bind, udp_cons_other rfl]
      apply udp_bind_left
      intro _ b' _
      rfl
    rw [hrest]
    unfold dispatchArtnet
    rw [udp_bind (ends_checkID p b 8 0) (logs_checkID (fun _ => rfl) p b 8 0)]
    by_cases hid : p.HasID 8 0
    · have hvalid : true = true ∧ p.HasID 8 0 := ⟨rfl, hid⟩
      rw [if_pos hvalid, decide_eq_true hid, if_neg (by decide),
        udp_bind (x := readPayload p 8) ends_step (logs_readPayload.mpr rfl),
        udp_bind (x := readPayload p 9) ends_step (logs_readPayload.mpr rfl)]
      rfl
    · have hvalid : ¬ (true = true ∧ p.HasID 8 0) := fun h => hid h.2
      rw [if_neg hvalid, decide_eq_false hid]
      rfl

/-- Among the opcodes that the node sends there is none that it answers. -/
theorem switch_quiet {op : UInt16}
    (hop : op = ART_OP_DMX ∨ op = ART_OP_POLL_REPLY ∨ op = ART_OP_PROG_REPLY) :
    udp (switchArtnet c p addr op b).log = [] := by
  unfold switchArtnet
  rw [log_get_bind]
  rcases hop with rfl | rfl | rfl
  · rw [if_pos rfl]
    split_ifs
    · rfl
    · exact udp_of_logs (logs_parseDMX (fun _ => rfl) (fun _ => rfl) p b)
  · rfl
  · rfl

/-- The callback sends replies only. -/
theorem isReply_of_recieve {bytes : List UInt8} (h : .send bytes ∈ (recieveDMXArtnet c p addr b).log) :
    IsReply bytes := by
  have hpoll (b' : Board) (hsend : .send bytes ∈ udp (sendPollReplyArtnet c addr b').log) :
      IsReply bytes := by
    rw [sendPollReply_udp] at hsend
    split_ifs at hsend
    · exact absurd hsend List.not_mem_nil
    · simp at hsend
    · have hbytes : bytes = pollReplyBytes b' := by simpa using hsend
      rw [hbytes]
      exact isReply_poll b'
  have hudp := mem_udp_iff.mpr ⟨h, rfl⟩
  rw [recieve_udp] at hudp
  split_ifs at hudp with hvalid
  · unfold switchArtnet at hudp
    rw [log_get_bind] at hudp
    split_ifs at hudp with hdmx hdir hask hreply hprog haddress
    · exact absurd hudp List.not_mem_nil
    · rw [udp_of_logs (logs_parseDMX (fun _ => rfl) (fun _ => rfl) p b)] at hudp
      exact absurd hudp List.not_mem_nil
    · exact hpoll b hudp
    · exact absurd hudp List.not_mem_nil
    · rw [parseProg_udp] at hudp
      rw [sendProgReply_sends (mem_udp_iff.mp hudp).1]
      exact isReply_prog c.heap _
    · obtain ⟨b', hb'⟩ := parseArtAddress_udp c p addr b
      rw [hb'] at hudp
      exact hpoll b' hudp
    · exact absurd hudp List.not_mem_nil
  · exact absurd hudp List.not_mem_nil

end callback

/-- A datagram with the node that has sent it, as that node was at the time. -/
structure Datagram (ι : Type) where
  sender : ι
  device : Device
  bytes : List UInt8

/-- The nodes, with what they have sent so far. -/
structure Network (ι : Type) where
  node : ι → NodeLife
  sent : List (Datagram ι)

inductive NetEvent (ι : Type) where
  -- a call at a node; the datagrams that come in here are from elsewhere
  | call (i : ι) (e : LifeEvent)
  -- a datagram that a node has sent comes in
  | deliver (i : ι) (c : Calls) (p : Pbuf) (addr : UInt32)
  -- the other tasks of a node write the configuration and the buffer
  | tasks (i : ι) (b : Board)

/-- The sending task gets to its next frame, or a datagram comes from elsewhere. -/
def NetEvent.causes {ι : Type} : NetEvent ι → Bool
  | .call _ (.recieveDMXArtnet _ _ _) => true
  | .call _ (.sendDMXDataArtnet _ _) => true
  | _ => false

/-- Not a datagram from elsewhere. -/
def NetEvent.Own {ι : Type} : NetEvent ι → Prop
  | .call _ (.recieveDMXArtnet _ _ _) => False
  | _ => True

/-- A reply, or the buffer of the sender under the header for its own universe. -/
def Datagram.Proper {ι : Type} (m : Datagram ι) : Prop :=
  IsReply m.bytes ∨ m.device.packet.Made ∧ m.bytes =
    take (m.device.setUniverse m.device.board.ram.ownUniverse).payloadAt MAX_ARTNET_BUFFER

namespace NodeLife

def withBoard (s : NodeLife) (b : Board) : NodeLife := { s with device := { s.device with board := b } }

/-- The slots of the sender's buffer come under the start byte of the own one. -/
def withSlots (s : NodeLife) (dmx : Bytes) : NodeLife :=
  s.withBoard { s.device.board with
    dmx := fun k => if 1 ≤ k ∧ k ≤ 512 then dmx k else s.device.board.dmx k }

section events
variable {s : NodeLife}

theorem made_step (h : s.enabled = true → s.device.packet.Made) (e : LifeEvent) :
    (s.step e).1.enabled = true → (s.step e).1.device.packet.Made := by
  intro hon
  cases e with
  | startDMXArtnet dir =>
    rw [step_start]
    exact made_startDMXArtnet s.device dir
  | stopDMXArtnet => exact absurd hon Bool.false_ne_true
  | changeDirectionArtnet dir =>
    have hpacket : (s.device.changeDirectionArtnet dir).packet = s.device.packet := by
      unfold Device.changeDirectionArtnet
      split <;> rfl
    have hwas := (enabled_step s _).mp hon
    change (s.device.changeDirectionArtnet dir).packet.Made
    rw [hpacket]
    exact h (hwas.resolve_left nofun).1
  | recieveDMXArtnet c p addr =>
    have hwas := (enabled_step s _).mp hon
    have hmade := h (hwas.resolve_left nofun).1
    by_cases hreg : s.registered = true
    · rw [step_recieve_registered s c p addr hreg]
      exact hmade
    · rw [step_recieve_early s c p addr hreg]
      exact hmade
  | sendDMXDataArtnet c dest =>
    have hwas := (enabled_step s _).mp hon
    exact made_send c dest _ s.device (h (hwas.resolve_left nofun).1)

/-- What goes out at one event. -/
theorem proper_step (h : s.enabled = true → s.device.packet.Made) {e : LifeEvent} {bytes : List UInt8}
    (hsend : bytes ∈ sends (s.step e).2) {ι : Type} (i : ι) : (Datagram.mk i s.device bytes).Proper := by
  rw [mem_sends] at hsend
  cases e with
  | startDMXArtnet dir => exact absurd hsend List.not_mem_nil
  | stopDMXArtnet => exact absurd hsend List.not_mem_nil
  | changeDirectionArtnet dir => exact absurd hsend List.not_mem_nil
  | recieveDMXArtnet c p addr =>
    by_cases hreg : s.registered = true
    · rw [step_recieve_registered s c p addr hreg] at hsend
      exact Or.inl (isReply_of_recieve c p addr _ hsend)
    · rw [step_recieve_early s c p addr hreg] at hsend
      exact absurd hsend List.not_mem_nil
  | sendDMXDataArtnet c dest =>
    have hon : s.enabled = true := by
      by_contra hoff
      exact silent_step (Bool.not_eq_true _ ▸ hoff) (.sendDMXDataArtnet c dest) bytes hsend
    exact Or.inr ⟨h hon, sendDMXData_sends c dest _ s.device hsend⟩

/-- One send at most, and none but by the sending task and for a datagram. -/
theorem sends_step_le (e : LifeEvent) {ι : Type} (i : ι) :
    (sends (s.step e).2).length ≤ if (NetEvent.call i e).causes then 1 else 0 := by
  cases e with
  | startDMXArtnet dir => exact Nat.le_refl 0
  | stopDMXArtnet => exact Nat.le_refl 0
  | changeDirectionArtnet dir => exact Nat.le_refl 0
  | recieveDMXArtnet c p addr =>
    change _ ≤ 1
    by_cases hreg : s.registered = true
    · rw [step_recieve_registered s c p addr hreg]
      exact sends_le_of_oneSend (recieve_answers c p addr s.device.board).1
    · rw [step_recieve_early s c p addr hreg]
      exact Nat.zero_le 1
  | sendDMXDataArtnet c dest =>
    change (sends (BlizzardBridge.sendDMXDataArtnet c dest _ s.device).log).length ≤ 1
    rw [← sends_udp, sendDMXData_udp]
    split_ifs
    · exact Nat.zero_le 1
    · exact Nat.zero_le 1
    · exact Nat.le_refl 1

end events

/-- The slots of a datagram go to the buffer: it is an ArtDmx whose universe is the own one as
far as the node looks at it, and the node is turned to RECEIVE. -/
structure Takes (s : NodeLife) (c : Calls) (p : Pbuf) : Prop where
  registered : s.registered = true
  mutex : c.mutexTaken = true
  direction : s.device.board.artnet.direction = .receive
  opcode : p.opcode = ART_OP_DMX
  heard : p.universeSeen = s.device.board.ram.ownUniverse.toNat

section own
variable (s : NodeLife) (c : Calls) (p : Pbuf) (addr : UInt32) {ι : Type} {m : Datagram ι}

theorem opcode_of_proper (hm : m.Proper) (hbytes : take p.payload p.len = m.bytes) : p.HasID 8 0 ∧
    (p.opcode = ART_OP_DMX ∨ p.opcode = ART_OP_POLL_REPLY ∨ p.opcode = ART_OP_PROG_REPLY) := by
  rcases hm with hreply | ⟨hmade, hdmx⟩
  · rw [← hbytes] at hreply
    obtain ⟨hid, hop⟩ := opcode_of_isReply hreply
    exact ⟨hid, Or.inr hop⟩
  · have hcarries := carries_of_payload hmade (eq_of_take_eq (hbytes.trans hdmx))
    exact ⟨hcarries.hasID, Or.inl hcarries.opcode⟩

/-- An ArtDmx of the network carries the buffer of its sender. -/
theorem carries_of_proper (hm : m.Proper) (hbytes : take p.payload p.len = m.bytes)
    (hop : p.opcode = ART_OP_DMX) : p.Carries m.device m.device.board.ram.ownUniverse := by
  rcases hm with hreply | ⟨hmade, hdmx⟩
  · rw [← hbytes] at hreply
    rcases (opcode_of_isReply hreply).2 with h | h
    · exact absurd (hop.symm.trans h) (by decide)
    · exact absurd (hop.symm.trans h) (by decide)
  · exact carries_of_payload hmade (eq_of_take_eq (hbytes.trans hdmx))

/-- No node answers what a node has sent. -/
theorem own_quiet (hm : m.Proper) (hbytes : take p.payload p.len = m.bytes) :
    sends (s.step (.recieveDMXArtnet c p addr)).2 = [] := by
  by_cases hreg : s.registered = true
  · rw [step_recieve_registered s c p addr hreg, ← sends_udp, recieve_udp]
    split_ifs
    · rw [switch_quiet c p addr _ (opcode_of_proper p hm hbytes).2]
      rfl
    · rfl
  · rw [step_recieve_early s c p addr hreg]
    rfl

theorem own_takes (hm : m.Proper) (hbytes : take p.payload p.len = m.bytes) (htakes : s.Takes c p) :
    (s.step (.recieveDMXArtnet c p addr)).1 = s.withSlots m.device.board.dmx := by
  have hcarries := carries_of_proper p hm hbytes htakes.opcode
  have hdata : p.dataIn 512 s.device.board.dmx = fun k =>
      if 1 ≤ k ∧ k ≤ 512 then m.device.board.dmx k else s.device.board.dmx k := by
    funext k
    rw [dataIn_apply]
    by_cases hk : 1 ≤ k ∧ k ≤ 512
    · rw [if_pos hk, if_pos hk, hcarries.data k hk.1 hk.2]
    · rw [if_neg hk, if_neg hk]
  have hstate : (BlizzardBridge.recieveDMXArtnet c p addr s.device.board).state =
      { s.device.board with dmx := p.dataIn 512 s.device.board.dmx } := by
    rw [recieve_state c p addr _ htakes.mutex hcarries.hasID, htakes.opcode,
      switch_dmx c p addr _ htakes.direction, (ends_parseDMX p _).2, if_pos htakes.heard,
      hcarries.slotsSeen]
  rw [step_recieve_registered s c p addr htakes.registered, hstate, hdata]
  rfl

theorem own_leaves (hm : m.Proper) (hbytes : take p.payload p.len = m.bytes)
    (htakes : ¬ s.Takes c p) : (s.step (.recieveDMXArtnet c p addr)).1 = s := by
  by_cases hreg : s.registered = true
  · have hsame : (BlizzardBridge.recieveDMXArtnet c p addr s.device.board).state = s.device.board := by
      apply recieve_unchanged
      intro hmutex hid
      rcases (opcode_of_proper p hm hbytes).2 with hop | hop | hop
      · by_cases hdir : s.device.board.artnet.direction = .receive
        · have hheard : ¬ p.universeSeen = s.device.board.ram.ownUniverse.toNat :=
            fun h => htakes ⟨hreg, hmutex, hdir, hop, h⟩
          rw [hop, switch_dmx c p addr _ hdir, (ends_parseDMX p _).2, if_neg hheard]
        · exact switch_ignores_dmx c p addr _ hop hdir
      · rw [hop]
        rfl
      · rw [hop]
        rfl
    rw [step_recieve_registered s c p addr hreg, hsame]
  · rw [step_recieve_early s c p addr hreg]

end own

end NodeLife

namespace Network
variable {ι : Type} [DecidableEq ι]

/-- An event at one node; what it sends is on the network from then on. -/
def atNode (s : Network ι) (i : ι) (e : LifeEvent) : Network ι × List (Datagram ι) :=
  let r := (s.node i).step e
  let out := (sends r.2).map (Datagram.mk i (s.node i).device)
  (⟨Function.update s.node i r.1, s.sent ++ out⟩, out)

def step (s : Network ι) : NetEvent ι → Network ι × List (Datagram ι)
  | .call i e => s.atNode i e
  | .deliver i c p addr =>
    -- only what has been sent comes in this way
    if s.sent.any fun m => m.bytes = take p.payload p.len then s.atNode i (.recieveDMXArtnet c p addr)
    else (s, [])
  | .tasks i b =>
    let b' := { b with artnet := (s.node i).device.board.artnet }
    (⟨Function.update s.node i ((s.node i).withBoard b'), s.sent⟩, [])

/-- None of the nodes has been started. -/
def boot (d : ι → Device) : Network ι := ⟨fun i => NodeLife.boot (d i), []⟩

structure Inv (s : Network ι) : Prop where
  made : ∀ i, (s.node i).enabled = true → (s.node i).device.packet.Made
  proper : ∀ m ∈ s.sent, m.Proper

section run
variable {s : Network ι}

omit [DecidableEq ι] in
theorem inv_boot (d : ι → Device) : (boot d).Inv := ⟨fun _ => nofun, fun _ => nofun⟩

theorem inv_atNode (h : s.Inv) (i : ι) (e : LifeEvent) : (s.atNode i e).1.Inv := by
  constructor
  · intro j
    change (Function.update s.node i _ j).enabled = true → (Function.update s.node i _ j).device.packet.Made
    by_cases hj : j = i
    · rw [hj, Function.update_self]
      exact NodeLife.made_step (h.made i) e
    · rw [Function.update_of_ne hj]
      exact h.made j
  · intro m hm
    rcases List.mem_append.mp hm with hm | hm
    · exact h.proper m hm
    · obtain ⟨bytes, hbytes, rfl⟩ := List.mem_map.mp hm
      exact NodeLife.proper_step (h.made i) hbytes i

theorem inv_step (e : NetEvent ι) (h : s.Inv) : (s.step e).1.Inv := by
  cases e with
  | call i e => exact inv_atNode h i e
  | deliver i c p addr =>
    change (if _ then _ else _ : Network ι × List (Datagram ι)).1.Inv
    split
    · exact inv_atNode h i _
    · exact h
  | tasks i b =>
    refine ⟨fun j => ?_, h.proper⟩
    change (Function.update s.node i _ j).enabled = true → (Function.update s.node i _ j).device.packet.Made
    by_cases hj : j = i
    · rw [hj, Function.update_self]
      exact h.made i
    · rw [Function.update_of_ne hj]
      exact h.made j

theorem inv_exec (d : ι → Device) (es : List (NetEvent ι)) : (exec step (boot d) es).Inv :=
  exec_invariant (C := fun _ _ => True) (fun _ e h _ => inv_step e h) (inv_boot d)
    (along_of_forall (fun _ _ => trivial) _ es)

end run

/-- Whatever has happened before, a datagram of the network that comes to a node has no answer.
A node that takes it has the slots of its sender at the time of the send; any other node
stays as it is. -/
theorem deliver_sent (d : ι → Device) (es : List (NetEvent ι)) (i : ι) (c : Calls) (p : Pbuf)
    (addr : UInt32) (m : Datagram ι) (hm : m ∈ (exec step (boot d) es).sent)
    (hbytes : take p.payload p.len = m.bytes) :
    let s := exec step (boot d) es
    let r := s.step (.deliver i c p addr)
    r.2 = [] ∧ r.1.sent = s.sent ∧ (∀ j, j ≠ i → r.1.node j = s.node j) ∧
      ((s.node i).Takes c p → r.1.node i = (s.node i).withSlots m.device.board.dmx) ∧
      (¬ (s.node i).Takes c p → r.1.node i = s.node i) := by
  intro s r
  have hproper : m.Proper := (inv_exec d es).proper m hm
  have hknown : (s.sent.any fun m => m.bytes = take p.payload p.len) = true :=
    List.any_eq_true.mpr ⟨m, hm, decide_eq_true hbytes.symm⟩
  have hr : r = s.atNode i (.recieveDMXArtnet c p addr) := if_pos hknown
  have hquiet := (s.node i).own_quiet c p addr hproper hbytes
  have hout : r.2 = [] := by
    rw [hr, atNode, hquiet]
    rfl
  have hnode : r.1.node = Function.update s.node i ((s.node i).step (.recieveDMXArtnet c p addr)).1 := by
    rw [hr, atNode]
  refine ⟨hout, ?_, fun j hj => ?_, fun htakes => ?_, fun htakes => ?_⟩
  · rw [hr, atNode, hquiet]
    exact List.append_nil _
  · rw [hnode, Function.update_of_ne hj]
  · rw [hnode, Function.update_self]
    exact (s.node i).own_takes c p addr hproper hbytes htakes
  · rw [hnode, Function.update_self]
    exact (s.node i).own_leaves c p addr hproper hbytes htakes

omit [DecidableEq ι] in
theorem sends_frame (d : Device) (u : UInt16) (hon : d.board.artnet.enabled = true) :
    Access.send (take (sentBy d u).payload (sentBy d u).len) ∈ (sendDMXDataArtnet allCalls 0 u d).log := by
  rw [sendDMXData_log allCalls 0 u d hon rfl]
  exact List.mem_cons_of_mem _ List.mem_cons_self

/-- A node that listens takes the first frame of a second one, which sends the value 10. -/
theorem deliver_sent_second :
    let d : Bool → Device := fun j => if j then tenSender else zeroDevice
    let es : List (NetEvent Bool) := [.call false (.startDMXArtnet .receive),
      .call true (.startDMXArtnet .send), .call true (.sendDMXDataArtnet allCalls 0)]
    let s := exec step (boot d) es
    ∃ p, let r := s.step (.deliver false allCalls p 0)
      r.2 = [] ∧ r.1.sent = s.sent ∧ r.1.node true = s.node true ∧
        r.1.node false = (s.node false).withSlots fun _ => 10 := by
  intro d es s
  let started : Network Bool := exec step (boot d)
    [.call false (.startDMXArtnet .receive), .call true (.startDMXArtnet .send)]
  let sender := (started.node true).device
  let p := sentBy sender sender.board.ram.ownUniverse
  have hsend : take p.payload p.len ∈ sends ((started.node true).step (.sendDMXDataArtnet allCalls 0)).2 :=
    mem_sends.mpr (sends_frame sender sender.board.ram.ownUniverse rfl)
  let m := Datagram.mk true sender (take p.payload p.len)
  have hm : m ∈ s.sent := by
    change _ ∈ started.sent ++ _
    exact List.mem_append_right _ (List.mem_map_of_mem hsend)
  have htakes : (s.node false).Takes allCalls p := ⟨rfl, rfl, rfl, by decide, by decide⟩
  have hdeliver := deliver_sent d es false allCalls p 0 m hm (by dsimp only [m])
  -- the state is a name from here on, so that nothing evaluates it
  have hs : exec step (boot d) es = s := rfl
  rw [hs] at hdeliver
  clear_value s
  obtain ⟨hquiet, hsent, hother, htake, -⟩ := hdeliver
  exact ⟨p, hquiet, hsent, hother true (by decide), htake htakes⟩

/-- There are never more datagrams than turns of the sending tasks and datagrams from elsewhere. -/
theorem sent_le_causes (d : ι → Device) (es : List (NetEvent ι)) :
    (exec step (boot d) es).sent.length ≤ es.countP NetEvent.causes := by
  have hnode (s : Network ι) (i : ι) (e : LifeEvent) : (s.atNode i e).1.sent.length ≤
      s.sent.length + if (NetEvent.call i e).causes then 1 else 0 := by
    change (s.sent ++ _).length ≤ _
    rw [List.length_append, List.length_map]
    exact Nat.add_le_add_left (NodeLife.sends_step_le e i) _
  have hstep (s : Network ι) (e : NetEvent ι) (h : s.Inv) :
      (s.step e).1.sent.length ≤ s.sent.length + if e.causes then 1 else 0 := by
    cases e with
    | call i e => exact hnode s i e
    | deliver i c p addr =>
      change (if _ then _ else _ : Network ι × List (Datagram ι)).1.sent.length ≤ s.sent.length + 0
      split
      · rename_i hknown
        obtain ⟨m, hm, hbytes⟩ := List.any_eq_true.mp hknown
        have hquiet := (s.node i).own_quiet c p addr (h.proper m hm) (of_decide_eq_true hbytes).symm
        rw [atNode, hquiet]
        exact (congrArg List.length (List.append_nil s.sent)).le
      · exact Nat.le_refl _
    | tasks i b => exact Nat.le_refl _
  suffices h : ∀ s : Network ι, s.Inv →
      (exec step s es).sent.length ≤ s.sent.length + es.countP NetEvent.causes by
    have hboot := h (boot d) (inv_boot d)
    change _ ≤ 0 + _ at hboot
    rwa [Nat.zero_add] at hboot
  induction es with
  | nil => exact fun s _ => Nat.le_refl _
  | cons e es ih =>
    intro s hs
    calc (exec step s (e :: es)).sent.length
        ≤ (s.step e).1.sent.length + es.countP NetEvent.causes := ih _ (inv_step e hs)
      _ ≤ s.sent.length + (if e.causes then 1 else 0) + es.countP NetEvent.causes :=
        Nat.add_le_add_right (hstep s e hs) _
      _ = s.sent.length + (e :: es).countP NetEvent.causes := by
        rw [List.countP_cons]
        omega

/-- Every slot that a node has, or has had when it sent, holds one of the values `O` for the slot. -/
structure From (O : ℕ → UInt8 → Prop) (s : Network ι) : Prop where
  inv : s.Inv
  node : ∀ i k, O k ((s.node i).device.board.dmx k)
  sent : ∀ m ∈ s.sent, ∀ k, O k (m.device.board.dmx k)

section origin
variable {O : ℕ → UInt8 → Prop} {s : Network ι}

omit [DecidableEq ι] in
/-- A call that is no reception leaves the buffer as it is. -/
theorem call_dmx (s : NodeLife) (i : ι) {e : LifeEvent} (hown : (NetEvent.call i e).Own) :
    (s.step e).1.device.board.dmx = s.device.board.dmx := by
  have hip (b : Board) : b.getIP.dmx = b.dmx := by
    change (Board.getAddress ipAddressVar b).dmx = b.dmx
    unfold Board.getAddress
    split <;> rfl
  have hasked (n : ℕ) (b : Board) : (Board.getIP^[n] b).dmx = b.dmx := by
    induction n with
    | zero => rfl
    | succ n ih => rw [Function.iterate_succ_apply', hip, ih]
  cases e with
  | startDMXArtnet dir =>
    have hreply (b : Board) : b.createPacketArtnetPollReply.dmx = b.dmx := by
      obtain ⟨packet, hpacket⟩ := b.createPacketArtnetPollReply_board
      rw [hpacket]
      exact hasked 4 b
    rw [NodeLife.step_start]
    unfold Device.startDMXArtnet
    rw [hreply]
    split <;> rfl
  | stopDMXArtnet => rfl
  | changeDirectionArtnet dir =>
    change (s.device.changeDirectionArtnet dir).board.dmx = _
    unfold Device.changeDirectionArtnet
    split <;> rfl
  | recieveDMXArtnet c p addr => exact absurd hown id
  | sendDMXDataArtnet c dest =>
    exact congrArg Board.dmx (sendDMXData_board c dest s.device.board.ram.ownUniverse s.device)

/-- The rule for one node: its buffer keeps to the values, and so does what it has sent. -/
theorem from_atNode (h : s.From O) (i : ι) (e : LifeEvent)
    (hnode : ∀ k, O k (((s.node i).step e).1.device.board.dmx k)) : (s.atNode i e).1.From O := by
  refine ⟨inv_atNode h.inv i e, fun j k => ?_, fun m hm k => ?_⟩
  · change O k ((Function.update s.node i _ j).device.board.dmx k)
    by_cases hj : j = i
    · rw [hj, Function.update_self]
      exact hnode k
    · rw [Function.update_of_ne hj]
      exact h.node j k
  · rcases List.mem_append.mp hm with hm | hm
    · exact h.sent m hm k
    · obtain ⟨bytes, _, rfl⟩ := List.mem_map.mp hm
      exact h.node i k

theorem from_step (h : s.From O) {e : NetEvent ι} (hown : e.Own)
    (htasks : ∀ i b, e = .tasks i b → ∀ k, O k (b.dmx k)) : (s.step e).1.From O := by
  cases e with
  | call i e =>
    apply from_atNode h
    intro k
    rw [call_dmx (s.node i) i hown]
    exact h.node i k
  | deliver i c p addr =>
    change (if _ then _ else _ : Network ι × List (Datagram ι)).1.From O
    split
    · rename_i hknown
      obtain ⟨m, hm, hbytes⟩ := List.any_eq_true.mp hknown
      have hbytes : take p.payload p.len = m.bytes := (of_decide_eq_true hbytes).symm
      apply from_atNode h
      intro k
      by_cases htakes : (s.node i).Takes c p
      · rw [(s.node i).own_takes c p addr (h.inv.proper m hm) hbytes htakes]
        change O k (if 1 ≤ k ∧ k ≤ 512 then m.device.board.dmx k else (s.node i).device.board.dmx k)
        split
        · exact h.sent m hm k
        · exact h.node i k
      · rw [(s.node i).own_leaves c p addr (h.inv.proper m hm) hbytes htakes]
        exact h.node i k
    · exact h
  | tasks i b =>
    refine ⟨inv_step _ h.inv, fun j k => ?_, h.sent⟩
    change O k ((Function.update s.node i _ j).device.board.dmx k)
    by_cases hj : j = i
    · rw [hj, Function.update_self]
      exact htasks i b rfl k
    · rw [Function.update_of_ne hj]
      exact h.node j k

end origin

/-- As long as nothing comes in from elsewhere, what a slot holds at any node was in this slot
of some node at the start, or a task has put it there. -/
theorem slot_origin (d : ι → Device) (es : List (NetEvent ι)) (hown : ∀ e ∈ es, e.Own) (i : ι) (k : ℕ) :
    let v := ((exec step (boot d) es).node i).device.board.dmx k
    (∃ j, v = (d j).board.dmx k) ∨ ∃ j b, .tasks j b ∈ es ∧ v = b.dmx k := by
  let O : ℕ → UInt8 → Prop := fun k v =>
    (∃ j, v = (d j).board.dmx k) ∨ ∃ j b, NetEvent.tasks j b ∈ es ∧ v = b.dmx k
  have hboot : (boot d).From O := ⟨inv_boot d, fun j _ => Or.inl ⟨j, rfl⟩, fun _ => nofun⟩
  have hmem : Along step (fun _ e => e ∈ es) (boot d) es := along_of_mem (fun e he _ => he) (boot d)
  have hrun : (exec step (boot d) es).From O := by
    refine exec_invariant (fun s e h he => ?_) hboot hmem
    apply from_step h (hown e he)
    intro j b htasks k
    exact Or.inr ⟨j, b, htasks ▸ he, rfl⟩
  exact hrun.node i k

/-- A sender with the value 10 and a second node that starts to listen. -/
theorem slot_origin_ten :
    let d : Bool → Device := fun j => if j then tenSender else zeroDevice
    let es : List (NetEvent Bool) := [.call true (.startDMXArtnet .send),
      .call false (.startDMXArtnet .receive), .call true (.sendDMXDataArtnet allCalls 0),
      .deliver false allCalls (sentBy tenSender 0) 0]
    let v := ((exec step (boot d) es).node false).device.board.dmx 1
    (∃ j, v = (d j).board.dmx 1) ∨ ∃ j b, .tasks j b ∈ es ∧ v = b.dmx 1 := by
  intro d es
  apply slot_origin
  intro e he
  simp only [es, List.mem_cons, List.not_mem_nil, or_false] at he
  rcases he with rfl | rfl | rfl | rfl <;> trivial

end Network

end BlizzardBridge
