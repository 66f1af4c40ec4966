import BlizzardBridge.ArtnetLink
import BlizzardBridge.ArtnetStable
import BlizzardBridge.ArtnetUdp
import BlizzardBridge.EventMachine

/-! What a node does with datagrams over its whole life. The senders test `_enabled`, the
receive callback, which stays registered behind a stop, does not. -/
namespace BlizzardBridge
open CArray Program EventMachine

/-- The two flags that decide what the node does. -/
def Board.mode (b : Board) : Bool × Direction := (b.artnet.enabled, b.artnet.direction)

section mode
variable {m : Bool × Direction}

/-- No datagram starts or stops the node, or turns its direction. -/
theorem mode_stable : Stable fun b => b.mode = m := by
  refine ⟨?_, fun _ _ hb => hb, ?_, ?_, fun _ hb => hb, fun _ _ _ hb => hb⟩
  · intro b hb
    rw [← hb]
    change (Board.getAddress ipAddressVar b).mode = b.mode
    unfold Board.getAddress
    split <;> rfl
  · intro name length b hb
    rw [← hb]
    unfold Board.mode
    rw [setName_artnet]
  · intro command ip b hb
    rw [← hb]
    unfold Board.mode
    rw [program_artnet]

theorem startDMXArtnet_mode (dir : Direction) (d : Device) :
    (d.startDMXArtnet dir).board.mode = (true, dir) := by
  dsimp only [Device.startDMXArtnet, Device.createPacketArtnet]
  exact mode_stable.createPacketArtnetPollReply _ rfl

end mode

/-- The handler of the datagram writes the buffer or the configuration. -/
def Pbuf.Writes (p : Pbuf) (b : Board) : Prop :=
  p.opcode = ART_OP_DMX ∧ b.artnet.direction = .receive ∧
      p.universeSeen = b.ram.ownUniverse.toNat ∧ 0 < p.slotsSeen ∨
    p.opcode = ART_OP_PROG ∧ progEn (p.payload PROG_COMMAND) = true ∧
      (dhcpEn (p.payload PROG_COMMAND) = true ∨ progIP (p.payload PROG_COMMAND) = true) ∨
    p.opcode = ART_OP_ART_ADDRESS

/-- A send reads the buffer and the configuration only. -/
theorem sendDMXData_board (c : Calls) (dest : UInt32) (u : UInt16) (d : Device) :
    (sendDMXDataArtnet c dest u d).state.board = d.board := by
  have hkeeps : Preserves (fun d' => d'.board = d.board) (sendDMXDataArtnet c dest u) := by
    unfold sendDMXDataArtnet
    refine preserves_get.bind fun enabled => ?_
    split
    · exact preserves_pure
    · refine preserves_emit.bind fun _ => Preserves.bind (preserves_modify fun _ h => h) fun _ => ?_
      split
      · exact preserves_crash
      · refine preserves_get.bind fun payload => Preserves.bind (preserves_modify fun _ h => h) fun _ => ?_
        exact preserves_emit.bind fun _ => preserves_emit
  exact hkeeps d rfl

section ignored
variable (c : Calls) (p : Pbuf) (addr : UInt32) (b : Board)

/-- A datagram that gets as far as its handler does what the handler does. -/
theorem recieve_unchanged (h : c.mutexTaken = true → p.HasID 8 0 →
    (switchArtnet c p addr p.opcode b).state = b) : (recieveDMXArtnet c p addr b).state = b := by
  cases hmutex : c.mutexTaken with
  | false =>
    rw [recieve_drops c p addr hmutex]
    rfl
  | true =>
    by_cases hid : p.HasID 8 0
    · rw [recieve_state c p addr b hmutex hid]
      exact h hmutex hid
    · have hdrops := (dispatch_drops c p addr b hid).1
      unfold recieveDMXArtnet
      rw [hmutex]
      change ((dispatchArtnet c p addr >>= _) b).state = b
      rw [state_bind_left]
      · exact hdrops
      · intro _ b' _
        rfl

theorem switch_ignores_dmx (hop : p.opcode = ART_OP_DMX) (hdir : b.artnet.direction ≠ .receive) :
    (switchArtnet c p addr p.opcode b).state = b := by
  unfold switchArtnet
  rw [bind_of_ends (x := get _) ends_step, if_pos hop, if_pos hdir]
  rfl

/-- Away from the handlers that write, a node that is not enabled stays as it is. -/
theorem switch_disabled (hoff : b.artnet.enabled = false) (hquiet : ¬ p.Writes b) :
    (switchArtnet c p addr p.opcode b).state = b := by
  obtain ⟨hdmx, hrest⟩ := not_or.mp hquiet
  obtain ⟨hprog, haddress⟩ := not_or.mp hrest
  unfold switchArtnet
  rw [bind_of_ends (x := get _) ends_step]
  change (Program.Outcome.state ((if p.opcode = ART_OP_DMX then _ else _ : Node Unit) b)) = b
  split_ifs with hop hdir hop' hop' hop'
  · rfl
  · have hdir' : b.artnet.direction = .receive := not_not.mp hdir
    have hempty : p.universeSeen = b.ram.ownUniverse.toNat → p.slotsSeen = 0 := by
      intro hu
      by_contra hpos
      exact hdmx ⟨hop, hdir', hu, Nat.pos_of_ne_zero hpos⟩
    rw [(ends_parseDMX p b).2]
    split_ifs with hu
    · rw [hempty hu]
      rfl
    · rfl
  · unfold sendPollReplyArtnet
    rw [bind_of_ends (x := get _) ends_step, hoff]
    rfl
  · rfl
  · have hprog' : b.program (p.payload PROG_COMMAND) (p.reversed PROG_IP) = b := by
      unfold Board.program
      split_ifs with hen hdhcp hip
      · rfl
      · exact absurd ⟨hop', by simpa using hen, Or.inl hdhcp⟩ hprog
      · exact absurd ⟨hop', by simpa using hen, Or.inr hip⟩ hprog
      · rfl
    have hsilent : b.replied c = b := if_neg fun h => absurd (hoff.symm.trans h.1) (by decide)
    rw [parseProg_state, hprog', hsilent]
  · rfl

end ignored

/-- The task is created, or waited for, by what follows. -/
def Device.changeDirectionArtnet (dir : Direction) (d : Device) : Device :=
  if dir = d.board.artnet.direction then d
  else { d with board := { d.board with artnet := { d.board.artnet with direction := dir } } }

/-- The node with its callback, once `udp_recv` has registered it. -/
structure NodeLife where
  device : Device
  registered : Bool

inductive LifeEvent where
  | startDMXArtnet (dir : Direction)
  | stopDMXArtnet
  | changeDirectionArtnet (dir : Direction)
  | recieveDMXArtnet (c : Calls) (p : Pbuf) (addr : UInt32)
  -- a sending task gets to its next frame
  | sendDMXDataArtnet (c : Calls) (dest : UInt32)

namespace NodeLife

/-- A node that has not been started yet. -/
def boot (d : Device) : NodeLife := ⟨d.stopDMXArtnet, false⟩

def step (s : NodeLife) : LifeEvent → NodeLife × List Access
  | .startDMXArtnet dir => (⟨s.device.startDMXArtnet dir, true⟩, [])
  | .stopDMXArtnet => ({ s with device := s.device.stopDMXArtnet }, [])
  | .changeDirectionArtnet dir => ({ s with device := s.device.changeDirectionArtnet dir }, [])
  | .recieveDMXArtnet c p addr =>
    if s.registered then
      let o := BlizzardBridge.recieveDMXArtnet c p addr s.device.board
      ({ s with device := { s.device with board := o.state } }, o.log)
    else (s, [])
  | .sendDMXDataArtnet c dest =>
    let o := BlizzardBridge.sendDMXDataArtnet c dest s.device.board.ram.ownUniverse s.device
    ({ s with device := o.state }, o.log)

def enabled (s : NodeLife) : Bool := s.device.board.artnet.enabled

/-- No datagram that a handler would write for comes in at a node that is not enabled. -/
def Guarded (s : NodeLife) : LifeEvent → Prop
  | .recieveDMXArtnet c p _ => s.registered = true → s.enabled = false →
    c.mutexTaken = true → p.HasID 8 0 → ¬ p.Writes s.device.board
  | _ => True

/-- The last call that starts or stops the node is a start. -/
def Started (d : Device) (es : List LifeEvent) : Prop :=
  Settled step (fun _ e => ∃ dir, e = .startDMXArtnet dir) (fun _ e => e = .stopDMXArtnet) False (boot d) es

/-- What the next event of a run may do: with the node stopped a datagram changes neither the
buffer nor the stored configuration, an ArtDmx needs the direction RECEIVE besides, and
nothing is sent. -/
structure Obeys (d : Device) (es : List LifeEvent) (e : LifeEvent) : Prop where
  unchanged : ¬ Started d es → ∀ c p addr, e = .recieveDMXArtnet c p addr →
    (exec step (boot d) (es ++ [e])).device.board.dmx = (exec step (boot d) es).device.board.dmx ∧
      (exec step (boot d) (es ++ [e])).device.board.nvs = (exec step (boot d) es).device.board.nvs
  receives : ∀ c p addr, e = .recieveDMXArtnet c p addr → p.opcode = ART_OP_DMX →
    (exec step (boot d) es).device.board.artnet.direction ≠ .receive →
    (exec step (boot d) (es ++ [e])).device.board.dmx = (exec step (boot d) es).device.board.dmx
  silent : ¬ Started d es → ∀ bytes, .send bytes ∉ (step (exec step (boot d) es) e).2

section life
variable (s : NodeLife)

theorem step_start (dir : Direction) :
    s.step (.startDMXArtnet dir) = (⟨s.device.startDMXArtnet dir, true⟩, []) := rfl

theorem step_recieve_registered (c : Calls) (p : Pbuf) (addr : UInt32) (hreg : s.registered = true) :
    s.step (.recieveDMXArtnet c p addr) =
      ({ s with device := { s.device with
          board := (BlizzardBridge.recieveDMXArtnet c p addr s.device.board).state } },
        (BlizzardBridge.recieveDMXArtnet c p addr s.device.board).log) := if_pos hreg

theorem step_recieve_early (c : Calls) (p : Pbuf) (addr : UInt32) (hreg : s.registered ≠ true) :
    s.step (.recieveDMXArtnet c p addr) = (s, []) := if_neg hreg

theorem enabled_step (e : LifeEvent) : (s.step e).1.enabled = true ↔
    (∃ dir, e = .startDMXArtnet dir) ∨ s.enabled = true ∧ ¬ e = .stopDMXArtnet := by
  cases e with
  | startDMXArtnet dir =>
    have hon : (s.step (.startDMXArtnet dir)).1.enabled = true := by
      have hmode := startDMXArtnet_mode dir s.device
      rw [step_start]
      generalize s.device.startDMXArtnet dir = d at hmode
      exact congrArg Prod.fst hmode
    exact iff_of_true hon (Or.inl ⟨dir, rfl⟩)
  | stopDMXArtnet =>
    have hoff : (s.step .stopDMXArtnet).1.enabled = false := rfl
    rw [hoff]
    simp
  | changeDirectionArtnet dir =>
    have hsame : (s.step (.changeDirectionArtnet dir)).1.enabled = s.enabled := by
      change (s.device.changeDirectionArtnet dir).board.artnet.enabled = _
      unfold Device.changeDirectionArtnet
      split <;> rfl
    rw [hsame]
    simp
  | recieveDMXArtnet c p addr =>
    have hsame : (s.step (.recieveDMXArtnet c p addr)).1.enabled = s.enabled := by
      by_cases hreg : s.registered = true
      · rw [step_recieve_registered s c p addr hreg]
        exact congrArg Prod.fst (mode_stable.recieveDMXArtnet c p addr s.device.board rfl)
      · rw [step_recieve_early s c p addr hreg]
    rw [hsame]
    simp
  | sendDMXDataArtnet c dest =>
    have hsame : (s.step (.sendDMXDataArtnet c dest)).1.enabled = s.enabled := by
      have hboard := sendDMXData_board c dest s.device.board.ram.ownUniverse s.device
      exact congrArg (fun b : Board => b.artnet.enabled) hboard
    rw [hsame]
    simp

theorem started_iff (d : Device) (es : List LifeEvent) :
    Started d es ↔ (exec step (boot d) es).enabled = true := by
  have hoff : ((boot d).enabled = true) = False := eq_false nofun
  have hsettled := settled_iff (I := fun s => s.enabled = true) enabled_step (boot d) es
  rwa [hoff] at hsettled

variable {s}

theorem disabled_step (hoff : s.enabled = false) (c : Calls) (p : Pbuf) (addr : UInt32)
    (hguard : s.Guarded (.recieveDMXArtnet c p addr)) : (s.step (.recieveDMXArtnet c p addr)).1 = s := by
  by_cases hreg : s.registered = true
  · have hsame : (BlizzardBridge.recieveDMXArtnet c p addr s.device.board).state = s.device.board := by
      apply recieve_unchanged
      intro hmutex hid
      exact switch_disabled c p addr s.device.board hoff (hguard hreg hoff hmutex hid)
    rw [step_recieve_registered s c p addr hreg, hsame]
  · rw [step_recieve_early s c p addr hreg]

theorem ignored_step (c : Calls) (p : Pbuf) (addr : UInt32) (hop : p.opcode = ART_OP_DMX)
    (hdir : s.device.board.artnet.direction ≠ .receive) : (s.step (.recieveDMXArtnet c p addr)).1 = s := by
  by_cases hreg : s.registered = true
  · have hsame : (BlizzardBridge.recieveDMXArtnet c p addr s.device.board).state = s.device.board := by
      apply recieve_unchanged
      intro _ _
      exact switch_ignores_dmx c p addr s.device.board hop hdir
    rw [step_recieve_registered s c p addr hreg, hsame]
  · rw [step_recieve_early s c p addr hreg]

theorem silent_step (hoff : s.enabled = false) (e : LifeEvent) (bytes : List UInt8) :
    .send bytes ∉ (s.step e).2 := by
  intro hsend
  cases e with
  | startDMXArtnet dir => exact List.not_mem_nil hsend
  | stopDMXArtnet => exact List.not_mem_nil hsend
  | changeDirectionArtnet dir => exact List.not_mem_nil hsend
  | recieveDMXArtnet c p addr =>
    by_cases hreg : s.registered = true
    · rw [step_recieve_registered s c p addr hreg] at hsend
      have hudp := mem_udp_iff.mpr ⟨hsend, rfl⟩
      rw [(recieve_answers c p addr s.device.board).2 hoff] at hudp
      exact List.not_mem_nil hudp
    · rw [step_recieve_early s c p addr hreg] at hsend
      exact List.not_mem_nil hsend
  | sendDMXDataArtnet c dest =>
    change .send bytes ∈ (BlizzardBridge.sendDMXDataArtnet c dest _ s.device).log at hsend
    rw [sendDMXData_disabled c dest _ s.device hoff] at hsend
    exact List.not_mem_nil hsend

end life

/-- In a run that delivers no writing datagram to a stopped node every event obeys. -/
theorem obeys_of_guarded (d : Device) (es : List LifeEvent) (e : LifeEvent)
    (h : Along step Guarded (boot d) (es ++ [e])) : Obeys d es e := by
  have hguard : Guarded (exec step (boot d) es) e := ((along_append _ _ _ _ _).mp h).2.1
  have hnext : exec step (boot d) (es ++ [e]) = (step (exec step (boot d) es) e).1 := exec_append _ _ _ _
  have hoff (hstop : ¬ Started d es) : (exec step (boot d) es).enabled = false := by
    rw [started_iff] at hstop
    exact Bool.not_eq_true _ ▸ hstop
  refine ⟨fun hstop c p addr he => ?_, fun c p addr he hop hdir => ?_, fun hstop bytes => ?_⟩
  · rw [he] at hguard hnext
    rw [he, hnext, disabled_step (hoff hstop) c p addr hguard]
    exact ⟨rfl, rfl⟩
  · rw [he] at hnext
    rw [he, hnext, ignored_step c p addr hop hdir]
  · exact silent_step (hoff hstop) e bytes

/-- A start and a stop. -/
def startStop : List LifeEvent := [.startDMXArtnet .receive, .stopDMXArtnet]

/-- A stopped node takes a request for the settings and does not answer it. -/
theorem obeys_of_guarded_request : Obeys zeroDevice startStop (.recieveDMXArtnet allCalls progRequest 0) := by
  apply obeys_of_guarded
  refine ⟨trivial, trivial, fun _ _ _ _ hwrites => ?_, trivial⟩
  rcases hwrites with ⟨hop, _⟩ | ⟨_, hen, _⟩ | hop
  · exact absurd hop (by decide)
  · exact absurd hen (by decide)
  · exact absurd hop (by decide)

/-- A stopped node takes an ArtDmx packet into its buffer. -/
theorem obeys_fails : ¬ ∀ (d : Device) (es : List LifeEvent) (e : LifeEvent), Obeys d es e := by
  intro hall
  let d : Device := { zeroDevice with board := Board.setOwnUniverse 1 startedNode }
  have hstop : ¬ Started d startStop := by simp [Started, Settled, startStop]
  have hobeys := hall d startStop (.recieveDMXArtnet allCalls dmxPacket 0)
  have hsame := congrFun (hobeys.unchanged hstop _ _ _ rfl).1 1
  exact absurd hsame (by decide +kernel)

end NodeLife

end BlizzardBridge
