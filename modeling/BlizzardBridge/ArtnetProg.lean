import BlizzardBridge.ArtnetAddress
import BlizzardBridge.ConfigAgree
import BlizzardBridge.NvsRestore

/-! Remote programming of the own address: from the request to RAM, to NVS, into the
reply and over a restart. -/
namespace BlizzardBridge
open CArray Program

/-- The answer reads the own address, which with DHCP takes the variable to the lease. -/
def Board.replied (c : Calls) (b : Board) : Board :=
  if b.artnet.enabled = true ∧ c.mallocOk = true then b.getIP else b

section reply
variable (c : Calls) (p : Pbuf) (addr : UInt32) (b : Board)

theorem sendProgReply_state : (sendProgReplyArtnet c addr b).state = b.replied c := by
  have hcreate : (Board.createProgReply c.heap b).2 = b.getIP := by
    rw [Board.createProgReply_board]
    exact Board.getIP_iterate b 3
  change Leaves (fun b' => b' = b.replied c) (sendProgReplyArtnet c addr) b
  unfold sendProgReplyArtnet
  rw [leaves_get_bind]
  cases henabled : b.artnet.enabled with
  | false =>
    have hsame : b.replied c = b := if_neg fun h => absurd (henabled.symm.trans h.1) (by decide)
    exact hsame.symm
  | true =>
    cases hmalloc : c.mallocOk with
    | false =>
      have hsame : b.replied c = b := if_neg fun h => absurd (hmalloc.symm.trans h.2) (by decide)
      exact hsame.symm
    | true =>
      have hasks : b.replied c = b.getIP := if_pos ⟨henabled, hmalloc⟩
      rw [if_neg (by decide), if_neg (by decide), hasks, leaves_emit_bind, leaves_step_bind]
      split
      · rw [leaves_crash]
        exact hcreate
      · rw [leaves_emit_bind, leaves_bind_of_ends (ends_copyBytes (ends_readReply _ _) _ _)]
        simp only [leaves_emit_bind, leaves_emit]
        exact hcreate

theorem parseProg_state : (parseProgArtnet c p addr b).state =
    (b.program (p.payload PROG_COMMAND) (p.reversed PROG_IP)).replied c := by
  change Leaves (fun b' => b' = _) (parseProgArtnet c p addr) b
  rw [leaves_parseProg]
  exact sendProgReply_state c addr _

theorem replied_static (hdhcp : b.ram.dhcpEnable = 0) : b.replied c = b := by
  have hget : b.getIP = b := Board.getAddress_static ipAddressVar b hdhcp
  unfold Board.replied
  rw [hget, ite_self]

theorem replied_nvs : (b.replied c).nvs = b.nvs := by
  unfold Board.replied Board.getIP Board.getAddress
  split_ifs <;> rfl

theorem replied_touches : Touches .ownIPAddress b (b.replied c) := by
  unfold Board.replied
  split
  · by_cases hdhcp : b.ram.dhcpEnable = 0
    · have hget : b.getIP = b := Board.getAddress_static ipAddressVar b hdhcp
      rw [hget]
      exact Touches.refl _ b
    · exact (Board.getAddress_dhcp ipAddressVar b hdhcp).toTouches
  · exact Touches.refl _ b

/-- The variable of the own address after a request that did not set it. -/
theorem replied_ownAddress (hup : b.netif.up = true) : (b.replied c).ram.value .ownIPAddress =
    if b.ram.dhcpEnable ≠ 0 ∧ b.artnet.enabled = true ∧ c.mallocOk = true then
      some (.blob (take (Board.octets b.netif.info.ip) 4))
    else b.ram.value .ownIPAddress := by
  by_cases hdhcp : b.ram.dhcpEnable = 0
  · rw [replied_static c b hdhcp, if_neg (fun h => h.1 hdhcp)]
  · unfold Board.replied
    by_cases hasks : b.artnet.enabled = true ∧ c.mallocOk = true
    · have hinfo : b.getIpInfo = b.netif.info := if_pos hup
      rw [if_pos hasks, if_pos ⟨hdhcp, hasks⟩, ← hinfo]
      exact (Board.getAddress_dhcp ipAddressVar b hdhcp).valueAt
    · rw [if_neg hasks, if_neg (fun h => hasks h.2)]

end reply

/-- Nothing has changed but the setting `key`, and the variable of the own address where
the answer has read it from the interface. -/
structure ChangesOnly (key : NvsKey → Prop) (c : Calls) (b b' : Board) : Prop where
  content : ∀ k, ¬ key k → b'.nvs.content k = b.nvs.content k
  value : ∀ k, ¬ key k → k ≠ .ownIPAddress → b'.ram.value k = b.ram.value k
  ownAddress : b'.ram.value .ownIPAddress =
    if b'.ram.dhcpEnable ≠ 0 ∧ b.artnet.enabled = true ∧ c.mallocOk = true then
      some (.blob (take (Board.octets b.netif.info.ip) 4))
    else b.ram.value .ownIPAddress

/-- What a request to program the address does. -/
structure Programs (c : Calls) (p : Pbuf) (addr : UInt32) (b b' : Board) : Prop where
  dhcpRam : b'.ram.value .dhcpEnable = some (.u8 DISABLE)
  dhcpNvs : b'.nvs.content .dhcpEnable = some (.u8 DISABLE)
  address : ∀ i < 4, b'.getIP.ram.ipAddress i = p.payload (PROG_IP + (3 - i))
  reply : ∀ bytes, .send bytes ∈ (parseProgArtnet c p addr b).log →
    ∀ i < 4, bytes[16 + i]? = some (p.payload (PROG_IP + i))
  answered : c.AnswersProg b → ∃ bytes, .send bytes ∈ (parseProgArtnet c p addr b).log
  stored : b.initDone = true → b'.nvs.content .ownIPAddress = some (.blob
    [p.payload (PROG_IP + 3), p.payload (PROG_IP + 2), p.payload (PROG_IP + 1), p.payload PROG_IP])
  restart : b.initDone = true → ∀ (fuel : ℕ) (netif : Netif), ∃ r,
    Board.populateAllDmxNvsValues (fuel + 2) (Board.reset b'.nvs netif) = some r ∧
      ∀ i < 4, r.getIP.ram.ipAddress i = b'.getIP.ram.ipAddress i
  -- the loader's own calls come before INIT_DONE, so nothing is stored then
  early : b.initDone = false → b'.nvs.content .ownIPAddress = b.nvs.content .ownIPAddress

section effect
variable (c : Calls) (p : Pbuf) (addr : UInt32) (b : Board)

theorem reversed_apply (off : ℕ) {i : ℕ} (hi : i < 4) : p.reversed off i = p.payload (off + (3 - i)) := by
  rw [Pbuf.reversed, copyLoop_apply, if_pos (by omega), Nat.sub_zero]

theorem dhcpEnable_of_value {x : UInt8} (h : b.ram.value .dhcpEnable = some (.u8 x)) :
    b.ram.dhcpEnable = x := NvsVal.u8.inj (Option.some.inj h)

theorem ipAddress_of_value {a : Bytes} (h : b.ram.value .ownIPAddress = some (.blob (take a 4))) :
    ∀ i < 4, b.ram.ipAddress i = a i := eq_of_take_eq (NvsVal.blob.inj (Option.some.inj h))

theorem asks_changesOnly (hup : b.netif.up = true) (hen : progEn (p.payload PROG_COMMAND) = false) :
    ChangesOnly (fun _ => False) c b (parseProgArtnet c p addr b).state := by
  have hsame : b.program (p.payload PROG_COMMAND) (p.reversed PROG_IP) = b := by
    unfold Board.program
    rw [hen]
    rfl
  have hstate := parseProg_state c p addr b
  rw [hsame] at hstate
  have htouches := replied_touches c b
  rw [hstate]
  refine ⟨fun k _ => ?_, fun k _ hk => htouches.value k hk, ?_⟩
  · rw [replied_nvs]
  · rw [replied_ownAddress c b hup, htouches.dhcpEnable (by decide)]

theorem dhcp_changesOnly (hup : b.netif.up = true) (hen : progEn (p.payload PROG_COMMAND) = true)
    (hdhcp : dhcpEn (p.payload PROG_COMMAND) = true) (hsound : b.nvs.Sound) :
    ChangesOnly (fun k => k = .dhcpEnable) c b (parseProgArtnet c p addr b).state ∧
      (parseProgArtnet c p addr b).state.ram.value .dhcpEnable = some (.u8 ENABLE) ∧
      (parseProgArtnet c p addr b).state.nvs.content .dhcpEnable = some (.u8 ENABLE) := by
  let b₁ := b.setDHCPEnable ENABLE
  have hprog : b.program (p.payload PROG_COMMAND) (p.reversed PROG_IP) = b₁ := by
    unfold Board.program
    rw [hen, hdhcp]
    rfl
  have hstate := parseProg_state c p addr b
  rw [hprog] at hstate
  have hset : Persists .dhcpEnable (.u8 ENABLE) b b₁ := Board.setByte_persists dhcpEnableVar ENABLE b
  have htouches := replied_touches c b₁
  have hown := replied_ownAddress c b₁ hup
  rw [hset.value .ownIPAddress (by decide)] at hown
  rw [hstate]
  refine ⟨⟨fun k hk => ?_, fun k hk hk' => ?_, ?_⟩, ?_, ?_⟩
  · rw [replied_nvs, hset.content k hk]
  · rw [htouches.value k hk', hset.value k hk]
  · rw [htouches.dhcpEnable (by decide)]
    exact hown
  · rw [htouches.value .dhcpEnable (by decide), hset.valueAt]
  · rw [replied_nvs, hset.contentAt hsound]

/-- The loader brings back a stored address while DHCP is stored as disabled. -/
theorem restart_address (n : Nvs) (hsound : n.Sound) {a : Bytes}
    (hip : n.content .ownIPAddress = some (.blob (take a 4)))
    (hdhcp : n.content .dhcpEnable = some (.u8 DISABLE)) (fuel : ℕ) (netif : Netif) :
    ∃ r, Board.populateAllDmxNvsValues (fuel + 2) (Board.reset n netif) = some r ∧
      ∀ i < 4, r.getIP.ram.ipAddress i = a i := by
  let b₀ := Board.reset n netif
  obtain ⟨r, hrun, hvalues⟩ := Board.populate_loads fuel b₀ hsound
  have hip₀ : b₀.stored .ownIPAddress = .blob (take a 4) := Board.stored_of_content hip
  have hdhcp₀ : b₀.stored .dhcpEnable = .u8 DISABLE := Board.stored_of_content hdhcp
  have hvalue : r.ram.value .ownIPAddress = some (.blob (take a 4)) := by
    have hloaded := hvalues .ownIPAddress (by decide) (by rw [hip₀]; exact length_take a 4)
    rw [hip₀] at hloaded
    exact hloaded
  have hstatic : r.ram.dhcpEnable = 0 := by
    have hloaded := hvalues .dhcpEnable (by decide) (by rw [hdhcp₀]; trivial)
    rw [hdhcp₀] at hloaded
    exact dhcpEnable_of_value r hloaded
  have hget : r.getIP = r := Board.getAddress_static ipAddressVar r hstatic
  refine ⟨r, hrun, ?_⟩
  rw [hget]
  exact ipAddress_of_value r hvalue

/-- A reply from the programmed address gives its octets in the order of the request. -/
theorem progReply_echoes (heap : Bytes) {b' : Board}
    (hread : ∀ i < 4, b'.getIP.ram.ipAddress i = p.reversed PROG_IP i) {i : ℕ} (hi : i < 4) :
    (progReplyBytes heap b')[16 + i]? = some (p.payload (PROG_IP + i)) := by
  have hidx : 3 - (3 - i) = i := by omega
  have hfield : p.reversed PROG_IP (3 - i) = p.payload (PROG_IP + i) := by
    calc p.reversed PROG_IP (3 - i)
        = p.payload (PROG_IP + (3 - (3 - i))) := reversed_apply p PROG_IP (by omega)
      _ = p.payload (PROG_IP + i) := by rw [hidx]
  rw [progReplyBytes_ip b' heap hi, hread (3 - i) (by omega), hfield]

theorem parseProg_sends {bytes : List UInt8} (h : .send bytes ∈ (parseProgArtnet c p addr b).log) :
    bytes = progReplyBytes c.heap (b.program (p.payload PROG_COMMAND) (p.reversed PROG_IP)) := by
  have hudp : .send bytes ∈ udp (parseProgArtnet c p addr b).log := mem_udp_iff.mpr ⟨h, rfl⟩
  rw [parseProg_udp] at hudp
  exact sendProgReply_sends (mem_udp_iff.mp hudp).1

theorem parseProg_replies (h : c.AnswersProg b) :
    .send (progReplyBytes c.heap (b.program (p.payload PROG_COMMAND) (p.reversed PROG_IP))) ∈
      (parseProgArtnet c p addr b).log := by
  obtain ⟨henabled, hmalloc, hpbuf⟩ := h
  have hnode : (b.program (p.payload PROG_COMMAND) (p.reversed PROG_IP)).artnet = b.artnet :=
    program_artnet _ _
  have hudp : .send (progReplyBytes c.heap (b.program (p.payload PROG_COMMAND) (p.reversed PROG_IP))) ∈
      udp (parseProgArtnet c p addr b).log := by
    rw [parseProg_udp, sendProgReply_udp, hnode, henabled, hmalloc, hpbuf, if_neg (by decide)]
    exact List.mem_cons_of_mem _ List.mem_cons_self
  exact (mem_udp_iff.mp hudp).1

theorem static_programs (hsound : b.nvs.Sound) (hup : b.netif.up = true)
    (hen : progEn (p.payload PROG_COMMAND) = true) (hdhcp : dhcpEn (p.payload PROG_COMMAND) = false)
    (hip : progIP (p.payload PROG_COMMAND) = true) :
    Programs c p addr b (parseProgArtnet c p addr b).state := by
  let ip := p.reversed PROG_IP
  let b₁ := b.setIP ip
  let b₂ := b₁.setDHCPEnable DISABLE
  have hprog : b.program (p.payload PROG_COMMAND) ip = b₂ := by
    unfold Board.program
    rw [hen, hdhcp, hip]
    rfl
  have hset : Persists .dhcpEnable (.u8 DISABLE) b₁ b₂ :=
    Board.setByte_persists dhcpEnableVar DISABLE b₁
  have hfirst : Touches .ownIPAddress b b₁ := Board.setAddress_touches ipAddressVar ip b
  have hstatic : b₂.ram.dhcpEnable = 0 := dhcpEnable_of_value b₂ hset.valueAt
  have hstate : (parseProgArtnet c p addr b).state = b₂ := by
    rw [parseProg_state, hprog, replied_static c b₂ hstatic]
  have hsound₁ : b₁.nvs.Sound := hfirst.sound hsound
  have hvalue : b₂.ram.value .ownIPAddress = some (.blob (take ip 4)) := by
    rw [hset.value .ownIPAddress (by decide)]
    cases hinit : b.initDone with
    | false => exact (Board.setAddress_early ipAddressVar ip b hinit).valueAt
    | true => exact (Board.setAddress_late ipAddressVar ip b hinit hup).valueAt
  have hstored (hinit : b.initDone = true) : b₂.nvs.content .ownIPAddress = some (.blob (take ip 4)) := by
    rw [hset.content .ownIPAddress (by decide)]
    exact (Board.setAddress_late ipAddressVar ip b hinit hup).contentAt hsound
  have hget : b₂.getIP = b₂ := Board.getAddress_static ipAddressVar b₂ hstatic
  have hread : ∀ i < 4, b₂.getIP.ram.ipAddress i = ip i := by
    rw [hget]
    exact ipAddress_of_value b₂ hvalue
  rw [hstate]
  refine ⟨hset.valueAt, hset.contentAt hsound₁, ?_, ?_, ?_, ?_, ?_, ?_⟩
  · intro i hi
    exact (hread i hi).trans (reversed_apply p PROG_IP hi)
  · intro bytes hsent i hi
    rw [parseProg_sends c p addr b hsent, hprog]
    exact progReply_echoes p c.heap hread hi
  · intro hanswers
    exact ⟨_, parseProg_replies c p addr b hanswers⟩
  · exact fun hinit => hstored hinit
  · intro hinit fuel netif
    have hdhcp₂ : b₂.nvs.content .dhcpEnable = some (.u8 DISABLE) := hset.contentAt hsound₁
    obtain ⟨r, hrun, haddress⟩ :=
      restart_address b₂.nvs (hset.sound hsound₁) (hstored hinit) hdhcp₂ fuel netif
    refine ⟨r, hrun, fun i hi => ?_⟩
    rw [haddress i hi, hread i hi]
  · intro hinit
    rw [hset.content .ownIPAddress (by decide)]
    exact (Board.setAddress_early ipAddressVar ip b hinit).contentAt

end effect

/-- The three kinds of request that change something or nothing, by their command byte. -/
theorem parseProg_effect (c : Calls) (p : Pbuf) (addr : UInt32) (b : Board) (hsound : b.nvs.Sound)
    (hup : b.netif.up = true) :
    (progEn (p.payload PROG_COMMAND) = false →
      ChangesOnly (fun _ => False) c b (parseProgArtnet c p addr b).state) ∧
    (progEn (p.payload PROG_COMMAND) = true → dhcpEn (p.payload PROG_COMMAND) = true →
      ChangesOnly (fun k => k = .dhcpEnable) c b (parseProgArtnet c p addr b).state ∧
        (parseProgArtnet c p addr b).state.ram.value .dhcpEnable = some (.u8 ENABLE) ∧
        (parseProgArtnet c p addr b).state.nvs.content .dhcpEnable = some (.u8 ENABLE)) ∧
    (progEn (p.payload PROG_COMMAND) = true → dhcpEn (p.payload PROG_COMMAND) = false →
      progIP (p.payload PROG_COMMAND) = true →
      Programs c p addr b (parseProgArtnet c p addr b).state) := by
  refine ⟨?_, ?_, ?_⟩
  · exact asks_changesOnly c p addr b hup
  · exact fun hen hdhcp => dhcp_changesOnly c p addr b hup hen hdhcp hsound
  · exact static_programs c p addr b hsound hup

/-- A request with a command byte and the address 2.0.0.10. -/
def addressRequest (command : UInt8) : Pbuf where
  payload := store (fun _ => 0) 0 (take ARTNET_ID 8 ++ word ART_OP_PROG ++ [0, 14, 0, 0, command, 0, 2, 0, 0, 10])
  len := PROG_REPLY_SIZE

theorem parseProg_effect_static :
    let b := { startedNode with initDone := true }
    Programs allCalls (addressRequest 0x84) 0 b (parseProgArtnet allCalls (addressRequest 0x84) 0 b).state := by
  intro b
  have heffect := parseProg_effect allCalls (addressRequest 0x84) 0 b (fun _ => rfl) rfl
  exact heffect.2.2 (by decide) (by decide) (by decide)

/-- A request that only asks moves the own address in RAM to the lease, and before
`INIT_DONE` a programmed address is not stored. -/
theorem parseProg_exceptions :
    (¬ ∀ (c : Calls) (p : Pbuf) (addr : UInt32) (b : Board), b.nvs.Sound → b.netif.up = true →
      progEn (p.payload PROG_COMMAND) = false →
        ∀ k, (parseProgArtnet c p addr b).state.ram.value k = b.ram.value k) ∧
    (¬ ∀ (c : Calls) (p : Pbuf) (addr : UInt32) (b : Board), b.nvs.Sound → b.netif.up = true →
      progEn (p.payload PROG_COMMAND) = true → dhcpEn (p.payload PROG_COMMAND) = false →
      progIP (p.payload PROG_COMMAND) = true →
        (parseProgArtnet c p addr b).state.nvs.content .ownIPAddress = some (.blob
          [p.payload (PROG_IP + 3), p.payload (PROG_IP + 2), p.payload (PROG_IP + 1),
            p.payload PROG_IP])) := by
  constructor
  · intro hall
    let info : IpInfo := ⟨IP4_ADDR 2 0 0 10, 0, 0⟩
    let b : Board := { startedNode with
      ram := { startedNode.ram with dhcpEnable := ENABLE }
      netif := { startedNode.netif with info := info } }
    have hkept := hall allCalls (addressRequest 0) 0 b (fun _ => rfl) rfl (by decide)
    have hdhcp := dhcpEnable_of_value (x := ENABLE) _ (hkept .dhcpEnable)
    have hmoved := (asks_changesOnly allCalls (addressRequest 0) 0 b rfl (by decide)).ownAddress
    rw [if_pos ⟨by rw [hdhcp]; decide, rfl, rfl⟩, hkept .ownIPAddress] at hmoved
    have hfirst : (0 : UInt8) = 2 := by
      have hoctet := ipAddress_of_value b hmoved 0 (by omega)
      rwa [(octets_IP4_ADDR 2 0 0 10).1] at hoctet
    exact absurd hfirst (by decide)
  · intro hall
    have hstored := hall allCalls (addressRequest 0x84) 0 startedNode (fun _ => rfl) rfl (by decide)
      (by decide) (by decide)
    have hprog := static_programs allCalls (addressRequest 0x84) 0 startedNode (fun _ => rfl) rfl
      (by decide) (by decide) (by decide)
    rw [hprog.early rfl] at hstored
    cases hstored

end BlizzardBridge
