import BlizzardBridge.ArtnetStable
import BlizzardBridge.Sacn
import BlizzardBridge.UartHandler

/-! The start code of the DMX buffer under all its writers: the fills of `dmx.c`, the
faders, the datagrams and the interrupt handler, each with an index of its own. -/
namespace BlizzardBridge
open CArray Program EventMachine

/-- A fader of the octet in view. What the application sends is cut to a byte. -/
def fader (k : UInt16) (octet : UInt8) (param : ℤ) (dmx : Bytes) : Bytes :=
  setDMXData (k + 8 * octet.toUInt16) (UInt8.ofInt param) dmx

-- `BLYNK_WRITE(V0)` to `BLYNK_WRITE(V7)`.
def blynkWriteV0 : UInt8 → ℤ → Bytes → Bytes := fader 1
def blynkWriteV1 : UInt8 → ℤ → Bytes → Bytes := fader 2
def blynkWriteV2 : UInt8 → ℤ → Bytes → Bytes := fader 3
def blynkWriteV3 : UInt8 → ℤ → Bytes → Bytes := fader 4
def blynkWriteV4 : UInt8 → ℤ → Bytes → Bytes := fader 5
def blynkWriteV5 : UInt8 → ℤ → Bytes → Bytes := fader 6
def blynkWriteV6 : UInt8 → ℤ → Bytes → Bytes := fader 7
def blynkWriteV7 : UInt8 → ℤ → Bytes → Bytes := fader 8

inductive FaderPin where
  | v0
  | v1
  | v2
  | v3
  | v4
  | v5
  | v6
  | v7

def FaderPin.write : FaderPin → UInt8 → ℤ → Bytes → Bytes
  | .v0 => blynkWriteV0
  | .v1 => blynkWriteV1
  | .v2 => blynkWriteV2
  | .v3 => blynkWriteV3
  | .v4 => blynkWriteV4
  | .v5 => blynkWriteV5
  | .v6 => blynkWriteV6
  | .v7 => blynkWriteV7

/-- What the port does of itself, without the writes of other tasks. -/
def Event.OfPort : Event → Prop
  | .setBuffer _ => False
  | _ => True

abbrev PortEvent := { e : Event // e.OfPort }

/-- All that shares the buffer. It is the one of `sacn.board`; `_dmx_data` of the port
points to it. -/
structure Desk where
  sacn : SacnDevice
  port : Port
  octet : UInt8

inductive DeskEvent where
  | clearDMX
  | maxDMX
  | fader (pin : FaderPin) (param : ℤ)
  -- `BLYNK_WRITE(V8)`
  | octet (param : ℤ)
  | recieveDMXArtnet (c : Calls) (p : Pbuf) (addr : UInt32)
  | uart (e : PortEvent)
  | startDMXsACN
  | sendDMXDatasACN (c : Calls) (u : UInt16)

inductive DeskOutput where
  | datagram (bytes : List UInt8)
  | effect (o : Effect)

namespace Desk

def dmx (d : Desk) : Bytes := d.sacn.board.dmx

def withDmx (dmx : Bytes) (d : Desk) : Desk := { d with sacn := d.sacn.withDmx dmx }

/-- The port with its pointer followed. -/
def portView (d : Desk) : Port := { d.port with dmxData := d.dmx }

def step (d : Desk) : DeskEvent → Desk × List DeskOutput
  | .clearDMX => (d.withDmx (BlizzardBridge.clearDMX d.dmx), [])
  | .maxDMX => (d.withDmx (BlizzardBridge.maxDMX d.dmx), [])
  | .fader pin param => (d.withDmx (pin.write d.octet param d.dmx), [])
  | .octet param => ({ d with octet := UInt8.ofInt param }, [])
  | .recieveDMXArtnet c p addr =>
    let board := (BlizzardBridge.recieveDMXArtnet c p addr d.sacn.board).state
    ({ d with sacn := { d.sacn with board := board } }, [])
  | .uart e =>
    let r := d.portView.step e.val
    ({ d with port := r.1, sacn := d.sacn.withDmx r.1.dmxData }, r.2.map .effect)
  | .startDMXsACN => ({ d with sacn := d.sacn.startDMXsACN }, [])
  | .sendDMXDatasACN c u =>
    let r := d.sacn.step (.sendDMXDatasACN c u)
    ({ d with sacn := r.1 }, r.2.map .datagram)

/-- With the buffer as it is at power-on, in any state of what shares it. -/
def zeroed (sacn : SacnDevice) (port : Port) (octet : UInt8) : Desk :=
  ⟨sacn.withDmx fun _ => 0, port, octet⟩

def Null (d : Desk) : Prop := d.dmx 0 = 0

end Desk

/-- The null start code, in a datagram behind the header, in a received frame at slot 0. -/
def DeskOutput.Null : DeskOutput → Prop
  | .datagram bytes => bytes[SACN_DMX_START_INDEX]? = some 0
  | .effect (.writeDmx slot byte) => slot = 0 → byte = 0
  | .effect _ => True

theorem fill_zero (dmx : Bytes) (lo hi : ℕ) (v : UInt8) (h : 0 < lo ∨ v = 0) (h0 : dmx 0 = 0) :
    fillLoop dmx lo hi v 0 = 0 := by
  rw [fillLoop, copyLoop_apply]
  split_ifs with hin
  · rcases h with h | h
    · omega
    · exact h
  · exact h0

/-- A fader writes behind the start code: its slot is at least 1, and far from a wrap. -/
theorem fader_zero (k : UInt16) (hk : 1 ≤ k.toNat ∧ k.toNat ≤ 8) (octet : UInt8) (param : ℤ)
    (dmx : Bytes) : fader k octet param dmx 0 = dmx 0 := by
  have hoctet : octet.toNat < 256 := UInt8.toNat_lt octet
  have h8 : (8 : UInt16).toNat = 8 := rfl
  have hslot : 0 ≠ (k + 8 * octet.toUInt16).toNat := by
    rw [UInt16.toNat_add, UInt16.toNat_mul, UInt8.toNat_toUInt16, h8]
    omega
  unfold fader setDMXData
  split_ifs
  · rfl
  · exact Function.update_of_ne hslot _ _

theorem faderPin_zero (pin : FaderPin) (octet : UInt8) (param : ℤ) (dmx : Bytes) :
    pin.write octet param dmx 0 = dmx 0 := by
  cases pin <;> exact fader_zero _ (by decide) octet param dmx

theorem clearDMX_zero (dmx : Bytes) (h0 : dmx 0 = 0) : clearDMX dmx 0 = 0 := by
  unfold clearDMX
  exact fill_zero dmx 0 DMX_MAX_SLOTS 0 (Or.inr rfl) h0

theorem maxDMX_zero (dmx : Bytes) (h0 : dmx 0 = 0) : maxDMX dmx 0 = 0 := by
  unfold maxDMX
  exact fill_zero dmx 1 DMX_MAX_SLOTS 0xFF (Or.inl Nat.one_pos) h0

/-- No datagram writes the start code: the data of an ArtDmx packet start at slot 1. -/
theorem null_stable : Stable fun b => b.dmx 0 = 0 := by
  have hset (b : Board) (dmx : Bytes) (h : dmx 0 = 0) : ({ b with dmx := dmx } : Board).dmx 0 = 0 := h
  refine ⟨?_, fun _ _ hb => hb, ?_, ?_, fun b hb => hset b _ (clearDMX_zero b.dmx hb), ?_⟩
  · intro b hb
    unfold Board.getIP Board.getAddress
    split
    · exact hb
    · exact hb
  · intro name length b hb
    unfold Board.setName
    split
    · exact hb
    · exact hb
  · intro command ip b hb
    rw [(program_frame command ip).2]
    exact hb
  · intro p n b hb
    change p.dataIn n b.dmx 0 = 0
    rw [dataIn_apply, if_neg (by omega)]
    exact hb

namespace Port
variable (p : Port)

def StoresNull (o : Effect) : Prop := (DeskOutput.effect o).Null

theorem receiveByte_null (byte : UInt8) (h0 : p.dmxData 0 = 0) :
    (p.receiveByte byte).1.dmxData 0 = 0 ∧ ∀ o ∈ (p.receiveByte byte).2, StoresNull o := by
  cases hs : p.dmxState with
  | data =>
    by_cases hcode : p.currentSlot = 0 ∧ byte ≠ 0
    · rw [receiveByte_data_code p byte hs hcode.1 hcode.2]
      exact ⟨h0, List.forall_mem_nil _⟩
    · -- the guard on the start byte: at slot 0 only a zero is stored
      have hbyte : p.currentSlot = 0 → byte = 0 := fun hslot => by
        by_contra hne
        exact hcode ⟨hslot, hne⟩
      rw [receiveByte_data_store p byte hs hbyte]
      refine ⟨?_, List.forall_mem_singleton.mpr hbyte⟩
      change Function.update p.dmxData p.currentSlot byte 0 = 0
      by_cases hslot : p.currentSlot = 0
      · rw [hslot, hbyte hslot]
        exact Function.update_self _ _ _
      · exact (Function.update_of_ne (Ne.symm hslot) _ _).trans h0
  | brk =>
    rw [receiveByte_brk p byte hs]
    refine ⟨?_, List.forall_mem_nil _⟩
    split
    · exact h0
    · exact h0
  | rdm =>
    simp only [receiveByte, hs]
    refine ⟨?_, List.forall_mem_singleton.mpr trivial⟩
    split
    · exact h0
    · exact h0
  | _ =>
    simp only [receiveByte, hs]
    exact ⟨h0, List.forall_mem_nil _⟩

/-- The sender reads the buffer only. -/
theorem handleTxfifoEmpty_null : p.handleTxfifoEmpty.1.dmxData = p.dmxData ∧
    ∀ o ∈ p.handleTxfifoEmpty.2, StoresNull o := by
  have hboth {x y : Effect} (hx : StoresNull x) (hy : StoresNull y) : ∀ o ∈ [x, y], StoresNull o :=
    List.forall_mem_cons.mpr ⟨hx, List.forall_mem_singleton.mpr hy⟩
  cases hs : p.dmxState with
  | start =>
    rw [handleTxfifoEmpty_start p hs]
    exact ⟨rfl, hboth trivial trivial⟩
  | data =>
    simp only [handleTxfifoEmpty, hs]
    split
    · exact ⟨rfl, hboth trivial trivial⟩
    · exact ⟨rfl, hboth trivial trivial⟩
  | brk =>
    rw [handleTxfifoEmpty_brk p hs]
    exact ⟨rfl, hboth trivial trivial⟩
  | _ =>
    simp only [handleTxfifoEmpty, hs]
    exact ⟨trivial, List.forall_mem_nil _⟩

theorem portStep_null (e : PortEvent) (h0 : p.dmxData 0 = 0) :
    (p.step e.val).1.dmxData 0 = 0 ∧ ∀ o ∈ (p.step e.val).2, StoresNull o := by
  obtain ⟨e, hport⟩ := e
  cases e with
  | changeDirection dir =>
    cases dir with
    | send => exact ⟨h0, List.forall_mem_nil _⟩
    | receive => exact ⟨h0, List.forall_mem_singleton.mpr trivial⟩
  | txfifoEmpty =>
    obtain ⟨hsame, hout⟩ := handleTxfifoEmpty_null p
    exact ⟨(congrFun hsame 0).trans h0, hout⟩
  | txDone =>
    change p.handleTxDone.dmxData 0 = 0 ∧ _
    rw [handleTxDone_eq]
    exact ⟨h0, List.forall_mem_nil _⟩
  | brkDet =>
    change p.handleBrkDet.dmxData 0 = 0 ∧ _
    unfold handleBrkDet
    split
    · exact ⟨h0, List.forall_mem_nil _⟩
    · exact ⟨h0, List.forall_mem_nil _⟩
  | rxByte byte queued =>
    change (p.handleRxfifo byte queued).1.dmxData 0 = 0 ∧ ∀ o ∈ (p.handleRxfifo byte queued).2, _
    rcases handleRxfifo_cases p byte queued with ⟨_, full, ena, tout, heq⟩ | ⟨_, _, heq⟩
    · rw [heq]
      exact ⟨h0, List.forall_mem_nil _⟩
    · rw [heq]
      exact receiveByte_null p byte h0
  | shiftOut => exact ⟨h0, List.forall_mem_nil _⟩
  | setBuffer dmx => exact absurd hport id

end Port

namespace Desk

theorem datagram_null (s : SacnDevice) (u : UInt16) (h0 : s.board.dmx 0 = 0) :
    (s.datagram u)[SACN_DMX_START_INDEX]? = some 0 := by
  have hin : SACN_DMX_START_INDEX < MAX_SACN_BUFFER := by decide
  rw [SacnDevice.datagram, getElem?_take _ hin, SacnDevice.payloadAt, if_neg (lt_irrefl _), Nat.sub_self]
  exact congrArg some h0

theorem withDmx_null {d : Desk} {dmx : Bytes} : (d.withDmx dmx).Null ↔ dmx 0 = 0 := Iff.rfl

/-- What one operation does: the start code stays, and what it shows of it is null. -/
theorem null_step (d : Desk) (e : DeskEvent) (h0 : d.Null) :
    (d.step e).1.Null ∧ ∀ o ∈ (d.step e).2, o.Null := by
  cases e with
  | clearDMX => exact ⟨withDmx_null.mpr (clearDMX_zero d.dmx h0), nofun⟩
  | maxDMX => exact ⟨withDmx_null.mpr (maxDMX_zero d.dmx h0), nofun⟩
  | fader pin param => exact ⟨(faderPin_zero pin d.octet param d.dmx).trans h0, nofun⟩
  | octet param => exact ⟨h0, List.forall_mem_nil _⟩
  | recieveDMXArtnet c p addr =>
    exact ⟨null_stable.recieveDMXArtnet c p addr d.sacn.board h0, nofun⟩
  | uart e =>
    obtain ⟨hnull, hout⟩ := Port.portStep_null d.portView e h0
    exact ⟨hnull, List.forall_mem_map.mpr hout⟩
  | startDMXsACN => exact ⟨h0, List.forall_mem_nil _⟩
  | sendDMXDatasACN c u =>
    change (d.sacn.step (.sendDMXDatasACN c u)).1.board.dmx 0 = 0 ∧
      ∀ o ∈ (d.sacn.step (.sendDMXDatasACN c u)).2.map DeskOutput.datagram, o.Null
    rw [SacnDevice.step_send]
    split_ifs
    · exact ⟨h0, List.forall_mem_singleton.mpr (datagram_null d.sacn u h0)⟩
    · exact ⟨h0, List.forall_mem_nil _⟩

/-- The start code is null in every state reached, in every sACN datagram and in every
frame received. -/
theorem start_code_null (sacn : SacnDevice) (port : Port) (octet : UInt8) (es : List DeskEvent) :
    let d := zeroed sacn port octet
    (exec step d es).dmx 0 = 0 ∧ ∀ x ∈ trace step d es, x.2.Null := by
  intro d
  have hany := along_of_forall (m := step) (C := fun _ _ => True) (fun _ _ => trivial) d es
  have hkeep (d : Desk) (e : DeskEvent) (h : d.Null) (_ : True) : (d.step e).1.Null := (null_step d e h).1
  have hstart : d.Null := rfl
  refine ⟨exec_invariant hkeep hstart hany, ?_⟩
  apply (trace_forall_iff (m := step) (fun _ o => o.Null) d es).mpr
  exact along_mono hkeep (fun d e h _ => (null_step d e h).2) hstart hany

end Desk

end BlizzardBridge
