import BlizzardBridge.ArtnetLink
import BlizzardBridge.Refinement
import BlizzardBridge.UartTorn

/-! From the network to the line. A datagram fills the buffer of the node, the interrupt handler
sends the buffer, and a third device receives the frame. -/
namespace BlizzardBridge
open CArray Program EventMachine

def DeskOutput.effect? : DeskOutput → Option Effect
  | .effect o => some o
  | .datagram _ => none

namespace Desk
variable {d : Desk}

/-- The desk as the line sees it. -/
def line (d : Desk) (e : DeskEvent) : Desk × List Effect :=
  ((d.step e).1, (d.step e).2.filterMap DeskOutput.effect?)

/-- What an event is for the port: its own, or a write to the buffer. -/
def portEvent (d : Desk) : DeskEvent → Event
  | .uart e => e.val
  | e => .setBuffer (d.step e).1.dmx

theorem line_port (d : Desk) (e : DeskEvent) :
    (d.line e).1.portView = (d.portView.step (d.portEvent e)).1 ∧
      (d.line e).2 = (d.portView.step (d.portEvent e)).2 := by
  cases e with
  | uart e =>
    refine ⟨rfl, ?_⟩
    change ((d.portView.step e.val).2.map DeskOutput.effect).filterMap DeskOutput.effect? = _
    rw [List.filterMap_map]
    exact List.filterMap_some
  | sendDMXDatasACN c u =>
    refine ⟨rfl, ?_⟩
    change ((d.sacn.step (.sendDMXDatasACN c u)).2.map DeskOutput.datagram).filterMap _ = []
    rw [List.filterMap_map]
    exact List.filterMap_eq_nil_iff.mpr fun _ _ => rfl
  | _ => exact ⟨rfl, rfl⟩

def portEvents (d : Desk) (es : List DeskEvent) : List Event :=
  linearize line (fun d e => [d.portEvent e]) d es

/-- Every run of the desk is one of the port. -/
theorem refines_port :
    Refines line Port.step (fun _ => True) portView (fun d e => [d.portEvent e]) where
  keep _ _ _ := trivial
  state d e _ := (line_port d e).1.symm
  output d e _ := by
    rw [outputs_cons, outputs_nil, List.append_nil]
    exact (line_port d e).2.symm

theorem along_port {C : Port → Event → Prop} (es : List DeskEvent) :
    Along Port.step C d.portView (d.portEvents es) ↔
      Along line (fun d e => C d.portView (d.portEvent e)) d es := by
  induction es generalizing d with
  | nil => exact Iff.rfl
  | cons e es ih =>
    change C d.portView (d.portEvent e) ∧ Along Port.step C (d.portView.step (d.portEvent e)).1 _ ↔ _
    rw [← (line_port d e).1]
    exact and_congr_right fun _ => ih

/-- The bytes that a run writes to the line. -/
def wire (d : Desk) (es : List DeskEvent) : List UInt8 :=
  (outputs line d es).filterMap fun o => o.written.map Prod.fst

theorem wire_port (d : Desk) (es : List DeskEvent) :
    d.wire es = Port.sentBytes (trace Port.step d.portView (d.portEvents es)) := by
  have hout : outputs Port.step d.portView (d.portEvents es) = outputs line d es :=
    refines_port.outputs_eq trivial es
  rw [wire, ← hout, outputs, List.filterMap_map, Port.sentBytes, Port.writes, List.map_filterMap]
  congr 1
  funext x
  rw [Function.comp_apply, Option.map_map]
  rfl

/-- The middle of a frame: no TX done, no direction call, and no write that changes the buffer. -/
def InFrame (d : Desk) (e : DeskEvent) : Prop := d.portView.InFrame (d.portEvent e)

theorem startByte_exec (hcode : d.port.startByte = 0) (es : List DeskEvent) :
    (exec line d es).port.startByte = 0 := by
  apply exec_invariant (I := fun d : Desk => d.port.startByte = 0) (C := fun _ _ => True) _ hcode
    (along_of_forall (fun _ _ => trivial) d es)
  intro d e hcode _
  have hkeep := Port.startByte_step d.portView (d.portEvent e)
  rw [← (line_port d e).1] at hkeep
  exact hkeep.trans hcode

theorem wire_frame (hstart : d.port.dmxState = .start) (hcode : d.port.startByte = 0)
    (es : List DeskEvent) (hrun : Along line InFrame d es)
    (hask : (exec line d es).portView.AsksTxDone) : d.wire es = 0 :: Port.slotBytes d.dmx 512 := by
  have hport : Along Port.step Port.InFrame d.portView (d.portEvents es) := (along_port es).mpr hrun
  have hexec : exec Port.step d.portView (d.portEvents es) = (exec line d es).portView :=
    refines_port.exec_eq trivial es
  rw [← hexec] at hask
  rw [wire_port]
  exact Port.sentBytes_frame _ hstart hcode hport hask

/-- The interrupts of one frame. -/
def frameEvents : List PortEvent :=
  ⟨.txfifoEmpty, trivial⟩ :: (List.replicate 512 [⟨.txfifoEmpty, trivial⟩, ⟨.shiftOut, trivial⟩]).flatten

theorem portEvents_uart (d : Desk) (es : List PortEvent) :
    d.portEvents (es.map .uart) = es.map Subtype.val := by
  induction es generalizing d with
  | nil => rfl
  | cons e es ih => exact congrArg (e.val :: ·) (ih _)

theorem frameEvents_val : frameEvents.map Subtype.val = .txfifoEmpty :: Port.sendRounds 512 := by
  rw [frameEvents, List.map_cons, List.map_flatten, List.map_replicate]
  rfl

theorem frame_run (hstart : d.port.dmxState = .start) (hena : d.port.enaTxfifoEmpty = true) :
    Along line InFrame d (frameEvents.map .uart) ∧
      (exec line d (frameEvents.map .uart)).portView.AsksTxDone := by
  have hport : d.portEvents (frameEvents.map .uart) = .txfifoEmpty :: Port.sendRounds 512 :=
    (portEvents_uart d frameEvents).trans frameEvents_val
  have hexec : exec Port.step d.portView (d.portEvents (frameEvents.map .uart)) =
      (exec line d (frameEvents.map .uart)).portView := refines_port.exec_eq trivial _
  obtain ⟨hmid, hrest, hask⟩ := Port.frame_run (p := d.portView) hstart hena
  rw [← hexec, hport]
  refine ⟨?_, hask⟩
  apply (along_port (C := Port.InFrame) _).mp
  rw [hport]
  apply along_imp _ (along_and.mpr ⟨hmid, hrest⟩)
  rintro p e ⟨he, hsame⟩
  cases e with
  | setBuffer dmx => exact hsame
  | _ => exact he

/-- Listens to the universe 1, and sends. -/
def bridgeDesk : Desk where
  sacn := SacnDevice.boot (Board.setOwnUniverse 1 startedNode)
  port := exec Port.step (Port.installed (fun _ => 0) 9600) [.changeDirection .send]
  octet := 0

end Desk

theorem store_slotBytes (a dmx : Bytes) {k : ℕ} (hk : 1 ≤ k) (hlast : k ≤ 512) :
    store a 0 (0 :: Port.slotBytes dmx 512) k = dmx k := by
  obtain ⟨n, rfl⟩ : ∃ n, k = n + 1 := ⟨k - 1, by omega⟩
  have hlen : (Port.slotBytes dmx 512).length = 512 := length_take _ _
  have hin : n + 1 < (0 :: Port.slotBytes dmx 512).length := by
    rw [List.length_cons, hlen]
    omega
  have hget : (Port.slotBytes dmx 512)[n]? = some (dmx (n + 1)) := getElem?_take _ (by omega)
  rw [List.getElem?_eq_getElem (by omega)] at hget
  rw [store_of_lt _ _ hin, List.getElem_cons_succ]
  exact Option.some.inj hget

/-- What a fixture holds after a frame. -/
theorem fixture_slots (q : Port) (hreceive : q.txRunning = false) (hfull : q.rxBufferFullFlg = false)
    (dmx : Bytes) :
    SameSlots (exec Port.step q
      (.brkDet :: ((0 :: 0 :: Port.slotBytes dmx 512).map .byte).map Port.serve)).dmxData dmx := by
  have hframe := Port.receive_frame (q := q) (Port.slotBytes dmx 512) (length_take _ _) hreceive hfull
  intro k hk hlast
  rw [hframe.2]
  exact store_slotBytes _ _ hk hlast

theorem SameSlots.symm {a b : Bytes} (h : SameSlots a b) : SameSlots b a :=
  fun k hk hlast => (h k hk hlast).symm

theorem SameSlots.trans {a b c : Bytes} (h : SameSlots a b) (h' : SameSlots b c) : SameSlots a c :=
  fun k hk hlast => (h k hk hlast).trans (h' k hk hlast)

/-- From one node over the network to this one and down the line to a fixture. The frame may come
at any time after the datagram, with other events before and in it, as long as they leave the
buffer alone. The fixture shows the buffer of the first node exactly when the universe is the one
on the wire, or the buffer here held the same slots already. -/
theorem chain_iff (controller : Device) (dir : Direction) (dest : UInt32)
    (history : List (Calls × UInt16 × Bytes)) (dmx : Bytes) (u : UInt16) (c c' : Calls) (p : Pbuf)
    (hsent : .send (take p.payload p.len) ∈ (sendDMXDataArtnet c dest u
      (((controller.startDMXArtnet dir).afterSends dest history).withDmx dmx)).log)
    (d : Desk) (addr : UInt32) (hmutex : c'.mutexTaken = true)
    (hdir : d.sacn.board.artnet.direction = .receive) (hcode : d.port.startByte = 0)
    (es fs : List DeskEvent)
    (hwait : Along Desk.line (Rests Desk.line Desk.dmx) (d.line (.recieveDMXArtnet c' p addr)).1 es)
    (hstart : (exec Desk.line d (.recieveDMXArtnet c' p addr :: es)).port.dmxState = .start)
    (hrun : Along Desk.line Desk.InFrame (exec Desk.line d (.recieveDMXArtnet c' p addr :: es)) fs)
    (hask : (exec Desk.line (exec Desk.line d (.recieveDMXArtnet c' p addr :: es)) fs).portView.AsksTxDone)
    (q : Port) (hreceive : q.txRunning = false) (hfull : q.rxBufferFullFlg = false) :
    SameSlots (exec Port.step q (.brkDet ::
      ((0 :: (exec Desk.line d (.recieveDMXArtnet c' p addr :: es)).wire fs).map .byte).map
        Port.serve)).dmxData dmx ↔
      universeOnWire u = d.sacn.board.ram.ownUniverse.toNat ∨ SameSlots d.dmx dmx := by
  let sender := ((controller.startDMXArtnet dir).afterSends dest history).withDmx dmx
  have hcarries : p.Carries sender u := sent_carries c p controller u dir dest history dmx hsent
  have hbuffer : (exec Desk.line d (.recieveDMXArtnet c' p addr :: es)).dmx =
      if universeOnWire u = d.sacn.board.ram.ownUniverse.toNat then p.dataIn 512 d.dmx else d.dmx := by
    calc (exec Desk.line d (.recieveDMXArtnet c' p addr :: es)).dmx
        = (d.line (.recieveDMXArtnet c' p addr)).1.dmx := rests_exec hwait
      _ = _ := receive_carried c' p addr sender d.sacn.board u hmutex hdir hcarries
  rw [Desk.wire_frame hstart (Desk.startByte_exec hcode _) fs hrun hask, hbuffer]
  have hfixture := fixture_slots q hreceive hfull
  split_ifs with hu
  · have hdata : SameSlots (p.dataIn 512 d.dmx) dmx := (dataIn_sameSlots p sender u hcarries d.dmx).1
    exact iff_of_true ((hfixture _).trans hdata) (Or.inl hu)
  · rw [or_iff_right hu]
    exact ⟨(hfixture d.dmx).symm.trans, (hfixture d.dmx).trans⟩

theorem chain_iff_ten :
    let d := (Desk.bridgeDesk.line (.recieveDMXArtnet allCalls (sentBy tenSender 1) 0)).1
    SameSlots (exec Port.step (Port.installed (fun _ => 0) 9600) (.brkDet ::
      ((0 :: d.wire (Desk.frameEvents.map .uart)).map .byte).map Port.serve)).dmxData fun _ => 10 := by
  intro d
  obtain ⟨hrun, hask⟩ := Desk.frame_run (d := d) rfl rfl
  generalize Desk.frameEvents.map DeskEvent.uart = gs at *
  exact (chain_iff zeroDevice .send 0 [] (fun _ => 10) 1 allCalls allCalls _ (sentBy_sent 1)
    Desk.bridgeDesk 0 rfl rfl rfl [] gs trivial rfl hrun hask _ rfl rfl).mpr (Or.inl rfl)

end BlizzardBridge
