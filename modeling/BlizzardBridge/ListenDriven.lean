import BlizzardBridge.BlizzardListen
import BlizzardBridge.UartRxStream

/-! The task that listens for packets, on the driver with its interrupts: each of its calls
takes many steps, and bytes come between any two of them. -/
namespace BlizzardBridge
open CArray RingBuffer EventMachine

namespace RxObj
variable {cap : ℕ} {s s' : RxObj cap}

/-- Nothing, or an item that comes to the ring buffer. -/
def OnlyArrives (ops : List StreamOp) : Prop := ops = [] ∨ ∃ bytes, ops = [.arrive bytes]

/-- A step of the task in the driver: the call goes on, or it returns what it has got. -/
inductive Moves (s s' : RxObj cap) : List StreamOp → List RxOutput → Prop
  | rest (ops : List StreamOp) (hops : OnlyArrives ops) (hcall : s'.call = s.call)
      (hdone : s'.done = s.done) : Moves s s' ops []
  | drop (hcall : s.call = some .uartFlush) (hcall' : s'.call = some .uartFlush) : Moves s s' [] []
  | copy (length length' : ℕ) (bytes : List UInt8) (hcall : s.call = some (.uartReadBytes length))
      (hcall' : s'.call = some (.uartReadBytes length')) (hdone : s'.done = s.done ++ bytes)
      (hlength : bytes.length + length' = length) : Moves s s' [] []
  | read (length : ℕ) (hcall : s.call = some (.uartReadBytes length)) (hcall' : s'.call = none)
      (hdone : s'.done = []) : Moves s s' [.call (.uartReadBytes (s.done.length + length))]
        [.read (s.done.length + length) s.done]
  | flush (hcall : s.call = some .uartFlush) (hcall' : s'.call = none) (hdone : s'.done = []) :
      Moves s s' [.call .uartFlush] [.flushed s.done]

theorem onlyArrives_pushed (s : RxObj cap) (bytes : List UInt8) : OnlyArrives (s.pushed bytes) := by
  rcases pushed_cases s bytes with ⟨_, _, _, hpushed⟩ | ⟨_, hpushed⟩
  · exact Or.inr ⟨bytes, hpushed⟩
  · exact Or.inl hpushed

theorem onlyArrives_rxfifo (s : RxObj cap) : OnlyArrives (s.lin .rxfifo) := by
  unfold lin
  dsimp only
  split_ifs
  · exact onlyArrives_pushed s s.fifo
  · exact Or.inl rfl

theorem rxfifo_call (s : RxObj cap) : (s.next .rxfifo).1.call = s.call ∧ (s.next .rxfifo).1.done = s.done := by
  unfold next isrRxfifo
  dsimp only
  split_ifs
  · exact ⟨rfl, rfl⟩
  · cases s.ring.send s.fifo <;> exact ⟨rfl, rfl⟩
  · exact ⟨rfl, rfl⟩

theorem moves_none (hcall : s'.call = s.call) (hdone : s'.done = s.done) : Moves s s' [] [] :=
  Moves.rest [] (Or.inl rfl) hcall hdone

theorem moves_readLoop {length : ℕ} (hcall : s.call = some (.uartReadBytes length)) (k : ℕ) :
    Moves s (s.readLoop length k).1 (if length = 0 ∨ s.cur = [] ∧ s.ring.queue = [] then
      [.call (.uartReadBytes (s.done.length + length))] else []) (s.readLoop length k).2 := by
  unfold readLoop
  split_ifs with hend hcur
  · exact Moves.read length hcall rfl rfl
  · exact moves_none rfl rfl
  · have hlength : (s.cur.take length).length + (length - s.cur.length) = length := by
      rw [List.length_take]
      omega
    unfold copyOut
    dsimp only
    split_ifs
    · exact Moves.copy length _ _ hcall rfl rfl hlength
    · exact Moves.copy length _ _ hcall rfl rfl hlength

theorem moves_resend : Moves s s.resend (if s.rxBufferFullFlg then s.pushed s.rxStash else []) [] := by
  unfold resend
  split_ifs with hfull
  · apply Moves.rest _ (onlyArrives_pushed s s.rxStash)
    · cases s.ring.send s.rxStash <;> rfl
    · cases s.ring.send s.rxStash <;> rfl
  · exact moves_none rfl rfl

theorem moves_taskStep (h : s.Inv) (k : ℕ) :
    Moves s (s.taskStep k).1 (s.lin (.task k)) (s.taskStep k).2 := by
  unfold lin taskStep
  cases hpoint : s.point with
  | loop =>
    cases hcall : s.call with
    | none => exact moves_none rfl rfl
    | some c =>
      cases c with
      | uartReadBytes length => exact moves_readLoop hcall k
      | uartFlush =>
        apply Moves.drop hcall
        change s.flushHead.call = _
        unfold flushHead
        split_ifs
        · exact hcall
        · exact hcall
  | receive =>
    have hcall := h.flush (Or.inl hpoint)
    apply Moves.drop hcall
    dsimp only
    unfold flushReceive
    split_ifs
    · exact hcall
    · exact hcall
  | giveBack => exact moves_none rfl rfl
  | item => exact moves_resend
  | sent => exact moves_none rfl rfl
  | counted => exact moves_none rfl rfl
  | cleared => exact moves_none rfl rfl
  | leave => exact Moves.flush (h.flush (Or.inr (Or.inr hpoint))) rfl rfl

end RxObj

/-- The task and the driver that it calls. `rx` is `BLIZZARD._rx` and the memory behind it. -/
structure ListenTask (cap : ℕ) where
  obj : RxObj cap
  rx : Bytes
  next : ListenCall

/-- A byte from the line, an interrupt, the next call, or the next step of the call that runs. -/
inductive ListenStep where
  | arrive (byte : UInt8)
  | rxfifo
  | rxfifoOvf
  | call (locked : Bool)
  | task (k : ℕ)
  deriving DecidableEq, Repr

/-- The call of the driver; the count of the data is read from the header. -/
def ListenCall.rxCall (rx : Bytes) : ListenCall → RxCall
  | .flush => .uartFlush
  | .header => .uartReadBytes HEADER_SIZE
  | .data => .uartReadBytes ((rx 4).toNat + 256 * (rx 5).toNat)

/-- Where a read stores what it gets. -/
def ListenCall.offset : ListenCall → ℕ
  | .data => HEADER_SIZE
  | _ => 0

namespace ListenTask
variable {cap : ℕ}

def installed (cap : ℕ) (rx : Bytes) : ListenTask cap := ⟨RxObj.installed cap, rx, .flush⟩

-- A flush waits for the semaphore as long as it takes.
def startCall (locked : Bool) (s : ListenTask cap) : ListenTask cap :=
  if s.obj.call ≠ none then s
  else if locked = false ∧ s.next ≠ .flush then { s with next := .flush }
  else { s with obj := (s.obj.next (.call (s.next.rxCall s.rx))).1 }

/-- The task with the result of its call. -/
def returned (ret : ℕ) (s : ListenTask cap) : ListenTask cap × List ListenOutput :=
  match s.next with
  | .flush => ({ s with next := .header }, [])
  | .header =>
    if ret ≠ HEADER_SIZE then ({ s with next := .flush }, [.stored 0 ret])
    else if take s.rx 3 = ascii ['C', 'A', 'K'] then ({ s with next := .data }, [.stored 0 ret])
    else ({ s with next := .flush }, [.stored 0 ret])
  | .data => ({ s with next := .flush }, [.stored HEADER_SIZE ret, .handle])

/-- What a step of a read has copied stands in the packet at once. -/
def copied (done : List UInt8) (s : ListenTask cap) : Bytes :=
  if s.next = .flush then s.rx
  else store s.rx (s.next.offset + s.obj.done.length) (done.drop s.obj.done.length)

def taskStep (k : ℕ) (s : ListenTask cap) : ListenTask cap × List ListenOutput :=
  let r := s.obj.taskStep k
  let s' := { s with obj := r.1, rx := s.copied r.1.done }
  match r.2 with
  | [] => (s', [])
  | .read _ bytes :: _ => s'.returned bytes.length
  | .flushed _ :: _ => s'.returned 0

def step (s : ListenTask cap) : ListenStep → ListenTask cap × List ListenOutput
  | .arrive byte => ({ s with obj := (s.obj.next (.arrive byte)).1 }, [])
  | .rxfifo => ({ s with obj := (s.obj.next .rxfifo).1 }, [])
  | .rxfifoOvf => ({ s with obj := (s.obj.next .rxfifoOvf).1 }, [])
  | .call locked => (s.startCall locked, [])
  | .task k => s.taskStep k

end ListenTask

/-- What the task of `Listener` sees of it: an item, or a call that has returned. -/
def StreamOp.listenEvent : StreamOp → ListenEvent
  | .arrive bytes => .arrive bytes
  | .call _ => .call true

namespace ListenTask
variable {cap : ℕ}

def lin (s : ListenTask cap) : ListenStep → List ListenEvent
  | .arrive byte => (s.obj.lin (.arrive byte)).map StreamOp.listenEvent
  | .rxfifo => (s.obj.lin .rxfifo).map StreamOp.listenEvent
  | .rxfifoOvf => (s.obj.lin .rxfifoOvf).map StreamOp.listenEvent
  | .call locked =>
    if s.obj.call = none ∧ locked = false ∧ s.next ≠ .flush then [.call false] else []
  | .task k => (s.obj.lin (.task k)).map StreamOp.listenEvent

/-- The bytes that the handler takes from the FIFO with an event. -/
def taken (s : ListenTask cap) : ListenStep → List UInt8
  | .rxfifo => s.obj.taken .rxfifo
  | _ => []

/-- The call that runs is the one that the task has made, with the bytes that it still wants. -/
def Calls (a : Listener) (s : ListenTask cap) : Prop :=
  ∀ c, s.obj.call = some c →
    match c with
    | .uartFlush => s.next = .flush
    | .uartReadBytes length =>
      s.next ≠ .flush ∧ s.next.rxCall a.rx = .uartReadBytes (s.obj.done.length + length)

/-- The task with each call in one go has not seen what a running read has copied. -/
structure Follows (s : ListenTask cap) (a : Listener) : Prop where
  inv : s.obj.Inv
  next : s.next = a.next
  unread : s.obj.unread = a.unread
  rx : s.rx = if s.next = .flush then a.rx else store a.rx s.next.offset s.obj.done
  calls : s.Calls a

section follows
variable {s : ListenTask cap} {a : Listener}

/-- What comes to the ring buffer changes nothing else. -/
theorem listen_onlyArrives (a : Listener) {ops : List StreamOp} (h : RxObj.OnlyArrives ops) :
    (exec Listener.listen a (ops.map StreamOp.listenEvent)).rx = a.rx ∧
      (exec Listener.listen a (ops.map StreamOp.listenEvent)).next = a.next ∧
      (exec Listener.listen a (ops.map StreamOp.listenEvent)).unread = exec stream a.unread ops ∧
      outputs Listener.listen a (ops.map StreamOp.listenEvent) = [] := by
  rcases h with rfl | ⟨bytes, rfl⟩
  · exact ⟨rfl, rfl, rfl, rfl⟩
  · refine ⟨rfl, rfl, ?_, rfl⟩
    change a.cur ++ (a.ring ++ [bytes]).flatten = a.cur ++ a.ring.flatten ++ bytes
    rw [List.flatten_append, List.flatten_singleton, List.append_assoc]

/-- A step of the driver in which the call stands still. -/
theorem follows_rest (h : Follows s a) {e : RxEvent} {ops : List StreamOp} {r : RxObj cap × List RxOutput}
    (hr : s.obj.next e = r) (hsim : RxObj.Simulates s.obj ops r) (hops : RxObj.OnlyArrives ops)
    (hcall : r.1.call = s.obj.call) (hdone : r.1.done = s.obj.done) :
    Follows { s with obj := r.1 } (exec Listener.listen a (ops.map StreamOp.listenEvent)) := by
  obtain ⟨hrx, hnext, hunread, _⟩ := listen_onlyArrives a hops
  refine ⟨?_, ?_, ?_, ?_, ?_⟩
  · rw [← hr]
    exact RxObj.inv_next h.inv e
  · exact h.next.trans hnext.symm
  · calc r.1.unread = exec stream s.obj.unread ops := hsim.1.symm
      _ = exec stream a.unread ops := by rw [h.unread]
      _ = _ := hunread.symm
  · dsimp only
    rw [hrx, hdone]
    exact h.rx
  · intro c hc
    have hcalls := h.calls c (hcall.symm.trans hc)
    dsimp only
    rw [hrx, hdone]
    exact hcalls

theorem follows_read (h : Follows s a) {r : RxObj cap} (hinv : r.Inv) {length length' : ℕ}
    {bytes : List UInt8} (hcall : s.obj.call = some (.uartReadBytes length))
    (hcall' : r.call = some (.uartReadBytes length')) (hdone : r.done = s.obj.done ++ bytes)
    (hlength : bytes.length + length' = length) (hunread : r.unread = s.obj.unread) :
    Follows { s with obj := r, rx := s.copied r.done } a := by
  obtain ⟨hreads, hwanted⟩ := h.calls _ hcall
  refine ⟨hinv, h.next, hunread.trans h.unread, ?_, ?_⟩
  · have hrx := h.rx
    rw [if_neg hreads] at hrx
    dsimp only
    rw [if_neg hreads, copied, if_neg hreads, hdone, List.drop_left, hrx]
    exact (store_append a.rx s.next.offset s.obj.done bytes).symm
  · intro c hc
    obtain rfl := Option.some_inj.mp (hcall'.symm.trans hc)
    refine ⟨hreads, ?_⟩
    dsimp only
    rw [hdone, hwanted, List.length_append, ← hlength, Nat.add_assoc]

/-- What a read in one go makes of the packet, when it gets `bytes`. -/
theorem readInto_bytes {i n : ℕ} {bytes : List UInt8} (h : a.unread.take n = bytes) :
    (a.readInto i n).1.rx = store a.rx i bytes ∧ (a.readInto i n).2 = bytes.length := by
  have hread : (uartReadBytes a.ring a.cur n).1 = bytes :=
    (uartReadBytes_eq a.ring a.cur n).1.trans h
  constructor
  · rw [← hread]
    rfl
  · rw [← hread]
    rfl

theorem listen_header (h : a.next = .header) : a.listen (.call true) =
    if (a.readInto 0 HEADER_SIZE).2 ≠ HEADER_SIZE then
      ({ (a.readInto 0 HEADER_SIZE).1 with next := .flush }, [.stored 0 (a.readInto 0 HEADER_SIZE).2])
    else if (a.readInto 0 HEADER_SIZE).1.HasHeader then
      ({ (a.readInto 0 HEADER_SIZE).1 with next := .data }, [.stored 0 (a.readInto 0 HEADER_SIZE).2])
    else
      ({ (a.readInto 0 HEADER_SIZE).1 with next := .flush },
        [.stored 0 (a.readInto 0 HEADER_SIZE).2]) := by
  unfold Listener.listen
  dsimp only
  rw [h]
  rfl

theorem listen_data (h : a.next = .data) : a.listen (.call true) =
    ({ (a.readInto HEADER_SIZE a.dataCount).1 with next := .flush },
      [.stored HEADER_SIZE (a.readInto HEADER_SIZE a.dataCount).2, .handle]) := by
  unfold Listener.listen
  dsimp only
  rw [h]
  rfl

theorem follows_idle {r : RxObj cap} (hinv : r.Inv) (hcall : r.call = none) {t : Listener}
    (hunread : r.unread = t.unread) : Follows ⟨r, t.rx, t.next⟩ t := by
  have hdone : r.done = [] := (hinv.idle hcall).2
  refine ⟨hinv, rfl, hunread, ?_, ?_⟩
  · dsimp only
    rw [hdone, store_nil, ite_self]
  · intro c hc
    exact absurd (hcall.symm.trans hc) nofun

/-- A read that returns has got the bytes that a read in one go gets, and has put them there. -/
theorem follows_returned_read (h : Follows s a) {r : RxObj cap} (hinv : r.Inv) {length : ℕ}
    (hcall : s.obj.call = some (.uartReadBytes length)) (hcall' : r.call = none)
    (hsim : RxObj.Simulates s.obj [.call (.uartReadBytes (s.obj.done.length + length))]
      (r, [.read (s.obj.done.length + length) s.obj.done])) :
    Follows (returned s.obj.done.length { s with obj := r }).1 (a.listen (.call true)).1 ∧
      (a.listen (.call true)).2 = (returned s.obj.done.length { s with obj := r }).2 := by
  obtain ⟨hreads, hwanted⟩ := h.calls _ hcall
  have hrx := h.rx
  rw [if_neg hreads] at hrx
  obtain ⟨hunread, hout⟩ := hsim
  have hdone : a.unread.take (s.obj.done.length + length) = s.obj.done := by
    have hread := (List.cons.inj hout).1
    injection hread with _ hbytes
    rw [← h.unread]
    exact hbytes
  have hrest : r.unread = a.unread.drop (s.obj.done.length + length) := by
    rw [← h.unread]
    exact hunread.symm
  have hidle {i n : ℕ} (hi : s.next.offset = i) (hn : n = s.obj.done.length + length)
      (next : ListenCall) : Follows ⟨r, s.rx, next⟩ { (a.readInto i n).1 with next := next } := by
    subst hi hn
    let t : Listener := { (a.readInto s.next.offset (s.obj.done.length + length)).1 with next := next }
    have hsame : s.rx = t.rx := hrx.trans (readInto_bytes hdone).1.symm
    have hleft : r.unread = t.unread :=
      hrest.trans (Listener.readInto_unread a s.next.offset (s.obj.done.length + length)).symm
    rw [hsame]
    exact follows_idle hinv hcall' hleft
  cases hnext : s.next with
  | flush => exact absurd hnext hreads
  | header =>
    rw [hnext] at hrx hwanted
    have hsize : HEADER_SIZE = s.obj.done.length + length := by injection hwanted
    obtain ⟨hstored, hcount⟩ := readInto_bytes (a := a) (i := 0) (hsize ▸ hdone)
    have hfollows := hidle (i := 0) (by rw [hnext]; rfl) hsize
    have hcak : (a.readInto 0 HEADER_SIZE).1.HasHeader ↔ take s.rx 3 = ascii ['C', 'A', 'K'] := by
      rw [Listener.HasHeader, hstored, hrx]
      rfl
    rw [listen_header (h.next.symm.trans hnext), hcount]
    unfold returned
    dsimp only
    by_cases hshort : s.obj.done.length ≠ HEADER_SIZE
    · rw [if_pos hshort, if_pos hshort]
      exact ⟨hfollows .flush, rfl⟩
    · rw [if_neg hshort, if_neg hshort]
      by_cases hheader : take s.rx 3 = ascii ['C', 'A', 'K']
      · rw [if_pos hheader, if_pos (hcak.mpr hheader)]
        exact ⟨hfollows .data, rfl⟩
      · rw [if_neg hheader, if_neg (hcak.not.mpr hheader)]
        exact ⟨hfollows .flush, rfl⟩
  | data =>
    rw [hnext] at hrx hwanted
    have hsize : a.dataCount = s.obj.done.length + length := by injection hwanted
    obtain ⟨_, hcount⟩ := readInto_bytes (a := a) (i := HEADER_SIZE) (hsize ▸ hdone)
    have hfollows := hidle (i := HEADER_SIZE) (by rw [hnext]; rfl) hsize .flush
    rw [listen_data (h.next.symm.trans hnext), hcount]
    exact ⟨hfollows, rfl⟩

theorem follows_returned_flush (h : Follows s a) {r : RxObj cap} (hinv : r.Inv)
    (hcall : s.obj.call = some .uartFlush) (hcall' : r.call = none) (hunread : r.unread = []) :
    Follows (returned 0 { s with obj := r }).1 (a.listen (.call true)).1 ∧
      (a.listen (.call true)).2 = (returned 0 { s with obj := r }).2 := by
  have hflush : s.next = .flush := h.calls _ hcall
  have hrx := h.rx
  rw [if_pos hflush] at hrx
  have hlisten : a.listen (.call true) = ({ a.uartFlush with next := .header }, []) := by
    unfold Listener.listen
    dsimp only
    rw [← h.next, hflush]
  have hreturned : returned 0 { s with obj := r } = (⟨r, s.rx, .header⟩, []) := by
    unfold returned
    dsimp only
    rw [hflush]
  rw [hlisten, hreturned, hrx]
  exact ⟨follows_idle (t := { a.uartFlush with next := .header }) hinv hcall' hunread, rfl⟩

/-- One step of a call, whatever it does. -/
theorem follows_taskStep (h : Follows s a) (k : ℕ) :
    Follows (s.taskStep k).1 (exec Listener.listen a (s.lin (.task k))) ∧
      outputs Listener.listen a (s.lin (.task k)) = (s.taskStep k).2 := by
  have hinv : (s.obj.taskStep k).1.Inv := RxObj.inv_next h.inv (.task k)
  have hsim := RxObj.simulates_taskStep h.inv k
  have hmoves := RxObj.moves_taskStep h.inv k
  have hnext : s.obj.next (.task k) = s.obj.taskStep k := rfl
  change Follows (s.taskStep k).1
    (exec Listener.listen a ((s.obj.lin (.task k)).map StreamOp.listenEvent)) ∧
      outputs Listener.listen a ((s.obj.lin (.task k)).map StreamOp.listenEvent) = _
  unfold taskStep
  generalize s.obj.lin (.task k) = ops at hsim hmoves ⊢
  generalize hr : s.obj.taskStep k = r at hnext hinv hsim hmoves ⊢
  obtain ⟨r, out⟩ := r
  dsimp only at hinv hmoves ⊢
  cases hmoves with
  | rest ops hops hcall hdone =>
    have hsame : s.copied r.done = s.rx := by
      rw [copied, hdone, List.drop_length, store_nil, ite_self]
    rw [hsame]
    exact ⟨follows_rest h hnext hsim hops hcall hdone, (listen_onlyArrives a hops).2.2.2⟩
  | drop hcall hcall' =>
    have hflush : s.next = .flush := h.calls _ hcall
    have hsame : s.copied r.done = s.rx := if_pos hflush
    rw [hsame]
    refine ⟨⟨hinv, h.next, hsim.1.symm.trans h.unread, ?_, ?_⟩, rfl⟩
    · have hrx := h.rx
      rw [if_pos hflush] at hrx
      exact hrx.trans (if_pos hflush).symm
    · intro c hc
      obtain rfl := Option.some_inj.mp (hcall'.symm.trans hc)
      exact hflush
  | copy length length' bytes hcall hcall' hdone hlength =>
    exact ⟨follows_read h hinv hcall hcall' hdone hlength hsim.1.symm, rfl⟩
  | read length hcall hcall' hdone =>
    have hsame : s.copied r.done = s.rx := by
      rw [copied, hdone, List.drop_nil, store_nil, ite_self]
    have hreturned := follows_returned_read h hinv hcall hcall' hsim
    rw [hsame]
    refine ⟨hreturned.1, ?_⟩
    exact (outputs_singleton _ _ _).trans hreturned.2
  | flush hcall hcall' hdone =>
    have hflush : s.next = .flush := h.calls _ hcall
    have hsame : s.copied r.done = s.rx := if_pos hflush
    have hreturned := follows_returned_flush h hinv hcall hcall' hsim.1.symm
    rw [hsame]
    exact ⟨hreturned.1, (outputs_singleton _ _ _).trans hreturned.2⟩

theorem follows_startCall (h : Follows s a) (locked : Bool) :
    Follows (s.startCall locked) (exec Listener.listen a (s.lin (.call locked))) ∧
      outputs Listener.listen a (s.lin (.call locked)) = [] := by
  unfold startCall lin
  dsimp only
  by_cases hcall : s.obj.call = none
  · obtain ⟨_, hdone⟩ := h.inv.idle hcall
    have hrx : s.rx = a.rx := by
      have hrx := h.rx
      rw [hdone, store_nil, ite_self] at hrx
      exact hrx
    rw [if_neg (not_not.mpr hcall)]
    by_cases hfails : locked = false ∧ s.next ≠ .flush
    · have hlisten : a.listen (.call false) = ({ a with next := .flush }, []) := by
        have hreads := h.next ▸ hfails.2
        unfold Listener.listen
        dsimp only
        cases hnext : a.next with
        | flush => exact absurd hnext hreads
        | header => rfl
        | data => rfl
      rw [if_pos hfails, if_pos ⟨hcall, hfails⟩, outputs_singleton, exec_cons, exec_nil, hlisten, hrx]
      exact ⟨follows_idle (t := { a with next := .flush }) h.inv hcall h.unread, rfl⟩
    · have hnone : ¬ (s.obj.call = none ∧ locked = false ∧ s.next ≠ .flush) := fun hand => hfails hand.2
      have hobj : (s.obj.next (.call (s.next.rxCall s.rx))).1 = s.obj.start (s.next.rxCall s.rx) := if_pos hcall
      rw [if_neg hfails, if_neg hnone, hobj]
      refine ⟨⟨?_, h.next, h.unread, ?_, ?_⟩, rfl⟩
      · exact RxObj.inv_start h.inv _ hcall
      · exact h.rx
      · intro c hc
        obtain rfl := Option.some_inj.mp hc
        change match s.next.rxCall s.rx with
          | .uartFlush => s.next = .flush
          | .uartReadBytes length =>
            s.next ≠ .flush ∧ s.next.rxCall a.rx = .uartReadBytes (s.obj.done.length + length)
        rw [hrx, hdone, List.length_nil]
        cases hnext : s.next with
        | flush => rfl
        | header => exact ⟨nofun, by rw [Nat.zero_add]; rfl⟩
        | data => exact ⟨nofun, by rw [Nat.zero_add]; rfl⟩
  · have hnone : ¬ (s.obj.call = none ∧ locked = false ∧ s.next ≠ .flush) := fun hand => hcall hand.1
    rw [if_pos hcall, if_neg hnone]
    exact ⟨h, rfl⟩

theorem follows_interrupt (h : Follows s a) {e : RxEvent} (hops : RxObj.OnlyArrives (s.obj.lin e))
    (hcall : (s.obj.next e).1.call = s.obj.call) (hdone : (s.obj.next e).1.done = s.obj.done)
    :
    Follows { s with obj := (s.obj.next e).1 }
        (exec Listener.listen a ((s.obj.lin e).map StreamOp.listenEvent)) ∧
      outputs Listener.listen a ((s.obj.lin e).map StreamOp.listenEvent) = [] :=
  ⟨follows_rest h rfl (RxObj.simulates_next h.inv e) hops hcall hdone, (listen_onlyArrives a hops).2.2.2⟩

end follows

/-- With interrupts between any two steps the task does what it does when each of its calls
takes one step. -/
theorem tracks_listen : Tracks step Listener.listen (@Follows cap) lin := by
  have hnext (s : ListenTask cap) (a : Listener) (e : ListenStep) (h : Follows s a) :
      Follows (s.step e).1 (exec Listener.listen a (s.lin e)) ∧
        outputs Listener.listen a (s.lin e) = (s.step e).2 := by
    cases e with
    | arrive byte =>
      apply follows_interrupt h (Or.inl rfl)
      · unfold RxObj.next RxObj.arrive
        dsimp only
        split_ifs <;> rfl
      · unfold RxObj.next RxObj.arrive
        dsimp only
        split_ifs <;> rfl
    | rxfifo =>
      obtain ⟨hcall, hdone⟩ := RxObj.rxfifo_call s.obj
      exact follows_interrupt h (RxObj.onlyArrives_rxfifo s.obj) hcall hdone
    | rxfifoOvf => exact follows_interrupt h (Or.inl rfl) rfl rfl
    | call locked => exact follows_startCall h locked
    | task k => exact follows_taskStep h k
  exact ⟨fun s a e h => (hnext s a e h).1, fun s a e h => (hnext s a e h).2⟩

theorem follows_installed (cap : ℕ) (rx : Bytes) :
    Follows (installed cap rx) ⟨rx, [], [], [], .flush⟩ :=
  follows_idle (t := ⟨rx, [], [], [], .flush⟩) RxObj.inv_installed rfl rfl

/-- The events of the driver alone. -/
def driven (s : ListenTask cap) : ListenStep → List RxEvent
  | .arrive byte => [.arrive byte]
  | .rxfifo => [.rxfifo]
  | .rxfifoOvf => [.rxfifoOvf]
  | .call locked =>
    if s.obj.call ≠ none ∨ locked = false ∧ s.next ≠ .flush then [] else [.call (s.next.rxCall s.rx)]
  | .task k => [.task k]

theorem returned_obj (ret : ℕ) (s : ListenTask cap) : (s.returned ret).1.obj = s.obj := by
  unfold returned
  split
  · rfl
  · split_ifs <;> rfl
  · rfl

theorem step_obj (s : ListenTask cap) (e : ListenStep) :
    (s.step e).1.obj = exec RxObj.next s.obj (s.driven e) := by
  cases e with
  | arrive byte => rfl
  | rxfifo => rfl
  | rxfifoOvf => rfl
  | call locked =>
    change (s.startCall locked).obj = exec RxObj.next s.obj
      (if s.obj.call ≠ none ∨ locked = false ∧ s.next ≠ .flush then [] else _)
    unfold startCall
    by_cases hcall : s.obj.call ≠ none
    · rw [if_pos hcall, if_pos (Or.inl hcall)]
      rfl
    · by_cases hfails : locked = false ∧ s.next ≠ .flush
      · rw [if_neg hcall, if_pos hfails, if_pos (Or.inr hfails)]
        rfl
      · rw [if_neg hcall, if_neg hfails, if_neg (not_or.mpr ⟨hcall, hfails⟩)]
        rfl
  | task k =>
    change (s.taskStep k).1.obj = (s.obj.taskStep k).1
    unfold taskStep
    dsimp only
    split
    · rfl
    · exact returned_obj _ _
    · exact returned_obj _ _

theorem exec_obj (s : ListenTask cap) (es : List ListenStep) :
    (exec step s es).obj = exec RxObj.next s.obj (linearize step driven s es) := by
  induction es generalizing s with
  | nil => rfl
  | cons e es ih => rw [exec_cons, ih, linearize, exec_append, step_obj]

theorem inv_step {s : ListenTask cap} (h : s.obj.Inv) (e : ListenStep) : (s.step e).1.obj.Inv := by
  rw [step_obj]
  exact RxObj.inv_exec h _

theorem flatMap_arrived (ops : List StreamOp) :
    (ops.map StreamOp.listenEvent).flatMap Listener.arrived = ops.flatMap StreamOp.bytes := by
  rw [List.flatMap_map]
  congr
  funext op
  cases op <;> rfl

/-- What the handler takes from the FIFO comes to the task, or waits for room. -/
theorem conserve_step {s : ListenTask cap} (h : s.obj.Inv) (e : ListenStep) :
    s.obj.kept ++ s.taken e = (s.lin e).flatMap Listener.arrived ++ (s.step e).1.obj.kept := by
  have hother {e : RxEvent} (hnone : e ≠ .rxfifo) : s.obj.kept ++ [] =
      ((s.obj.lin e).map StreamOp.listenEvent).flatMap Listener.arrived ++ (s.obj.next e).1.kept := by
    have htaken : s.obj.taken e = [] := if_neg fun hand => hnone hand.1
    rw [flatMap_arrived, ← htaken]
    exact RxObj.conserve_next h e
  cases e with
  | arrive byte => exact hother nofun
  | rxfifo =>
    rw [lin, flatMap_arrived]
    exact RxObj.conserve_next h .rxfifo
  | rxfifoOvf => exact hother nofun
  | call locked =>
    have hsame : (s.step (.call locked)).1.obj.kept = s.obj.kept := by
      rw [step_obj]
      unfold driven
      dsimp only
      split_ifs
      · rfl
      · have hkept := RxObj.conserve_next h (.call (s.next.rxCall s.rx))
        have htaken : s.obj.taken (.call (s.next.rxCall s.rx)) = [] := if_neg nofun
        rw [htaken, List.append_nil] at hkept
        exact hkept.symm
    have hnone : (s.lin (.call locked)).flatMap Listener.arrived = [] := by
      unfold lin
      dsimp only
      split_ifs <;> rfl
    rw [hsame, hnone, List.nil_append]
    exact List.append_nil _
  | task k =>
    rw [step_obj]
    exact hother nofun

/-- In every run, with interrupts between any two steps of a call, the task stores and handles
what it does when each call is one step; and the bytes that the handler has taken from the
FIFO are those that the calls have taken, those that can be read, and those kept back, in order. -/
theorem listen_driven (cap : ℕ) (rx : Bytes) (es : List ListenStep) :
    let s := exec step (installed cap rx) es
    let ops := linearize step lin (installed cap rx) es
    let a := exec Listener.listen ⟨rx, [], [], [], .flush⟩ ops
    outputs step (installed cap rx) es = outputs Listener.listen ⟨rx, [], [], [], .flush⟩ ops ∧
      (s.obj.call = none → s.rx = a.rx ∧ s.next = a.next) ∧
      linearize step taken (installed cap rx) es = a.taken ++ s.obj.unread ++ s.obj.kept := by
  intro s ops a
  have hstart := follows_installed cap rx
  have hend : Follows s a := tracks_listen.exec_rel hstart es
  refine ⟨(tracks_listen.outputs_eq hstart es).symm, ?_, ?_⟩
  · intro hcall
    have hrx := hend.rx
    rw [(hend.inv.idle hcall).2, store_nil, ite_self] at hrx
    exact ⟨hrx, hend.next⟩
  · have hkept : (installed cap rx).obj.kept = [] := RxObj.kept_of_not_full rfl
    have hall := linearize_conserve (c := step) (I := fun s : ListenTask cap => s.obj.Inv)
      (f := taken) (g := fun s e => (s.lin e).flatMap Listener.arrived) (k := fun s => s.obj.kept)
      (fun s e h => inv_step h e) (fun s e h => conserve_step h e) hstart.inv es
    have hbytes : ops.flatMap Listener.arrived = a.taken ++ a.unread :=
      (Listener.exec_stream ⟨rx, [], [], [], .flush⟩ ops).symm
    calc linearize step taken (installed cap rx) es
        = linearize step (fun s e => (s.lin e).flatMap Listener.arrived) (installed cap rx) es ++
            s.obj.kept := by
          rw [hkept, List.nil_append] at hall
          exact hall
      _ = ops.flatMap Listener.arrived ++ s.obj.kept := by rw [flatMap_linearize]
      _ = a.taken ++ s.obj.unread ++ s.obj.kept := by rw [hbytes, hend.unread]

end ListenTask

end BlizzardBridge
