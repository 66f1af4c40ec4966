import BlizzardBridge.UartRxPath

/-! What the receiving side is for: `uart_read_bytes` and `uart_flush` take from one stream
of bytes. -/
namespace BlizzardBridge
open RingBuffer EventMachine

/-- What the two calls are for: a stream of bytes, from which a call takes in one go. -/
inductive StreamOp where
  | arrive (bytes : List UInt8)
  | call (c : RxCall)
  deriving DecidableEq, Repr

def stream (unread : List UInt8) : StreamOp → List UInt8 × List RxOutput
  | .arrive bytes => (unread ++ bytes, [])
  | .call (.uartReadBytes length) => (unread.drop length, [.read length (unread.take length)])
  | .call .uartFlush => ([], [.flushed unread])

def StreamOp.bytes : StreamOp → List UInt8
  | .arrive bytes => bytes
  | .call _ => []

namespace RxObj
variable {cap : ℕ} {s : RxObj cap}

/-- What has come to the ring buffer and has not left the driver with a call. -/
def unread (s : RxObj cap) : List UInt8 := s.done ++ s.cur ++ s.ring.queue

/-- The bytes that the handler takes from the FIFO with an event. -/
def taken (s : RxObj cap) (e : RxEvent) : List UInt8 :=
  if e = .rxfifo ∧ s.Raised ∧ s.rxBufferFullFlg = false then s.fifo else []

/-- The bytes that wait for room in the ring buffer. -/
def kept (s : RxObj cap) : List UInt8 :=
  if s.rxBufferFullFlg = true ∧ s.point ≠ .sent ∧ s.point ≠ .counted then s.rxStash else []

def pushed (s : RxObj cap) (bytes : List UInt8) : List StreamOp :=
  if (s.ring.send bytes).isSome then [.arrive bytes] else []

/-- A read gives up what it has copied when it returns, and a flush what it has dropped. -/
def lin (s : RxObj cap) : RxEvent → List StreamOp
  | .rxfifo => if s.Raised ∧ s.rxBufferFullFlg = false then s.pushed s.fifo else []
  | .task _ =>
    match s.point with
    | .loop =>
      match s.call with
      | some (.uartReadBytes length) =>
        if length = 0 ∨ s.cur = [] ∧ s.ring.queue = [] then
          [.call (.uartReadBytes (s.done.length + length))]
        else []
      | _ => []
    | .item => if s.rxBufferFullFlg then s.pushed s.rxStash else []
    | .leave => [.call .uartFlush]
    | _ => []
  | _ => []

/-- A step of the driver, and what the stream does meanwhile. -/
def Simulates (s : RxObj cap) (ops : List StreamOp) (r : RxObj cap × List RxOutput) : Prop :=
  exec stream s.unread ops = r.1.unread ∧ outputs stream s.unread ops = r.2

theorem simulates_none {s' : RxObj cap} (h : s'.unread = s.unread) : Simulates s [] (s', []) :=
  ⟨h.symm, rfl⟩

theorem pushed_cases (s : RxObj cap) (bytes : List UInt8) :
    (∃ ring, s.ring.send bytes = some ring ∧ ring.queue = s.ring.queue ++ bytes ∧
      s.pushed bytes = [.arrive bytes]) ∨ s.ring.send bytes = none ∧ s.pushed bytes = [] := by
  rcases Ring.send_cases s.ring bytes with ⟨ring, hsend, hqueue, _⟩ | ⟨hsend, _⟩
  · refine Or.inl ⟨ring, hsend, hqueue, if_pos ?_⟩
    rw [hsend]
    rfl
  · refine Or.inr ⟨hsend, if_neg ?_⟩
    rw [hsend]
    simp

theorem simulates_isrRxfifo (hraised : s.Raised) : Simulates s (s.lin .rxfifo) (s.isrRxfifo, []) := by
  unfold lin isrRxfifo
  dsimp only
  cases hfull : s.rxBufferFullFlg with
  | true =>
    rw [if_neg (by simp), if_pos rfl]
    exact simulates_none rfl
  | false =>
    rw [if_pos ⟨hraised, rfl⟩, if_neg (by simp)]
    rcases pushed_cases s s.fifo with ⟨ring, hsend, hqueue, hpushed⟩ | ⟨hsend, hpushed⟩
    · rw [hsend, hpushed]
      refine ⟨?_, rfl⟩
      change s.unread ++ s.fifo = s.done ++ s.cur ++ ring.queue
      rw [hqueue, ← List.append_assoc]
      rfl
    · rw [hsend, hpushed]
      exact simulates_none rfl

theorem simulates_resend :
    Simulates s (if s.rxBufferFullFlg then s.pushed s.rxStash else []) (s.resend, []) := by
  unfold resend
  split_ifs with hfull
  · rcases pushed_cases s s.rxStash with ⟨ring, hsend, hqueue, hpushed⟩ | ⟨hsend, hpushed⟩
    · rw [hsend, hpushed]
      refine ⟨?_, rfl⟩
      change s.unread ++ s.rxStash = s.done ++ s.cur ++ ring.queue
      rw [hqueue, ← List.append_assoc]
      rfl
    · rw [hsend, hpushed]
      exact simulates_none rfl
  · exact simulates_none rfl

theorem unread_receiveItem (hcur : s.cur = []) (k : ℕ) : (s.receiveItem k).unread = s.unread := by
  change s.done ++ s.ring.queue.take (k + 1) ++ s.ring.queue.drop (k + 1) = s.done ++ s.cur ++ s.ring.queue
  rw [hcur, List.append_nil, List.append_assoc, List.take_append_drop]

theorem unread_copyOut (length : ℕ) : (s.copyOut length).unread = s.unread := by
  have hall : s.done ++ s.cur.take length ++ s.cur.drop length = s.done ++ s.cur := by
    rw [List.append_assoc, List.take_append_drop]
  unfold copyOut
  dsimp only
  split_ifs with hempty
  · exact congrArg (· ++ s.ring.queue) hall
  · exact congrArg (· ++ s.ring.queue) hall

theorem simulates_readLoop (length k : ℕ) :
    Simulates s (if length = 0 ∨ s.cur = [] ∧ s.ring.queue = [] then
      [.call (.uartReadBytes (s.done.length + length))] else []) (s.readLoop length k) := by
  unfold readLoop
  split_ifs with hend hcur
  · have htake : s.unread.take (s.done.length + length) = s.done := by
      rcases hend with hzero | ⟨hcur, hqueue⟩
      · rw [hzero, Nat.add_zero, unread, List.append_assoc, List.take_left]
      · rw [unread, hcur, hqueue, List.append_nil, List.append_nil]
        exact List.take_of_length_le (Nat.le_add_right _ _)
    have hdrop : s.unread.drop (s.done.length + length) = s.cur ++ s.ring.queue := by
      apply (List.append_right_inj s.done).mp
      calc s.done ++ s.unread.drop (s.done.length + length)
          = s.unread.take (s.done.length + length) ++ s.unread.drop (s.done.length + length) := by
            rw [htake]
        _ = s.unread := List.take_append_drop _ _
        _ = s.done ++ (s.cur ++ s.ring.queue) := List.append_assoc _ _ _
    refine ⟨hdrop, ?_⟩
    change [RxOutput.read _ (s.unread.take (s.done.length + length))] ++ [] = _
    rw [htake]
    rfl
  · exact simulates_none (unread_receiveItem hcur k)
  · exact simulates_none (unread_copyOut length)

theorem unread_flushHead : s.flushHead.unread = s.unread := by
  unfold flushHead
  split_ifs with hhead
  · change s.done ++ s.cur ++ [] ++ s.ring.queue = s.done ++ s.cur ++ s.ring.queue
    rw [List.append_nil]
  · rfl

theorem unread_flushReceive (hcur : s.cur = []) (k : ℕ) : (s.flushReceive k).unread = s.unread := by
  unfold flushReceive
  split_ifs with hqueue
  · rfl
  · change s.done ++ s.ring.queue.take (k + 1) ++ s.cur ++ s.ring.queue.drop (k + 1) =
      s.done ++ s.cur ++ s.ring.queue
    rw [hcur, List.append_nil, List.append_nil, List.append_assoc, List.take_append_drop]

theorem simulates_flushLeave (h : s.Inv) (hpoint : s.point = .leave) :
    Simulates s [.call .uartFlush] s.flushLeave := by
  have hcur : s.cur = [] := h.between (by rw [hpoint]; decide)
  have hqueue : s.ring.queue = [] := h.leave hpoint
  have hunread : s.unread = s.done := by
    rw [unread, hcur, hqueue, List.append_nil, List.append_nil]
  constructor
  · change [] = [] ++ [] ++ s.ring.queue
    rw [hqueue]
    rfl
  · change [RxOutput.flushed s.unread] ++ [] = _
    rw [hunread]
    rfl

theorem simulates_taskStep (h : s.Inv) (k : ℕ) : Simulates s (s.lin (.task k)) (s.taskStep k) := by
  unfold lin taskStep
  cases hpoint : s.point with
  | loop =>
    cases hcall : s.call with
    | none => exact simulates_none rfl
    | some c =>
      cases c with
      | uartReadBytes length => exact simulates_readLoop length k
      | uartFlush => exact simulates_none (unread_flushHead)
  | receive => exact simulates_none (unread_flushReceive (h.between (by rw [hpoint]; decide)) k)
  | giveBack => exact simulates_none rfl
  | item => exact simulates_resend
  | sent => exact simulates_none rfl
  | counted => exact simulates_none rfl
  | cleared => exact simulates_none rfl
  | leave => exact simulates_flushLeave h hpoint

theorem simulates_next (h : s.Inv) (e : RxEvent) : Simulates s (s.lin e) (s.next e) := by
  cases e with
  | arrive byte =>
    apply simulates_none
    unfold arrive
    split_ifs
    · rfl
    · rfl
  | rxfifo =>
    by_cases hraised : s.Raised
    · have h := simulates_isrRxfifo hraised
      simpa only [next, if_pos hraised] using h
    · have hnone : s.lin .rxfifo = [] := if_neg fun hand => hraised hand.1
      rw [hnone]
      apply simulates_none
      rw [if_neg hraised]
  | rxfifoOvf => exact simulates_none rfl
  | call c =>
    apply simulates_none
    split_ifs
    · rfl
    · rfl
  | task k => exact simulates_taskStep h k

theorem refines_stream : Refines next stream (@Inv cap) unread lin where
  keep _ e h := inv_next h e
  state _ e h := (simulates_next h e).1
  output _ e h := (simulates_next h e).2

section kept

theorem kept_of_not_full (h : s.rxBufferFullFlg = false) : s.kept = [] := by
  apply if_neg
  simp [h]

theorem kept_of_full (h : s.rxBufferFullFlg = true) (hsent : s.point ≠ .sent)
    (hcounted : s.point ≠ .counted) : s.kept = s.rxStash :=
  if_pos ⟨h, hsent, hcounted⟩

def bytesOf (s : RxObj cap) (e : RxEvent) : List UInt8 := (s.lin e).flatMap StreamOp.bytes

theorem conserve_isrRxfifo (h : s.Inv) (hraised : s.Raised) :
    s.kept ++ s.taken .rxfifo = s.bytesOf .rxfifo ++ s.isrRxfifo.kept := by
  unfold bytesOf lin isrRxfifo taken
  dsimp only
  cases hfull : s.rxBufferFullFlg with
  | true =>
    rw [if_neg (by simp), if_neg (by simp), if_pos rfl, List.append_nil]
    simp [kept, hfull]
  | false =>
    rw [if_pos ⟨rfl, hraised, rfl⟩, if_pos ⟨hraised, rfl⟩, if_neg (by simp), kept_of_not_full hfull]
    rcases pushed_cases s s.fifo with ⟨ring, hsend, _, hpushed⟩ | ⟨hsend, hpushed⟩
    · rw [hsend, hpushed, kept_of_not_full rfl]
      simp [StreamOp.bytes]
    · have hne : ∀ p, p = RxPoint.sent ∨ p = .counted → s.point ≠ p := by
        rintro p hp rfl
        exact Bool.noConfusion (hfull.symm.trans (h.resent hp).1)
      let s' : RxObj cap :=
        { s with fifo := [], rxStash := s.fifo, enaRxfifo := false, rxBufferFullFlg := true }
      have hkept : s'.kept = s.fifo :=
        kept_of_full (s := s') rfl (hne _ (Or.inl rfl)) (hne _ (Or.inr rfl))
      rw [hsend, hpushed]
      exact hkept.symm

theorem conserve_resend (hpoint : s.point = .item) :
    s.kept = (if s.rxBufferFullFlg then s.pushed s.rxStash else []).flatMap StreamOp.bytes ++
      s.resend.kept := by
  unfold resend
  split_ifs with hfull
  · rw [kept_of_full hfull (by rw [hpoint]; decide) (by rw [hpoint]; decide)]
    rcases pushed_cases s s.rxStash with ⟨ring, hsend, _, hpushed⟩ | ⟨hsend, hpushed⟩
    · rw [hsend, hpushed]
      simp [StreamOp.bytes, kept]
    · have hloop : kept { s with point := .loop } = s.rxStash := kept_of_full hfull nofun nofun
      rw [hsend, hpushed]
      exact hloop.symm
  · have hfalse : s.rxBufferFullFlg = false := Bool.eq_false_iff.mpr hfull
    have hloop : kept { s with point := .loop } = [] := kept_of_not_full hfalse
    rw [kept_of_not_full hfalse]
    exact hloop.symm

theorem conserve_taskStep (s : RxObj cap) (k : ℕ) :
    s.kept = s.bytesOf (.task k) ++ (s.taskStep k).1.kept := by
  have hloop (s' : RxObj cap) (hfull : s'.rxBufferFullFlg = s.rxBufferFullFlg)
      (hstash : s'.rxStash = s.rxStash) (hpoint : s.point ≠ .sent ∧ s.point ≠ .counted)
      (hpoint' : s'.point ≠ .sent ∧ s'.point ≠ .counted) : s.kept = [] ++ s'.kept := by
    rw [List.nil_append, kept, kept, hfull, hstash]
    exact if_congr (and_congr_right fun _ => iff_of_true hpoint hpoint') rfl rfl
  unfold bytesOf lin taskStep
  cases hpoint : s.point with
  | loop =>
    have hthere : s.point ≠ .sent ∧ s.point ≠ .counted := by
      rw [hpoint]
      decide
    cases hcall : s.call with
    | none => exact hloop s rfl rfl hthere hthere
    | some c =>
      cases c with
      | uartReadBytes length =>
        dsimp only
        unfold readLoop
        split_ifs with hend hcur
        · exact hloop _ rfl rfl hthere hthere
        · exact hloop _ rfl rfl hthere hthere
        · unfold copyOut
          dsimp only
          split_ifs
          · exact hloop _ rfl rfl hthere ⟨nofun, nofun⟩
          · exact hloop _ rfl rfl hthere hthere
      | uartFlush =>
        dsimp only
        unfold flushHead
        split_ifs
        · exact hloop _ rfl rfl hthere ⟨nofun, nofun⟩
        · exact hloop _ rfl rfl hthere ⟨nofun, nofun⟩
  | receive =>
    dsimp only
    unfold flushReceive
    split_ifs
    · exact hloop _ rfl rfl (by rw [hpoint]; decide) ⟨nofun, nofun⟩
    · exact hloop _ rfl rfl (by rw [hpoint]; decide) ⟨nofun, nofun⟩
  | giveBack => exact hloop _ rfl rfl (by rw [hpoint]; decide) ⟨nofun, nofun⟩
  | item => exact conserve_resend hpoint
  | sent => simp [kept, hpoint, countStash]
  | counted => simp [kept, hpoint, clearFull]
  | cleared => exact hloop _ rfl rfl (by rw [hpoint]; decide) ⟨nofun, nofun⟩
  | leave => exact hloop _ rfl rfl (by rw [hpoint]; decide) ⟨nofun, nofun⟩

theorem conserve_next (h : s.Inv) (e : RxEvent) :
    s.kept ++ s.taken e = s.bytesOf e ++ (s.next e).1.kept := by
  cases e with
  | arrive byte =>
    unfold next arrive
    dsimp only
    split_ifs
    · exact List.append_nil _
    · exact List.append_nil _
  | rxfifo =>
    by_cases hraised : s.Raised
    · have h := conserve_isrRxfifo h hraised
      simpa only [next, if_pos hraised] using h
    · have hout : s.bytesOf .rxfifo = [] := by
        have hnone : s.lin .rxfifo = [] := if_neg fun hand => hraised hand.1
        rw [bytesOf, hnone]
        rfl
      have hin : s.taken .rxfifo = [] := if_neg fun hand => hraised hand.2.1
      rw [hin, hout, List.append_nil, next, if_neg hraised]
      rfl
  | rxfifoOvf => exact List.append_nil _
  | call c =>
    unfold next
    dsimp only
    split_ifs
    · exact List.append_nil _
    · exact List.append_nil _
  | task k =>
    have hin : s.taken (.task k) = [] := if_neg fun hand => RxEvent.noConfusion hand.1
    rw [hin, List.append_nil]
    exact conserve_taskStep s k

end kept

/-- In every run, with interrupts between any two steps of a call, the reads and the flushes
return what a stream of bytes gives when each takes in one go; and what comes to the stream,
with the bytes that still wait for room, is what the handler has taken from the FIFO, in order. -/
theorem outputs_eq_stream (cap : ℕ) (es : List RxEvent) :
    outputs next (installed cap) es = outputs stream [] (linearize next lin (installed cap) es) ∧
      linearize next taken (installed cap) es =
        (linearize next lin (installed cap) es).flatMap StreamOp.bytes ++
          (exec next (installed cap) es).kept := by
  constructor
  · exact (refines_stream.outputs_eq inv_installed es).symm
  · have hkept : (installed cap).kept = [] := kept_of_not_full rfl
    have h := linearize_conserve (c := next) (I := @Inv cap) (g := bytesOf)
      (fun s e h => inv_next h e) (fun s e h => conserve_next h e) inv_installed es
    rw [hkept, List.nil_append] at h
    rw [h, flatMap_linearize]
    rfl

/-- `uart_get_buffered_data_len` counts what can be read whenever no call runs. -/
theorem bufferedLen_eq (cap : ℕ) (es : List RxEvent) (h : (exec next (installed cap) es).call = none) :
    (exec next (installed cap) es).rxBufferedLen = (exec next (installed cap) es).unread.length := by
  have hinv : (exec next (installed cap) es).Inv := inv_exec inv_installed es
  obtain ⟨hpoint, hdone⟩ := hinv.idle h
  have hcount := hinv.count
  rw [if_neg (by rw [hpoint]; decide), if_neg (by rw [h]; nofun)] at hcount
  rw [unread, List.length_append, List.length_append]
  omega

/-- Three bytes arrive, and a read of two of them ends. -/
def readRun : List RxEvent :=
  [.arrive 1, .arrive 2, .arrive 3, .rxfifo, .call (.uartReadBytes 2), .task 5, .task 0, .task 0]

theorem bufferedLen_eq_read : (exec next (installed 200) readRun).rxBufferedLen =
    (exec next (installed 200) readRun).unread.length :=
  bufferedLen_eq 200 readRun (by decide)

end RxObj

end BlizzardBridge
