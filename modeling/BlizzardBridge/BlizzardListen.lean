import BlizzardBridge.CArray
import BlizzardBridge.Dmx
import BlizzardBridge.EventMachine

/-! The task that listens for packets on `BLIZZARD_UART`, with the receiving side of the
driver. Bytes arrive between any two of its calls; a read that waits for them is placed where
it returns. -/
namespace BlizzardBridge
open CArray EventMachine

-- `sizeof(BlizzardPacket) - DMX_MAX_SLOTS` and `sizeof(BlizzardPacket)`.
def HEADER_SIZE : ℕ := 6
def PACKET_SIZE : ℕ := HEADER_SIZE + DMX_MAX_SLOTS

/-- What the task does next. -/
inductive ListenCall where
  | flush
  | header
  | data
  deriving DecidableEq, Repr

/-- `rx` is `BLIZZARD._rx` and the memory behind it. `cur` is what is left of the item at
`rx_ptr`, and `taken` all bytes that have left the driver, in order. -/
structure Listener where
  rx : Bytes
  cur : List UInt8
  ring : List (List UInt8)
  taken : List UInt8
  next : ListenCall

/-- An item arrives in the ring buffer, or the task makes its next call, with the
semaphore of the driver taken in time or not. -/
inductive ListenEvent where
  | arrive (item : List UInt8)
  | call (locked : Bool)
  deriving DecidableEq, Repr

/-- A read stores `n` bytes from the offset `off` in the packet on. -/
inductive ListenOutput where
  | stored (off n : ℕ)
  | handle
  deriving DecidableEq, Repr

/-- The bytes that a read gets before an empty ring buffer ends it, what is left of the
current item, and the ring buffer. -/
def uartReadBytes : List (List UInt8) → List UInt8 → ℕ →
    List UInt8 × List UInt8 × List (List UInt8)
  | [], cur, length => (cur.take length, cur.drop length, [])
  | item :: ring, cur, length =>
    if length ≤ cur.length then (cur.take length, cur.drop length, item :: ring)
    else
      let r := uartReadBytes ring item (length - cur.length)
      (cur ++ r.1, r.2)

namespace Listener

def unread (s : Listener) : List UInt8 := s.cur ++ s.ring.flatten

/-- A `uint16_t` at offset 4. -/
def dataCount (s : Listener) : ℕ := (s.rx 4).toNat + 256 * (s.rx 5).toNat

def HasHeader (s : Listener) : Prop := take s.rx 3 = ascii ['C', 'A', 'K']

instance (s : Listener) : Decidable s.HasHeader := inferInstanceAs (Decidable (_ = _))

def uartFlush (s : Listener) : Listener :=
  { s with cur := [], ring := [], taken := s.taken ++ s.unread }

/-- A read of `length` bytes to the offset `off`, and the number that it returns. -/
def readInto (off length : ℕ) (s : Listener) : Listener × ℕ :=
  let r := uartReadBytes s.ring s.cur length
  ({ s with rx := store s.rx off r.1, cur := r.2.1, ring := r.2.2, taken := s.taken ++ r.1 },
    r.1.length)

-- Each `goto ERROR_BLIZZARD` and each turn of the loop leads back to the flush.
def listen (s : Listener) : ListenEvent → Listener × List ListenOutput
  | .arrive item => ({ s with ring := s.ring ++ [item] }, [])
  | .call locked =>
    match s.next with
    | .flush => ({ s.uartFlush with next := .header }, [])
    | .header =>
      if !locked then ({ s with next := .flush }, [])
      else
        let r := s.readInto 0 HEADER_SIZE
        if r.2 ≠ HEADER_SIZE then ({ r.1 with next := .flush }, [.stored 0 r.2])
        else if r.1.HasHeader then ({ r.1 with next := .data }, [.stored 0 r.2])
        else ({ r.1 with next := .flush }, [.stored 0 r.2])
    | .data =>
      if !locked then ({ s with next := .flush }, [])
      else
        let r := s.readInto HEADER_SIZE s.dataCount
        ({ r.1 with next := .flush }, [.stored HEADER_SIZE r.2, .handle])

/-- The packet in `s'` is complete: its header is the last that had been read in `s`, and
its data all that has been read since. -/
structure CompletePacket (s s' : Listener) : Prop where
  header : s'.HasHeader
  count : s'.dataCount ≤ DMX_MAX_SLOTS
  before : take s'.rx HEADER_SIZE <:+ s.taken
  data : s'.taken = s.taken ++ take (fun k => s'.rx (HEADER_SIZE + k)) s'.dataCount

/-- The event stores nothing behind the packet, and only a complete packet is handled. -/
def HandlesComplete (s : Listener) (e : ListenEvent) : Prop :=
  (∀ off n, .stored off n ∈ (s.listen e).2 → off + n ≤ PACKET_SIZE) ∧
    (.handle ∈ (s.listen e).2 → CompletePacket s (s.listen e).1)

/-- When the data of a packet is read, its count fits and that many bytes are there. -/
def DataArrives (s : Listener) (e : ListenEvent) : Prop :=
  s.next = .data → e = .call true → s.dataCount ≤ DMX_MAX_SLOTS ∧ s.dataCount ≤ s.unread.length

end Listener

/-- A read takes the first bytes of what has arrived, and leaves the rest. -/
theorem uartReadBytes_eq (ring : List (List UInt8)) (cur : List UInt8) (length : ℕ) :
    (uartReadBytes ring cur length).1 = (cur ++ ring.flatten).take length ∧
      (uartReadBytes ring cur length).2.1 ++ (uartReadBytes ring cur length).2.2.flatten =
        (cur ++ ring.flatten).drop length := by
  induction ring generalizing cur length with
  | nil =>
    rw [uartReadBytes, List.flatten_nil, List.append_nil, List.append_nil]
    exact ⟨rfl, rfl⟩
  | cons item ring ih =>
    rw [uartReadBytes, List.flatten_cons]
    by_cases hcur : length ≤ cur.length
    · rw [if_pos hcur, List.take_append_of_le_length hcur, List.drop_append_of_le_length hcur,
        List.flatten_cons]
      exact ⟨rfl, rfl⟩
    · have hlength : length = cur.length + (length - cur.length) := by omega
      obtain ⟨htake, hdrop⟩ := ih item (length - cur.length)
      rw [if_neg hcur]
      constructor
      · conv_rhs => rw [hlength, List.take_length_add_append]
        exact congrArg (cur ++ ·) htake
      · conv_rhs => rw [hlength, List.drop_length_add_append]
        exact hdrop

namespace Listener

section readInto
variable (s : Listener) (off length : ℕ)

theorem readInto_count : (s.readInto off length).2 = min length s.unread.length := by
  change (uartReadBytes s.ring s.cur length).1.length = _
  rw [(uartReadBytes_eq s.ring s.cur length).1, List.length_take]
  rfl

theorem readInto_taken : (s.readInto off length).1.taken = s.taken ++ s.unread.take length := by
  change s.taken ++ (uartReadBytes s.ring s.cur length).1 = _
  rw [(uartReadBytes_eq s.ring s.cur length).1]
  rfl

theorem readInto_unread : (s.readInto off length).1.unread = s.unread.drop length :=
  (uartReadBytes_eq s.ring s.cur length).2

/-- What has been read stands at the offset. -/
theorem take_readInto : take (fun k => (s.readInto off length).1.rx (off + k))
    (min length s.unread.length) = s.unread.take length := by
  have hread : (uartReadBytes s.ring s.cur length).1 = s.unread.take length :=
    (uartReadBytes_eq s.ring s.cur length).1
  rw [← List.length_take, ← hread]
  exact take_store_at s.rx off _

theorem readInto_before {i : ℕ} (hi : i < off) : (s.readInto off length).1.rx i = s.rx i :=
  if_neg (Nat.not_le_of_lt hi)

end readInto

def arrived : ListenEvent → List UInt8
  | .arrive item => item
  | .call _ => []

/-- Nothing is lost or made up: what has left the driver and what is still in it are the
bytes that have arrived, in their order. -/
theorem listen_stream (s : Listener) (e : ListenEvent) :
    (s.listen e).1.taken ++ (s.listen e).1.unread = s.taken ++ s.unread ++ arrived e := by
  have hread (off length : ℕ) : (s.readInto off length).1.taken ++ (s.readInto off length).1.unread =
      s.taken ++ s.unread ++ [] := by
    rw [readInto_taken, readInto_unread, List.append_assoc, List.take_append_drop, List.append_nil]
  cases e with
  | arrive item =>
    change s.taken ++ (s.cur ++ (s.ring ++ [item]).flatten) = s.taken ++ (s.cur ++ s.ring.flatten) ++ item
    rw [List.flatten_append, List.flatten_singleton]
    simp only [List.append_assoc]
  | call locked =>
    have hsame : s.taken ++ s.unread = s.taken ++ s.unread ++ [] := (List.append_nil _).symm
    unfold listen
    cases s.next with
    | flush => rfl
    | header =>
      dsimp only
      split_ifs
      · exact hsame
      · exact hread 0 HEADER_SIZE
      · exact hread 0 HEADER_SIZE
      · exact hread 0 HEADER_SIZE
    | data =>
      dsimp only
      split_ifs
      · exact hsame
      · exact hread HEADER_SIZE s.dataCount

theorem exec_stream (s : Listener) (es : List ListenEvent) :
    (exec listen s es).taken ++ (exec listen s es).unread =
      s.taken ++ s.unread ++ (es.map arrived).flatten := by
  induction es generalizing s with
  | nil => exact (List.append_nil _).symm
  | cons e es ih =>
    rw [exec_cons, ih, listen_stream, List.map_cons, List.flatten_cons, List.append_assoc]

/-- Before the data is read, the packet holds the header that has just been taken. -/
def HeaderRead (s : Listener) : Prop :=
  s.next = .data → s.HasHeader ∧ take s.rx HEADER_SIZE <:+ s.taken

theorem listen_headerRead (s : Listener) (e : ListenEvent) (h : s.HeaderRead) :
    (s.listen e).1.HeaderRead := by
  have hflush : ListenCall.flush ≠ .data := by decide
  have hheader : ListenCall.header ≠ .data := by decide
  cases e with
  | arrive item => exact h
  | call locked =>
    unfold listen
    cases s.next with
    | flush => exact fun hdata => absurd hdata hheader
    | header =>
      dsimp only
      split_ifs with hlocked hshort hcak
      · exact fun hdata => absurd hdata hflush
      · exact fun hdata => absurd hdata hflush
      · intro _
        have hall := not_not.mp hshort
        have hstored := take_readInto s 0 HEADER_SIZE
        rw [readInto_count] at hall
        simp only [hall, Nat.zero_add] at hstored
        refine ⟨hcak, s.taken, ?_⟩
        calc s.taken ++ take (s.readInto 0 HEADER_SIZE).1.rx HEADER_SIZE
            = s.taken ++ s.unread.take HEADER_SIZE := by rw [hstored]
          _ = (s.readInto 0 HEADER_SIZE).1.taken := (readInto_taken s 0 HEADER_SIZE).symm
      · exact fun hdata => absurd hdata hflush
    | data =>
      dsimp only
      split_ifs
      · exact fun hdata => absurd hdata hflush
      · exact fun hdata => absurd hdata hflush

/-- A read of the data leaves the header, and makes the packet complete exactly when it fits
and gets all of it. -/
theorem completePacket_iff (s : Listener) (h : s.HasHeader ∧ take s.rx HEADER_SIZE <:+ s.taken) :
    CompletePacket s { (s.readInto HEADER_SIZE s.dataCount).1 with next := .flush } ↔
      s.dataCount ≤ DMX_MAX_SLOTS ∧ s.dataCount ≤ s.unread.length := by
  let s' : Listener := { (s.readInto HEADER_SIZE s.dataCount).1 with next := .flush }
  change CompletePacket s s' ↔ _
  have hbefore {i : ℕ} (hi : i < HEADER_SIZE) : s'.rx i = s.rx i := readInto_before s _ _ hi
  have hcount : s'.dataCount = s.dataCount := by
    rw [dataCount, hbefore (by decide), hbefore (by decide), dataCount]
  have hheader : s'.HasHeader := by
    have hsame : take s'.rx 3 = take s.rx 3 :=
      take_congr fun i hi => hbefore (Nat.lt_trans hi (by decide))
    exact hsame.trans h.1
  have htaken : s'.taken = s.taken ++ s.unread.take s.dataCount :=
    readInto_taken s HEADER_SIZE s.dataCount
  have hstored := take_readInto s HEADER_SIZE s.dataCount
  constructor
  · intro hcomplete
    have hlength := congrArg List.length (htaken.symm.trans hcomplete.data)
    rw [List.length_append, List.length_append, List.length_take, length_take, hcount] at hlength
    refine ⟨hcount ▸ hcomplete.count, ?_⟩
    omega
  · rintro ⟨hfits, hthere⟩
    rw [Nat.min_eq_left hthere] at hstored
    refine ⟨hheader, hcount.symm ▸ hfits, ?_, ?_⟩
    · have hsame : take s'.rx HEADER_SIZE = take s.rx HEADER_SIZE := take_congr fun i hi => hbefore hi
      change take s'.rx HEADER_SIZE <:+ s.taken
      rw [hsame]
      exact h.2
    · rw [htaken, hcount]
      exact congrArg (s.taken ++ ·) hstored.symm

/-- Every other event stores six bytes at most, at the beginning of the packet. -/
theorem listen_other (s : Listener) (e : ListenEvent) (h : ¬ (s.next = .data ∧ e = .call true)) :
    (s.listen e).2 = [] ∨ ∃ n ≤ HEADER_SIZE, (s.listen e).2 = [.stored 0 n] := by
  cases e with
  | arrive item => exact Or.inl rfl
  | call locked =>
    have hread : (s.readInto 0 HEADER_SIZE).2 ≤ HEADER_SIZE := by
      rw [readInto_count]
      exact Nat.min_le_left _ _
    unfold listen
    cases hnext : s.next with
    | flush => exact Or.inl rfl
    | header =>
      dsimp only
      split_ifs
      · exact Or.inl rfl
      · exact Or.inr ⟨_, hread, rfl⟩
      · exact Or.inr ⟨_, hread, rfl⟩
      · exact Or.inr ⟨_, hread, rfl⟩
    | data =>
      cases locked with
      | false => exact Or.inl rfl
      | true => exact absurd ⟨hnext, rfl⟩ h

theorem handlesComplete_iff (s : Listener) (e : ListenEvent) (h : s.HeaderRead) :
    s.HandlesComplete e ↔ s.DataArrives e := by
  by_cases hdata : s.next = .data ∧ e = .call true
  · obtain ⟨hnext, rfl⟩ := hdata
    have hlisten : s.listen (.call true) =
        ({ (s.readInto HEADER_SIZE s.dataCount).1 with next := .flush },
          [.stored HEADER_SIZE (s.readInto HEADER_SIZE s.dataCount).2, .handle]) := by
      simp only [listen, hnext]
      rfl
    have hcomplete := completePacket_iff s (h hnext)
    rw [HandlesComplete, hlisten]
    constructor
    · rintro ⟨_, hhandled⟩ _ _
      exact hcomplete.mp (hhandled (List.mem_cons_of_mem _ List.mem_cons_self))
    · intro harrives
      have hthere := harrives hnext rfl
      refine ⟨fun off n hstored => ?_, fun _ => hcomplete.mpr hthere⟩
      have hone : off = HEADER_SIZE ∧ n = (s.readInto HEADER_SIZE s.dataCount).2 := by
        simpa using hstored
      rw [hone.1, hone.2, readInto_count, PACKET_SIZE]
      omega
  · have harrives : s.DataArrives e := fun hnext he => absurd ⟨hnext, he⟩ hdata
    refine iff_of_true ?_ harrives
    rcases listen_other s e hdata with hnone | ⟨m, hm, hone⟩
    · rw [HandlesComplete, hnone]
      exact ⟨fun off n hmem => absurd hmem List.not_mem_nil, fun hmem => absurd hmem List.not_mem_nil⟩
    · rw [HandlesComplete, hone]
      constructor
      · intro off n hmem
        have hstored : off = 0 ∧ n = m := by simpa using hmem
        rw [hstored.1, hstored.2, Nat.zero_add]
        exact Nat.le_trans hm (Nat.le_add_right _ _)
      · intro hmem
        exact absurd (List.mem_singleton.mp hmem) ListenOutput.noConfusion

/-- A run of the task stores and handles complete packets only exactly when, whenever the
data of a packet is read, its count fits the packet and that many bytes are there. -/
theorem listen_complete_iff (s : Listener) (hstart : s.next = .flush) (es : List ListenEvent) :
    Along listen HandlesComplete s es ↔ Along listen DataArrives s es := by
  have hheader : s.HeaderRead := by
    intro hdata
    rw [hstart] at hdata
    exact absurd hdata (by decide)
  apply along_congr (C := fun _ _ => True) (I := HeaderRead)
  · intro s e h _
    exact listen_headerRead s e h
  · intro s e h _
    exact handlesComplete_iff s e h
  · exact hheader
  · exact along_of_forall (fun _ _ => trivial) s es

def waiting : Listener := ⟨fun _ => 0, [], [], [], .flush⟩

/-- A packet with the opcode 1 that announces two bytes, of which `data` arrive in time. -/
def packetRun (data : List UInt8) : List ListenEvent :=
  [.call true, .arrive [0x43, 0x41, 0x4B, 1, 2, 0], .call true, .arrive data, .call true]

theorem listen_complete_iff_two : waiting.next = .flush ∧
    (Along listen HandlesComplete waiting (packetRun [7, 8]) ↔
      Along listen DataArrives waiting (packetRun [7, 8])) :=
  ⟨rfl, listen_complete_iff waiting rfl (packetRun [7, 8])⟩

/-- A packet that is cut off after one of its two bytes is handled. -/
theorem listen_handles_cut : ¬ ∀ (s : Listener) (es : List ListenEvent), s.next = .flush →
    Along listen HandlesComplete s es := by
  intro hall
  obtain ⟨_, _, _, _, ⟨_, hhandled⟩, _⟩ := hall waiting (packetRun [7]) rfl
  have hdata := (hhandled (by decide)).data
  exact absurd hdata (by decide)

end Listener

end BlizzardBridge
