import Mathlib.Algebra.Order.BigOperators.Group.List
import QuicLite.Uart.Codec

/-!
# Streaming a record into the serial device

The cursor writes the wire form of a record into whatever buffer there is and remembers where it
stopped. The host encodes up to 256 bytes at a time, and when the device takes fewer of them it runs
a copy of the cursor it started from over just the bytes taken.

What a cursor has still to write (`pending`) is the invariant: a byte written is its head.
-/

namespace QuicLite.Uart

open Framing List Nat

inductive EncodeState where
  | openingFlag
  | payload
  | escape (byte : UInt8)
  | closingFlag
  | done
  deriving DecidableEq, Repr

/-- `marker` is the L2 marker that goes in front of the payload. -/
structure EncoderCursor where
  marker : Option UInt8
  offset : Nat
  state : EncodeState

inductive WriteError where
  | wouldBlock
  | writeZero
  | failed

inductive WriteProgress where
  | wouldBlock
  | partly
  | complete

namespace EncoderCursor

def new (marker : Option UInt8) : EncoderCursor := ⟨marker, 0, .openingFlag⟩

def raw : EncoderCursor := new none

def prefixed (marker : UInt8) : EncoderCursor := new (some marker)

def isFinished (self : EncoderCursor) : Bool := self.state = .done

/-- The first byte of the wire form of a payload byte; the second one waits in the state. -/
def put (self : EncoderCursor) (byte : UInt8) : UInt8 × EncoderCursor :=
  if byte = uartFlag ∨ byte = uartEscape then
    (uartEscape, { self with state := .escape (byte ^^^ uartEscapeXor) })
  else (byte, self)

/-- The byte that the loop of `write` writes next, unless the record is done. -/
def emit (self : EncoderCursor) (payload : Bytes) : Option (UInt8 × EncoderCursor) :=
  match self.state with
  | .openingFlag => some (uartFlag, { self with state := .payload })
  | .payload =>
    match self.marker with
    | some marker => some (put { self with marker := none } marker)
    | none =>
      match payload[self.offset]? with
      | some byte => some (put { self with offset := self.offset + 1 } byte)
      -- A turn of the loop that writes nothing moves on to `ClosingFlag`, the next one writes it.
      | none => some (uartFlag, { self with state := .done })
  | .escape byte => some (byte, { self with state := .payload })
  | .closingFlag => some (uartFlag, { self with state := .done })
  | .done => none

/-- `write` into `room` bytes: the cursor after it, and the bytes written. -/
def write (self : EncoderCursor) (payload : Bytes) : Nat → EncoderCursor × Bytes
  | 0 => (self, [])
  | room + 1 =>
    match self.emit payload with
    | none => (self, [])
    | some (byte, next) => ((next.write payload room).1, byte :: (next.write payload room).2)

variable (self : EncoderCursor)

/-- One `write` after another, into buffers of these sizes. -/
def fill (payload : Bytes) (rooms : List Nat) : EncoderCursor × Bytes :=
  feed (fun cursor room => cursor.write payload room) self rooms

/-- Encode into `room` bytes and offer them to the device, which answers how many it would take: the
cursor after it, the bytes that were taken, and the outcome. -/
def tryWrite (before : EncoderCursor) (payload : Bytes) (room : Nat)
    (device : Except WriteError Nat) : EncoderCursor × Bytes × Except WriteError WriteProgress :=
  let wire := (before.write payload room).2
  if wire = [] then (before, [], .ok .complete)
  else
    match device with
    | .ok limit =>
      let written := min limit wire.length
      if written = 0 then (before, [], .error .writeZero)
      else
        let cursor := (before.write payload written).1
        (cursor, wire.take written, .ok (if cursor.isFinished then .complete else .partly))
    | .error .wouldBlock => (before, [], .ok .wouldBlock)
    | .error error => (before, [], .error error)

/-- One write to the device after another, each with its buffer size: the bytes it took in all. -/
def stream (payload : Bytes) (turns : List (Nat × Except WriteError Nat)) : EncoderCursor × Bytes :=
  feed (fun cursor turn =>
    ((cursor.tryWrite payload turn.1 turn.2).1, (cursor.tryWrite payload turn.1 turn.2).2.1))
      self turns

/-! ## What is still to be written -/

/-- The rest of the record, with the closing flag. -/
def rest (payload : Bytes) : Bytes :=
  (self.marker.toList ++ payload.drop self.offset).flatMap encodeByte ++ [uartFlag]

def pending (payload : Bytes) : Bytes :=
  match self.state with
  | .openingFlag => uartFlag :: self.rest payload
  | .payload => self.rest payload
  | .escape byte => byte :: self.rest payload
  | .closingFlag => [uartFlag]
  | .done => []

variable {self next : EncoderCursor} {payload : Bytes} {byte : UInt8}

@[simp] theorem pending_eq_nil (self : EncoderCursor) (payload : Bytes) :
    self.pending payload = [] ↔ self.isFinished = true := by
  unfold pending isFinished
  cases self.state <;> simp [rest]

theorem emit_eq_none (h : self.emit payload = none) : self.pending payload = [] := by
  unfold emit at h
  unfold pending
  split at h <;> simp_all
  grind

/-- A byte of the record goes out as `encodeByte` has it. -/
theorem put_pending (self : EncoderCursor) (payload : Bytes) (hstate : self.state = .payload)
    (byte : UInt8) : encodeByte byte ++ self.rest payload = (self.put byte).1 ::
      (self.put byte).2.pending payload := by
  unfold put encodeByte
  split
  · rfl
  · simp [pending, hstate]

/-- The byte written was the next one due. -/
theorem emit_eq_some (h : self.emit payload = some (byte, next)) :
    self.pending payload = byte :: next.pending payload := by
  unfold emit at h
  split at h
  case h_1 hstate =>
    cases h
    simp only [pending, hstate]
    rfl
  case h_2 hstate =>
    have hpending : self.pending payload = self.rest payload := by simp only [pending, hstate]
    rw [hpending]
    split at h
    · next marker hmarker =>
        have hput := put_pending { self with marker := none } payload hstate marker
        rw [Option.some.inj h] at hput
        rw [← hput]
        simp [rest, hmarker]
    next hmarker =>
      split at h
      · next due hdue =>
          have hput := put_pending { self with offset := self.offset + 1 } payload hstate due
          obtain ⟨hlt, rfl⟩ := List.getElem?_eq_some_iff.mp hdue
          rw [Option.some.inj h] at hput
          rw [← hput]
          rw [rest, drop_eq_getElem_cons hlt]
          simp [rest, hmarker, -getElem_cons_drop]
      next hend =>
        cases h
        have hdrop : payload.drop self.offset = [] :=
          drop_eq_nil_of_le (getElem?_eq_none_iff.mp hend)
        rw [rest, hmarker, hdrop]
        rfl
  case h_3 hstate =>
    cases h
    simp only [pending, hstate]
    rfl
  case h_4 hstate =>
    cases h
    simp only [pending, hstate]
  case h_5 => cases h

variable (self)

variable (payload)

theorem write_pending (room : Nat) :
    (self.write payload room).2 = (self.pending payload).take room ∧
      (self.write payload room).1.pending payload = (self.pending payload).drop room := by
  induction room generalizing self with
  | zero => exact ⟨rfl, rfl⟩
  | succ room ih =>
    unfold write
    split
    · next hdone => simp [emit_eq_none hdone]
    next byte next hemit =>
      rw [emit_eq_some hemit]
      exact ⟨congrArg _ (ih next).1, (ih next).2⟩

theorem fill_pending (rooms : List Nat) :
    (self.fill payload rooms).2 = (self.pending payload).take rooms.sum ∧
      (self.fill payload rooms).1.pending payload = (self.pending payload).drop rooms.sum := by
  induction rooms generalizing self with
  | nil => exact ⟨rfl, rfl⟩
  | cons room rooms ih =>
    obtain ⟨hwritten, hleft⟩ := self.write_pending payload room
    have hrest := ih (self.write payload room).1
    rw [hleft, drop_drop] at hrest
    rw [sum_cons, take_add, ← hrest.2, ← hrest.1, ← hwritten]
    exact ⟨rfl, rfl⟩

/-- One write to the device: the record was done, the device took nothing, or it took what a buffer
of just that size would have been given. -/
theorem tryWrite_cases (room : Nat) (device : Except WriteError Nat) :
    ((self.write payload room).2 = [] ∧ self.tryWrite payload room device =
      (self, [], .ok .complete)) ∨
    ((self.write payload room).2 ≠ [] ∧ (∀ limit, 0 < limit → device ≠ .ok limit) ∧
      ∃ outcome, outcome ≠ .ok .complete ∧ self.tryWrite payload room device =
        (self, [], outcome)) ∨
    ∃ written, 0 < written ∧ written ≤ (self.pending payload).length ∧
      self.tryWrite payload room device =
        ((self.write payload written).1, (self.pending payload).take written,
        .ok (if (self.write payload written).1.isFinished then .complete else .partly)) := by
  obtain ⟨hwire, -⟩ := self.write_pending payload room
  by_cases hdone : (self.write payload room).2 = []
  · exact .inl ⟨hdone, if_pos hdone⟩
  refine .inr ?_
  unfold tryWrite
  rw [if_neg hdone]
  cases device with
  | error error => cases error <;> exact .inl ⟨hdone, by simp, _, by simp, rfl⟩
  | ok limit =>
  dsimp only
  split
  · next hzero =>
      have hlength := length_pos_iff.mpr hdone
      refine .inl ⟨hdone, ?_, _, by simp, rfl⟩
      rintro _ hlimit ⟨⟩
      omega
  next hsome =>
    refine .inr ⟨_, pos_of_ne_zero hsome, ?_, ?_⟩
    · rw [hwire, length_take]
      omega
    rw [hwire, take_take, length_take]
    -- No more is taken than was encoded.
    have hle : min limit (min room (self.pending payload).length) ≤ room := by omega
    rw [min_eq_left hle]

/-- The device took the next bytes due, and the cursor stands behind them. -/
theorem tryWrite_pending (room : Nat) (device : Except WriteError Nat) :
    (self.tryWrite payload room device).2.1 ++
      (self.tryWrite payload room device).1.pending payload =
      self.pending payload := by
  rcases self.tryWrite_cases payload room device with ⟨-, h⟩ | ⟨-, -, _, -, h⟩ | ⟨written, -, -, h⟩
  · rw [h]
    rfl
  · rw [h]
    rfl
  · rw [h, (self.write_pending payload written).2]
    apply take_append_drop

/-- A write to the device reports completion when nothing is left. -/
theorem tryWrite_complete {room : Nat} (hroom : 0 < room)
    (device : Except WriteError Nat) : (self.tryWrite payload room device).2.2 = .ok .complete ↔
      (self.tryWrite payload room device).1.isFinished = true := by
  have hnil : (self.write payload room).2 = [] ↔ self.isFinished = true := by
    rw [(self.write_pending payload room).1, ← pending_eq_nil _ payload, take_eq_nil_iff]
    grind
  rcases self.tryWrite_cases payload room device with ⟨hdone, h⟩ | ⟨hdue, -, outcome, hne, h⟩ |
    ⟨written, -, -, h⟩
  · simpa [h] using hnil.mp hdone
  · simpa [h, hne] using fun hfinished => hdue (hnil.mpr hfinished)
  · rw [h]
    split <;> simp_all

theorem stream_pending (turns : List (Nat × Except WriteError Nat)) :
    (self.stream payload turns).2 ++ (self.stream payload turns).1.pending payload =
      self.pending payload := by
  induction turns generalizing self with
  | nil => rfl
  | cons turn turns ih =>
    have hrest := ih (self.tryWrite payload turn.1 turn.2).1
    have hturn := self.tryWrite_pending payload turn.1 turn.2
    rw [← hrest, ← append_assoc] at hturn
    exact hturn

/-- Each write of which the device takes something leaves less to write. -/
theorem stream_length {turns : List (Nat × Except WriteError Nat)}
    (hturns : ∀ turn ∈ turns, 0 < turn.1 ∧ ∃ limit, 0 < limit ∧ turn.2 = .ok limit) :
    ((self.stream payload turns).1.pending payload).length ≤
      (self.pending payload).length - turns.length := by
  induction turns generalizing self with
  | nil => exact le_refl _
  | cons turn turns ih =>
    obtain ⟨room, device⟩ := turn
    obtain ⟨⟨hroom, limit, hlimit, rfl⟩, hlater⟩ := forall_mem_cons.mp hturns
    have hrest := ih (self.tryWrite payload room (.ok limit)).1 hlater
    have hless : ((self.tryWrite payload room (.ok limit)).1.pending payload).length ≤
        (self.pending payload).length - 1 := by
      have htaken := congrArg length (self.tryWrite_pending payload room (.ok limit))
      rcases self.tryWrite_cases payload room (.ok limit) with ⟨hdone, h⟩ | ⟨-, hnone, -⟩ |
        ⟨written, hpos, hle, h⟩
      · rw [(self.write_pending payload room).1] at hdone
        have hnil : self.pending payload = [] := by grind
        simp [h, hnil]
      · exact absurd rfl (hnone limit hlimit)
      rw [h, length_append, length_take] at htaken
      rw [h]
      omega
    refine le_trans hrest ?_
    rw [length_cons]
    omega

variable {payload}

variable {self}

/-! ## The wire form of the record -/

theorem new_pending {marker : Option UInt8} {wire : Bytes} {max : Nat}
    (hwire : encodePayload (marker.toList ++ payload) max = .ok wire) :
    (new marker).pending payload = wire := by
  unfold encodePayload at hwire
  split at hwire
  · cases hwire
  · cases hwire
    rfl

/-- Encoding piece by piece, into buffers of any sizes and with a device that takes any part of each
piece, gives the wire form of the whole record, and completion is reported with its last byte. -/
theorem refines_encodePayload {marker : Option UInt8} {payload wire : Bytes} {max : Nat}
    (hwire : encodePayload (marker.toList ++ payload) max = .ok wire) :
    (∀ rooms : List Nat, (∀ room ∈ rooms, 0 < room) →
      ((new marker).fill payload rooms).2 = wire.take rooms.sum ∧
      (((new marker).fill payload rooms).1.isFinished = true ↔
        ((new marker).fill payload rooms).2 = wire) ∧
      (wire.length ≤ rooms.length → ((new marker).fill payload rooms).2 = wire)) ∧
    ∀ turns : List (Nat × Except WriteError Nat), (∀ turn ∈ turns, 0 < turn.1) →
      ((new marker).stream payload turns).2 <+: wire ∧
      (((new marker).stream payload turns).1.isFinished = true ↔
        ((new marker).stream payload turns).2 = wire) ∧
      (∀ room device, 0 < room →
        ((((new marker).stream payload turns).1.tryWrite payload room device).2.2 = .ok .complete ↔
          ((new marker).stream payload (turns ++ [(room, device)])).2 = wire)) ∧
      ((∀ turn ∈ turns, ∃ limit, 0 < limit ∧ turn.2 = .ok limit) → wire.length ≤ turns.length →
        ((new marker).stream payload turns).2 = wire) := by
  have hnew := new_pending hwire
  have hstream : ∀ turns, ((new marker).stream payload turns).1.isFinished = true ↔
      ((new marker).stream payload turns).2 = wire := by
    intro turns
    have hall := (new marker).stream_pending payload turns
    rw [← hall.trans hnew]
    simp
  refine ⟨fun rooms hrooms => ?_, fun turns hturns => ?_⟩
  · obtain ⟨hwritten, hleft⟩ := (new marker).fill_pending payload rooms
    rw [hnew] at hwritten hleft
    refine ⟨hwritten, ?_, fun henough => ?_⟩
    · rw [← pending_eq_nil _ payload, hleft, hwritten, take_eq_self_iff, drop_eq_nil_iff]
    have hsum := length_le_sum_of_one_le rooms hrooms
    rw [hwritten]
    exact take_of_length_le (henough.trans hsum)
  refine ⟨⟨_, ((new marker).stream_pending payload turns).trans hnew⟩, hstream turns,
    fun room device hroom => ?_, fun htaken henough => ?_⟩
  · rw [tryWrite_complete _ payload hroom, ← hstream, stream, stream, feed_append]
    rfl
  have hlength := (new marker).stream_length payload fun turn hturn =>
    ⟨hturns turn hturn, htaken turn hturn⟩
  rw [hnew] at hlength
  rw [← hstream, ← pending_eq_nil _ payload]
  exact eq_nil_of_length_eq_zero (by omega)

/-- A marker, a flag and an escape byte, the device taking two bytes, none and the rest. -/
theorem refines_encodePayload_marked : encodePayload ([0x55] ++ [uartFlag, uartEscape]) 8 =
        .ok [uartFlag, 0x55, uartEscape, 0x5e, uartEscape, 0x5d, uartFlag] ∧
      ((prefixed 0x55).fill [uartFlag, uartEscape] [3, 1, 2, 9]).2 =
        [uartFlag, 0x55, uartEscape, 0x5e, uartEscape, 0x5d, uartFlag] ∧
      ((prefixed 0x55).stream [uartFlag, uartEscape] [(4, .ok 2), (4, .error .wouldBlock),
        (256, .ok 9)]).1.isFinished =
        true :=
  have hwire : encodePayload ((some 0x55).toList ++ [uartFlag, uartEscape]) 8 =
      .ok [uartFlag, 0x55, uartEscape, 0x5e, uartEscape, 0x5d, uartFlag] := rfl
  ⟨hwire, (((refines_encodePayload hwire).1 [3, 1, 2, 9] (by decide)).1),
    ((refines_encodePayload hwire).2 [(4, .ok 2), (4, .error .wouldBlock), (256, .ok 9)]
      (by decide)).2.1.mpr rfl⟩

/-- The cursor does not refuse the empty record. -/
theorem raw_fill_empty :
    encodePayload [] 4000 = .error .emptyPayload ∧ (raw.fill [] [1, 1]).2 = [uartFlag, uartFlag] :=
  ⟨rfl, rfl⟩

end EncoderCursor

end QuicLite.Uart
