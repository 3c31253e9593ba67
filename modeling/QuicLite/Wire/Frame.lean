import QuicLite.AckRanges
import QuicLite.Wire.Varint
import QuicLite.Lib.Writer

/-!
# Frames

The seventeen frame kinds of an established connection, their encoder and their decoder.

The encoder fills an output slice from the front. It is modelled by the bytes written so far
together with the slice's length, so that every `put` sees the room that is left. The decoder
walks the input with an explicit position, as the source does.
-/

namespace QuicLite

open Intervals

inductive Role where
  | client
  | server
  deriving DecidableEq, Repr

structure CircuitKey where
  openerRole : Role
  sequence : Nat
  deriving DecidableEq, Repr

inductive PathStatusKind where
  | available
  | standby
  | abandon
  deriving DecidableEq, Repr

structure StreamFrame where
  id : Nat
  offset : Nat
  fin : Bool
  data : Bytes
  deriving DecidableEq, Repr

inductive Frame where
  | padding
  | ping
  | ack (largest delay : Nat)
  | ackRanges (largest delay : Nat) (ranges : AckRangeSet)
  | ackFrequency (sequence packetThreshold maxAckDelayUs reorderingThreshold : Nat)
  | stream (s : StreamFrame)
  | datagram (data : Bytes) (length : Bool)
  | maxData (max : Nat)
  | maxStreamData (id max : Nat)
  | maxStreamsBidi (max : Nat)
  | maxStreamsUni (max : Nat)
  | pathJoin (joinCid : ConnectionId) (key : CircuitKey) (transactionId : Nat)
      (receiveCid : ConnectionId)
  | pathJoinAck (key : CircuitKey) (transactionId : Nat) (receiveCid : ConnectionId)
  | pathChallenge (token : Nat)
  | pathResponse (token : Nat)
  | pathStatus (key : CircuitKey) (sequence : Nat) (status : PathStatusKind)
  | close (code : Nat)
  deriving DecidableEq

@[match_pattern] abbrev framePadding : Nat := 0x00
@[match_pattern] abbrev framePing : Nat := 0x01
@[match_pattern] abbrev frameAck : Nat := 0x02
@[match_pattern] abbrev frameStreamBase : Nat := 0x08
@[match_pattern] abbrev frameMaxData : Nat := 0x10
@[match_pattern] abbrev frameMaxStreamData : Nat := 0x11
@[match_pattern] abbrev frameMaxStreamsBidi : Nat := 0x12
@[match_pattern] abbrev frameMaxStreamsUni : Nat := 0x13
@[match_pattern] abbrev frameConnectionClose : Nat := 0x1c
@[match_pattern] abbrev framePathJoin : Nat := 0x40
@[match_pattern] abbrev framePathJoinAck : Nat := 0x41
@[match_pattern] abbrev framePathChallenge : Nat := 0x42
@[match_pattern] abbrev framePathResponse : Nat := 0x43
@[match_pattern] abbrev framePathStatus : Nat := 0x44
@[match_pattern] abbrev frameAckFrequency : Nat := 0xaf

/-- `u32::MAX` -/
def u32Max : Nat := 2 ^ 32 - 1

/-- `usize` is 64 bits wide. -/
def usizeBound : Nat := 2 ^ 64

/-- `saturating_add` of 64-bit integers. -/
def satAdd (a b : Nat) : Nat := min (a + b) (usizeBound - 1)

/-! ## Encoding -/

/-- `put_varint(v, &mut out[p..])` followed by `p += n`. -/
def put (v capacity : Nat) (out : Bytes) : Except Error Bytes := do
  let bs ← putVarint v (capacity - out.length)
  .ok (out ++ bs)

/-- Consecutive `put`s. -/
def putAll : List Nat → Nat → Bytes → Except Error Bytes
  | [], _, out => .ok out
  | v :: vs, capacity, out => do
      let out ← put v capacity out
      putAll vs capacity out

def Role.code : Role → Nat
  | .client => 0
  | .server => 1

def PathStatusKind.code : PathStatusKind → Nat
  | .available => 0
  | .standby => 1
  | .abandon => 2

/-- `encode_compact_cid`: the connection id of a path frame is never zero. -/
def putCid (cid : ConnectionId) (capacity : Nat) (out : Bytes) : Except Error Bytes :=
  if cid.value = 0 then .error .invalid
  else do
    let bs ← cid.encode (capacity - out.length)
    .ok (out ++ bs)

/-- `out[p..p + data.len()].copy_from_slice(data)`, after checking the room. -/
def putData (data : Bytes) (capacity : Nat) (out : Bytes) : Except Error Bytes :=
  if capacity < out.length + data.length then .error .bufferTooSmall else .ok (out ++ data)

theorem put_writes (capacity value : Nat) :
    Writer.Writes .bufferTooSmall capacity (put value capacity) (varint value)
    (value < varintBound) where
  sound := by
    intro out result hout h
    obtain ⟨bs, hput, h⟩ := bind_eq_ok.mp h
    obtain ⟨hvalue, hlen, rfl⟩ := putVarint_eq_ok.mp hput
    cases h
    refine ⟨hvalue, rfl, ?_⟩
    rw [List.length_append, length_varint]
    omega
  complete := by
    intro out hvalue hfits
    rw [length_varint] at hfits
    have hput : putVarint value (capacity - out.length) = .ok (varint value) :=
      putVarint_eq_ok.mpr ⟨hvalue, by omega, rfl⟩
    simp [put, hput]
  room := by
    intro out hfits
    rw [length_varint] at hfits
    unfold put putVarint
    split
    · simp
    · rw [if_neg (by omega)]
      simp

theorem putData_writes (capacity : Nat) (data : Bytes) :
    Writer.Writes .bufferTooSmall capacity (putData data capacity) data True where
  sound := by
    intro out result hout h
    unfold putData at h
    split at h
    · cases h
    cases h
    refine ⟨trivial, rfl, ?_⟩
    rw [List.length_append]
    omega
  complete := by
    intro out _ hfits
    rw [putData, if_neg (by omega)]
  room := by
    intro out hfits
    rw [putData, if_neg (by omega)]
    simp

/-- The additional ACK ranges, each as its gap to the previous one and its length. -/
def putRanges (previous : AckRange) : List AckRange → Nat → Bytes → Except Error Bytes
  | [], _, out => .ok out
  | current :: rest, capacity, out =>
    -- `previous.start.checked_sub(current.end + 2)`
    if previous.start < current.stop + 2 then .error .invalid
    else do
      let out ← putAll [previous.start - (current.stop + 2), current.stop - current.start]
          capacity out
      putRanges current rest capacity out

def encodeStreamPrefix (s : StreamFrame) (capacity : Nat) : Except Error Bytes :=
  putAll [frameStreamBase ||| 0x04 ||| 0x02 ||| s.fin.toNat, s.id, s.offset, s.data.length]
    capacity []

namespace Frame

def encode (frame : Frame) (capacity : Nat) : Except Error Bytes :=
  match frame with
  | padding => if capacity = 0 then .error .bufferTooSmall else .ok [UInt8.ofNat framePadding]
  | ping => if capacity = 0 then .error .bufferTooSmall else .ok [UInt8.ofNat framePing]
  | ack largest delay => putAll [frameAck, largest, delay, 0, 0] capacity []
  | ackRanges largest delay ranges =>
    match ranges.ranges with
    | [] => .error .invalid
    | first :: rest =>
      if first.stop ≠ largest then .error .invalid
      else do
        let out ← putAll [frameAck, largest, delay, rest.length, first.stop - first.start]
            capacity []
        putRanges first rest capacity out
  | ackFrequency sequence packetThreshold maxAckDelayUs reorderingThreshold =>
    putAll [frameAckFrequency, sequence, packetThreshold, maxAckDelayUs, reorderingThreshold]
      capacity []
  | stream s => do
      let out ← encodeStreamPrefix s capacity
      putData s.data capacity out
  | datagram data length => do
      let out ← putAll (if length then [0x31, data.length] else [0x30]) capacity []
      putData data capacity out
  | maxData max => putAll [frameMaxData, max] capacity []
  | maxStreamData id max => putAll [frameMaxStreamData, id, max] capacity []
  | maxStreamsBidi max => putAll [frameMaxStreamsBidi, max] capacity []
  | maxStreamsUni max => putAll [frameMaxStreamsUni, max] capacity []
  | pathJoin joinCid key transactionId receiveCid => do
      let out ← putAll [framePathJoin, key.openerRole.code, key.sequence, transactionId] capacity []
      let out ← putCid joinCid capacity out
      putCid receiveCid capacity out
  | pathJoinAck key transactionId receiveCid => do
      let out ← putAll [framePathJoinAck, key.openerRole.code, key.sequence, transactionId]
          capacity []
      putCid receiveCid capacity out
  | pathChallenge token => putAll [framePathChallenge, token] capacity []
  | pathResponse token => putAll [framePathResponse, token] capacity []
  | pathStatus key sequence status =>
    putAll [framePathStatus, key.openerRole.code, key.sequence, sequence, status.code] capacity []
  | close code => putAll [frameConnectionClose, code, 0] capacity []

end Frame

/-! ## Decoding -/

/-- `get_varint(&input[p..])` followed by `p += n`. -/
def readVarint (input : Bytes) (p : Nat) : Except Error (Nat × Nat) := do
  let (v, n) ← getVarint (input.drop p)
  .ok (v, p + n)

/-- `decode_compact_cid(&input[p..])` followed by `p += n`. -/
def readCid (input : Bytes) (p : Nat) : Except Error (ConnectionId × Nat) := do
  let (cid, n) ← ConnectionId.decode (input.drop p)
  if cid.value = 0 then .error .invalid else .ok (cid, p + n)

def decodeRole : Nat → Except Error Role
  | 0 => .ok .client
  | 1 => .ok .server
  | _ => .error .invalid

def decodeStatus : Nat → Except Error PathStatusKind
  | 0 => .ok .available
  | 1 => .ok .standby
  | 2 => .ok .abandon
  | _ => .error .invalid

/-- `p.checked_add(len)` -/
def checkedAdd (p len : Nat) : Except Error Nat :=
  if p + len < usizeBound then .ok (p + len) else .error .invalid

/-- The `for _ in 0..range_count` loop of an ACK. -/
def readRanges (input : Bytes) : Nat → Nat → Nat → AckRangeSet → Except Error (AckRangeSet × Nat)
  | 0, _, p, ranges => .ok (ranges, p)
  | count + 1, previousStart, p, ranges => do
      let (gap, p) ← readVarint input p
      let (range, p) ← readVarint input p
      if previousStart < gap + 2 then .error .invalid
      else
        let currentEnd := previousStart - (gap + 2)
        if currentEnd < range then .error .invalid
        else
          let currentStart := currentEnd - range
          if currentEnd > u32Max ∨ currentStart > u32Max then .error .invalid
          else readRanges input count currentStart p (ranges.insertRange ⟨currentStart, currentEnd⟩)

def decodeAck (input : Bytes) (p : Nat) : Except Error (Frame × Nat) := do
  let (largest, p) ← readVarint input p
  let (delay, p) ← readVarint input p
  let (rangeCount, p) ← readVarint input p
  let (firstRange, p) ← readVarint input p
  if largest > u32Max ∨ firstRange > largest then .error .invalid
  else if rangeCount = 0 ∧ firstRange = 0 then .ok (.ack largest delay, p)
  else if rangeCount ≥ ackRangeCapacity then .error .invalid
  else do
    let ranges := AckRangeSet.new.insertRange ⟨largest - firstRange, largest⟩
    let (ranges, p) ← readRanges input rangeCount (largest - firstRange) p ranges
    .ok (.ackRanges largest delay ranges, p)

def decodeAckFrequency (input : Bytes) (p : Nat) : Except Error (Frame × Nat) := do
  let (sequence, p) ← readVarint input p
  let (packetThreshold, p) ← readVarint input p
  let (maxAckDelayUs, p) ← readVarint input p
  let (reorderingThreshold, p) ← readVarint input p
  .ok (.ackFrequency sequence packetThreshold maxAckDelayUs reorderingThreshold, p)

/-- A frame that is its type followed by one number. -/
def decodeValue (kind : Nat → Frame) (input : Bytes) (p : Nat) : Except Error (Frame × Nat) := do
  let (v, p) ← readVarint input p
  .ok (kind v, p)

def decodeMaxStreamData (input : Bytes) (p : Nat) : Except Error (Frame × Nat) := do
  let (id, p) ← readVarint input p
  let (max, p) ← readVarint input p
  .ok (.maxStreamData id max, p)

/-- The payload length of a frame: explicit, or the rest of the input. -/
def readLength (explicit : Bool) (input : Bytes) (p : Nat) : Except Error (Nat × Nat) :=
  if explicit then readVarint input p else .ok (input.length - p, p)

/-- The offset of a STREAM frame: explicit, or zero. -/
def readOffset (explicit : Bool) (input : Bytes) (p : Nat) : Except Error (Nat × Nat) :=
  if explicit then readVarint input p else .ok (0, p)

def decodeDatagram (length : Bool) (input : Bytes) (p : Nat) : Except Error (Frame × Nat) := do
  let (len, p) ← readLength length input p
  let stop ← checkedAdd p len
  if input.length < stop then .error .truncated
  else .ok (.datagram ((input.drop p).take len) length, stop)

def decodePathJoin (input : Bytes) (p : Nat) : Except Error (Frame × Nat) := do
  let (role, p) ← readVarint input p
  let openerRole ← decodeRole role
  let (sequence, p) ← readVarint input p
  let (transactionId, p) ← readVarint input p
  let (joinCid, p) ← readCid input p
  let (receiveCid, p) ← readCid input p
  if sequence = 0 ∨ transactionId = 0 ∨ joinCid.value = 0 ∨ receiveCid.value = 0 then
    .error .invalid
  else .ok (.pathJoin joinCid ⟨openerRole, sequence⟩ transactionId receiveCid, p)

def decodePathJoinAck (input : Bytes) (p : Nat) : Except Error (Frame × Nat) := do
  let (role, p) ← readVarint input p
  let openerRole ← decodeRole role
  let (sequence, p) ← readVarint input p
  let (transactionId, p) ← readVarint input p
  let (receiveCid, p) ← readCid input p
  if sequence = 0 ∨ transactionId = 0 ∨ receiveCid.value = 0 then .error .invalid
  else .ok (.pathJoinAck ⟨openerRole, sequence⟩ transactionId receiveCid, p)

/-- `PATH_CHALLENGE` and `PATH_RESPONSE` carry one non-zero token. -/
def decodePathToken (kind : Nat → Frame) (input : Bytes) (p : Nat) :
    Except Error (Frame × Nat) := do
  let (token, p) ← readVarint input p
  if token = 0 then .error .invalid else .ok (kind token, p)

def decodePathStatus (input : Bytes) (p : Nat) : Except Error (Frame × Nat) := do
  let (role, p) ← readVarint input p
  let openerRole ← decodeRole role
  let (keySequence, p) ← readVarint input p
  let (sequence, p) ← readVarint input p
  let (status, p) ← readVarint input p
  if sequence = 0 then .error .invalid
  else do
    let status ← decodeStatus status
    .ok (.pathStatus ⟨openerRole, keySequence⟩ sequence status, p)

/-- A close frame's reason phrase is skipped. -/
def decodeClose (input : Bytes) (p : Nat) : Except Error (Frame × Nat) := do
  let (code, p) ← readVarint input p
  let (len, p) ← readVarint input p
  let stop ← checkedAdd p len
  if input.length < stop then .error .truncated else .ok (.close code, stop)

def decodeStream (t : Nat) (input : Bytes) (p : Nat) : Except Error (Frame × Nat) := do
  let (id, p) ← readVarint input p
  let (offset, p) ← readOffset (t &&& 4 ≠ 0) input p
  let (len, p) ← readLength (t &&& 2 ≠ 0) input p
  let stop ← checkedAdd p len
  if input.length < stop then .error .truncated
  else .ok (.stream ⟨id, offset, t &&& 1 ≠ 0, (input.drop p).take len⟩, stop)

def decodeFrame (input : Bytes) : Except Error (Frame × Nat) := do
  let (typ, p) ← getVarint input
  match typ with
  | framePadding => .ok (.padding, p)
  | framePing => .ok (.ping, p)
  | frameAck => decodeAck input p
  | frameAckFrequency => decodeAckFrequency input p
  | frameMaxData => decodeValue .maxData input p
  | 0x30 => decodeDatagram false input p
  | 0x31 => decodeDatagram true input p
  | frameMaxStreamData => decodeMaxStreamData input p
  | frameMaxStreamsBidi => decodeValue .maxStreamsBidi input p
  | frameMaxStreamsUni => decodeValue .maxStreamsUni input p
  | framePathJoin => decodePathJoin input p
  | framePathJoinAck => decodePathJoinAck input p
  | framePathChallenge => decodePathToken .pathChallenge input p
  | framePathResponse => decodePathToken .pathResponse input p
  | framePathStatus => decodePathStatus input p
  | frameConnectionClose => decodeClose input p
  | t =>
    if frameStreamBase ≤ t ∧ t ≤ frameStreamBase + 7 then decodeStream t input p
    else .error .invalid

end QuicLite
