import QuicLite.Lib.FirstMatch
import QuicLite.Wire.Frame
import Mathlib.Data.List.Sort

/-!
# Flow control

Both halves of credit. `SendFlowControl` is what the peer advertised: bytes may leave only within
it. `ConnectionState` is what this endpoint advertised: it admits arriving stream bytes, remembers
which streams were retired and raises its limits as the application consumes. Stream tables are
searched for the first entry with an id.
-/

namespace QuicLite

open FirstMatch

/-- `u64::MAX` -/
def u64Max : Nat := usizeBound - 1

/-- `saturating_mul` of 64-bit integers. -/
def satMul (a b : Nat) : Nat := min (a * b) u64Max

/-! ## Sending within the peer's credit -/

structure SendStreamCredit where
  id : Nat
  maxData : Nat
  sent : Nat
  finished : Bool
  deriving DecidableEq, Repr

structure SendFlowControl where
  maxData : Nat
  initialStreamMaxData : Nat
  sentData : Nat
  streams : List SendStreamCredit
  deriving DecidableEq, Repr

namespace SendFlowControl

def new (maxData maxStreamData : Nat) : SendFlowControl := ⟨maxData, maxStreamData, 0, []⟩

variable (self : SendFlowControl)

def stream (id : Nat) : Option SendStreamCredit :=
  self.streams.find? fun stream => stream.id == id

def openStream (id maxData : Nat) : SendFlowControl :=
  if (self.stream id).isSome then self
  else { self with
    streams := self.streams ++ [⟨id, min maxData self.initialStreamMaxData, 0, false⟩] }

/-- Bootstrap credit, before any stream is opened. -/
def setInitialLimits (maxData maxStreamData : Nat) : Except Error SendFlowControl :=
  if maxData = 0 ∨ maxStreamData = 0 ∨ self.sentData ≠ 0 ∨ self.streams ≠ [] then
    .error .flowControl
  else .ok { self with maxData := maxData, initialStreamMaxData := maxStreamData }

def canSend (id offset len : Nat) : Bool :=
  match self.stream id with
  | none => false
  | some stream =>
    let stop := satAdd offset len
    let newBytes := stop - stream.sent
    stop ≤ stream.maxData && satAdd self.sentData newBytes ≤ self.maxData

/-- Replace the entry of a stream. -/
def modifyStream (id : Nat) (f : SendStreamCredit → SendStreamCredit) : SendFlowControl :=
  { self with streams := modifyFirst (fun stream => stream.id == id) f self.streams }

def reserve (id offset len : Nat) : SendFlowControl × Except Error Unit :=
  if !self.canSend id offset len then (self, .error .flowControl)
  else
    match self.stream id with
    | none => (self, .error .invalid)
    | some stream =>
      let stop := satAdd offset len
      let newBytes := stop - stream.sent
      let self := self.modifyStream id fun stream =>
        { stream with
          sent := max stream.sent stop
          finished := if newBytes ≠ 0 then false else stream.finished }
      ({ self with sentData := satAdd self.sentData newBytes }, .ok ())

/-- Nothing is written before the last check. -/
theorem reserve_refused {id offset len : Nat} {e : Error}
    (h : (self.reserve id offset len).2 = .error e) :
    (self.reserve id offset len).1 = self := by
  unfold reserve at h ⊢
  split
  · rfl
  next hgranted =>
    rw [if_neg hgranted] at h
    cases hstream : self.stream id with
    | none => rfl
    | some stream =>
      rw [hstream] at h
      cases h

/-- The credit after a reservation that is granted: `reserve(..)?`. -/
def reserved (id offset len : Nat) : Except Error SendFlowControl :=
  (self.reserve id offset len).2.map fun _ => (self.reserve id offset len).1

theorem reserved_of_refused {id offset len : Nat} (h : self.canSend id offset len = false) :
    self.reserved id offset len = .error .flowControl := by
  simp [reserved, reserve, h, Except.map]

/-- A write is only granted on a stream that is open. -/
theorem stream_of_canSend {id offset len : Nat} (h : self.canSend id offset len = true) :
    ∃ stream, self.stream id = some stream := by
  cases hstream : self.stream id with
  | none =>
    rw [canSend, hstream] at h
    cases h
  | some stream => exact ⟨stream, rfl⟩

theorem reserved_of_granted {id offset len : Nat} {stream : SendStreamCredit}
    (h : self.canSend id offset len = true) (hstream : self.stream id = some stream) :
    self.reserved id offset len = .ok { self.modifyStream id (fun stream' =>
        { stream' with
          sent := max stream'.sent (satAdd offset len)
          finished := if satAdd offset len - stream.sent ≠ 0 then
            false else stream'.finished }) with
      sentData := satAdd self.sentData (satAdd offset len - stream.sent) } := by
  unfold reserved reserve
  rw [h, hstream]
  rfl

def extendConnection (maxData : Nat) : SendFlowControl :=
  { self with maxData := max self.maxData maxData }

def extendStream (id maxData : Nat) : Except Error SendFlowControl :=
  match self.stream id with
  | none => .error .invalid
  | some _ =>
    .ok (self.modifyStream id fun stream => { stream with maxData := max stream.maxData maxData })

def finishStream (id : Nat) : Except Error SendFlowControl :=
  match self.stream id with
  | none => .error .invalid
  | some _ => .ok (self.modifyStream id fun stream => { stream with finished := true })

def isFinished (id : Nat) : Bool :=
  (self.stream id).any (·.finished)

def removeStream (id : Nat) : SendFlowControl :=
  { self with streams := self.streams.eraseP fun stream => stream.id == id }

/-- Credit of the peer at an ordered position. -/
def available (id offset : Nat) : Option Nat :=
  (self.stream id).map fun stream =>
    min stream.maxData (satAdd stream.sent (self.maxData - self.sentData)) - offset

end SendFlowControl

/-! ## Admitting the peer's bytes -/

structure FlowControl where
  maxData : Nat
  consumed : Nat

namespace FlowControl

def new (maxData : Nat) : FlowControl := ⟨maxData, 0⟩

def canReceive (self : FlowControl) (stop : Nat) : Bool := stop ≤ self.maxData

def consume (self : FlowControl) (n : Nat) : FlowControl :=
  { self with consumed := satAdd self.consumed n }

def extend (self : FlowControl) (credit : Nat) : FlowControl :=
  { self with maxData := max self.maxData (satAdd self.consumed credit) }

end FlowControl

structure StreamState where
  id : Nat
  maxData : Nat
  received : Nat
  consumed : Nat
  finished : Bool
  deriving DecidableEq, Repr

namespace StreamState

def new (id maxData : Nat) : StreamState := ⟨id, maxData, 0, 0, false⟩

def accept (self : StreamState) (offset len : Nat) (fin : Bool) : Except Error StreamState :=
  if u64Max < offset + len then .error .flowControl
  else if self.maxData < offset + len then .error .flowControl
  else .ok { self with
    received := max self.received (offset + len), finished := self.finished || fin }

def consume (self : StreamState) (n : Nat) : StreamState :=
  { self with consumed := min self.received (satAdd self.consumed n) }

def extend (self : StreamState) (credit : Nat) : StreamState :=
  { self with maxData := max self.maxData (satAdd self.consumed credit) }

end StreamState

/-- Receive credit advertised when an association is created. -/
structure ConnectionLimits where
  maxDatagramFrameSize : Nat
  maxData : Nat
  maxStreamData : Nat
  maxStreamsBidi : Nat
  maxStreamsUni : Nat

structure ConnectionState where
  role : Role
  connection : FlowControl
  limits : ConnectionLimits
  receivedData : Nat
  streams : List StreamState
  /-- Inclusive ranges of retired ids; the ids of one range advance in steps of four. -/
  retiredStreams : List (Nat × Nat)

@[match_pattern] abbrev firstClientBidiStreamId : Nat := 4

/-- Whether the server opened a stream. -/
def isServerInitiated (id : Nat) : Bool := id &&& 1 != 0

def isUnidirectional (id : Nat) : Bool := id &&& 2 != 0

/-- Position of a stream among those of its kind. -/
def streamOrdinal (id : Nat) : Nat :=
  if firstClientBidiStreamId ≤ id ∧ id &&& 3 = 0 then (id - firstClientBidiStreamId) / 4 else id / 4

namespace ConnectionState

def new (role : Role) (limits : ConnectionLimits) : ConnectionState :=
  ⟨role, FlowControl.new limits.maxData, limits, 0, [], []⟩

variable (self : ConnectionState)

def find (id : Nat) : Option StreamState :=
  self.streams.find? fun stream => stream.id == id

def modifyStream (id : Nat) (f : StreamState → StreamState) : ConnectionState :=
  { self with streams := modifyFirst (fun stream => stream.id == id) f self.streams }

def isLocal (id : Nat) : Bool := isServerInitiated id == (self.role == .server)

def insertStream (id : Nat) : ConnectionState :=
  { self with streams := self.streams ++ [StreamState.new id self.limits.maxStreamData] }

/-- `open`: the receive half of a locally opened stream. -/
def openLocal (id : Nat) : Except Error ConnectionState :=
  if !self.isLocal id then .error .invalid
  else if (self.find id).isSome then .ok self
  else .ok (self.insertStream id)

/-- The stream a frame belongs to, inserted when a peer opens it within its limits. -/
def acquire (id stop : Nat) : Except Error ConnectionState :=
  if (self.find id).isSome then .ok self
  else if self.isLocal id then .error .invalid
  else
    let limit := if isUnidirectional id then
      self.limits.maxStreamsUni else self.limits.maxStreamsBidi
    if limit ≤ streamOrdinal id then .error .streamLimit
    else if !self.connection.canReceive (satAdd self.receivedData stop) then .error .flowControl
    else .ok (self.insertStream id)

/-- Admit one STREAM frame. A stream inserted for a frame that then exceeds the stream's own credit
stays. -/
def accept (id offset len : Nat) (fin : Bool) : ConnectionState × Except Error Unit :=
  if u64Max < offset + len then (self, .error .flowControl)
  else
    let stop := offset + len
    match self.acquire id stop with
    | .error e => (self, .error e)
    | .ok self =>
      match self.find id with
      | none => (self, .error .invalid)
      | some stream =>
        let delta := stop - stream.received
        if !self.connection.canReceive (satAdd self.receivedData delta) then
          (self, .error .flowControl)
        else
          match stream.accept offset len fin with
          | .error e => (self, .error e)
          | .ok stream =>
            ({ self.modifyStream id (fun _ => stream) with
               receivedData := satAdd self.receivedData delta }, .ok ())

def isRetired (id : Nat) : Bool :=
  self.retiredStreams.any fun range => range.1 ≤ id && id ≤ range.2 && (id - range.1) % 4 == 0

/-- The loop of `retire_stream`: absorb every range that touches `(first, last)`. -/
def mergeRetired (cls : Nat) : Nat → Nat → List (Nat × Nat) → Nat × Nat × List (Nat × Nat)
  | first, last, [] => (first, last, [])
  | first, last, range :: ranges =>
    if range.1 &&& 3 = cls ∧ first ≤ satAdd range.2 4 ∧ range.1 ≤ satAdd last 4 then
      mergeRetired cls (min first range.1) (max last range.2) ranges
    else
      let merged := mergeRetired cls first last ranges
      (merged.1, merged.2.1, range :: merged.2.2)

def retireStream (id : Nat) : ConnectionState :=
  if (self.find id).isNone then self
  else
    let merged := mergeRetired (id &&& 3) id id self.retiredStreams
    { self with
      streams := self.streams.eraseP fun stream => stream.id == id
      retiredStreams := (merged.2.2 ++ [(merged.1, merged.2.1)]).insertionSort fun a b =>
        a.1 ≤ b.1 }

def consume (id n : Nat) : Except Error ConnectionState :=
  if (self.find id).isNone then .error .invalid
  else .ok { self.modifyStream id (·.consume n) with connection := self.connection.consume n }

def isComplete (id : Nat) : Bool :=
  (self.find id).any fun stream => stream.finished && stream.consumed == stream.received

def isPeerInitiated (id : Nat) : Bool := isServerInitiated id != (self.role == .server)

def streamMaxData (id : Nat) : Option Nat := (self.find id).map (·.maxData)

def extendConnectionCredit (credit : Nat) : ConnectionState :=
  { self with connection := self.connection.extend credit }

def extendStreamCredit (id credit : Nat) : Except Error ConnectionState :=
  if (self.find id).isNone then .error .invalid else .ok (self.modifyStream id (·.extend credit))

def prepareLocalBidiReceive (id : Nat) : Except Error ConnectionState :=
  if (self.find id).isSome then .ok self
  else if !self.isLocal id || isUnidirectional id then .error .invalid
  else .ok (self.insertStream id)

end ConnectionState

end QuicLite
