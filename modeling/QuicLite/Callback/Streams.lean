import QuicLite.Lib.FirstMatch
import QuicLite.Lib.Runs
import QuicLite.Wire.Frame

/-!
# Ordered stream delivery

`CallbackStreams` turns STREAM frames, which arrive in any order, into ordered chunks for the
application. Frames at the cursor can be handed over straight from the receive buffer (borrowed
ingress); frames behind a gap are retained with their packet until the gap closes. The application
either holds one leased chunk at a time and reports completion, or copies what it wants at once.

A packet lease is modelled by its bytes. The application is an arbitrary function from the chunk it
is offered to the number of bytes it accepts; since no operation offers the same chunk twice, such a
function per operation also covers consumers with state of their own. Fallible allocations
(`try_reserve`) are decided by a `Heap` oracle.
-/

namespace QuicLite.Callback

open FirstMatch

inductive CallbackError where
  | invalidOverlap
  | invalidFin
  | invalidCompletion
  | capacity
  deriving DecidableEq, Repr

inductive CopyingError where
  | transport (e : CallbackError)
  | callback
  deriving DecidableEq, Repr

structure StreamDone where
  stream : Nat
  deliveryId : Nat
  deriving DecidableEq, Repr

/-- A received range: `packet[start..stop]` at stream offset `offset`. -/
structure Retained where
  offset : Nat
  packet : Bytes
  start : Nat
  stop : Nat
  isEnd : Bool

/-- `&packet[start..stop]` -/
def slice (packet : Bytes) (start stop : Nat) : Bytes := (packet.drop start).take (stop - start)

namespace Retained

def len (r : Retained) : Nat := r.stop - r.start

def bytes (r : Retained) : Bytes := slice r.packet r.start r.stop

end Retained

/-- The chunk the application holds a lease on. -/
structure Outstanding where
  completion : StreamDone
  len : Nat
  isEnd : Bool
  packet : Bytes

structure StreamChunk where
  stream : Nat
  offset : Nat
  isEnd : Bool
  deliveryId : Nat
  packet : Bytes
  start : Nat
  stop : Nat
  deriving DecidableEq, Repr

structure OrderedStream where
  id : Nat
  consumed : Nat
  finalSize : Option Nat
  retained : List Retained
  outstanding : Option Outstanding
  nextDelivery : Nat
  finished : Bool

/-- What the application sees. -/
inductive Event where
  | chunk (stream offset : Nat) (accepted : Bytes)
  | leased (chunk : StreamChunk)
  | finished (stream : Nat)
  | reset (stream code : Nat)
  deriving DecidableEq, Repr

/-- A copying consumer: how much of `stream`'s chunk at `offset` it accepts, or an error of its
own. -/
abbrev Consumer := (stream offset : Nat) → (isEnd : Bool) → Bytes → Option Nat

/-- Whether the allocations of one call succeed. -/
structure Heap where
  retained : Bool
  streams : Bool

namespace OrderedStream

def new (id : Nat) : OrderedStream := ⟨id, 0, none, [], none, 1, false⟩

/-- The comparison of a new range `[offset, stop)` with one retained range: bytes that disagree, or
an overlap that is not an exact retransmission, refuse the frame. -/
def conflicts (existing : Retained) (packet : Bytes) (offset start stop : Nat) : Bool :=
  let a0 := existing.offset
  let a1 := a0 + existing.len
  let b0 := offset
  let b1 := offset + (stop - start)
  let overlapStart := max a0 b0
  let overlapEnd := min a1 b1
  if overlapStart < overlapEnd then
    let al := overlapStart - a0
    let bl := overlapStart - b0
    let n := overlapEnd - overlapStart
    slice existing.packet (existing.start + al) (existing.start + al + n) ≠
        slice packet (start + bl) (start + bl + n) ||
      existing.offset ≠ offset || existing.len ≠ stop - start
  else false

def sameRange (existing : Retained) (packet : Bytes) (offset start stop : Nat) : Bool :=
  existing.offset = offset && existing.len = stop - start &&
    existing.bytes = slice packet start stop

/-- `retained.insert(partition_point(|item| item.offset <= offset), item)` -/
def insertSorted (item : Retained) (l : List Retained) : List Retained :=
  l.takeWhile (fun r => r.offset ≤ item.offset) ++ item ::
    l.dropWhile (fun r => r.offset ≤ item.offset)

variable (self : OrderedStream)

/-- `if fin { self.final_size = Some(end) }` -/
def noteFin (fin : Bool) (stop : Nat) : OrderedStream :=
  if fin then { self with finalSize := some stop } else self

/-- A known final size excludes a frame that ends at `stop`. -/
def finConflict (fin : Bool) (stop : Nat) : Bool :=
  match self.finalSize with
  | some finalSize => stop > finalSize || (fin && stop ≠ finalSize)
  | none => false

/-- The tail of `insert`, after trimming to the cursor. -/
def insertTrimmed (packet : Bytes) (offset start stop : Nat) (fin : Bool)
    (maxNewBytes : Nat) (heap : Heap) : Except CallbackError (OrderedStream × Nat) :=
  if self.retained.any (fun existing => conflicts existing packet offset start stop) then
    .error .invalidOverlap
  else if self.retained.any (fun existing => sameRange existing packet offset start stop) then
    .ok (self.noteFin fin (offset + (stop - start)), 0)
  else if stop - start > maxNewBytes then .error .capacity
  else if !heap.retained then .error .capacity
  else
    .ok ({ self with
      retained := insertSorted ⟨offset, packet, start, stop, fin⟩ self.retained }.noteFin
      fin (offset + (stop - start)), stop - start)

def insert (packet : Bytes) (offset start stop : Nat) (fin : Bool)
    (maxNewBytes : Nat) (heap : Heap) : Except CallbackError (OrderedStream × Nat) :=
  if start > stop ∨ stop > packet.length then .error .invalidOverlap
  else
    let len := stop - start
    -- `offset.checked_add(len)`
    if usizeBound ≤ offset + len then .error .invalidFin
    else if self.finConflict fin (offset + len) then .error .invalidFin
    else if offset + len ≤ self.consumed ∧ ¬(len = 0 ∧ fin ∧ offset = self.consumed) then
      -- A retransmission of bytes that are already delivered.
      .ok (self.noteFin fin (offset + len), 0)
    else
      let trim := self.consumed - offset
      if start + trim = stop ∧ ¬fin then .ok (self, 0)
      else self.insertTrimmed packet (satAdd offset trim) (start + trim) stop fin maxNewBytes heap

def nextChunk : Option (OrderedStream × StreamChunk) :=
  if self.outstanding.isSome || self.finished then none
  else
    match self.retained.find? (fun item => item.offset == self.consumed) with
    | none => none
    | some item =>
      let isEnd := item.isEnd || self.finalSize = some (self.consumed + item.len)
      let completion : StreamDone := ⟨self.id, self.nextDelivery⟩
      some
        ({ self with
            retained := self.retained.eraseP (fun item => item.offset == self.consumed)
            nextDelivery := satAdd self.nextDelivery 1
            outstanding := some ⟨completion, item.len, isEnd, item.packet⟩ },
          ⟨self.id, self.consumed, isEnd, completion.deliveryId, item.packet, item.start,
            item.stop⟩)

/-- A refused completion leaves the outstanding chunk in place. -/
def done (completion : StreamDone) : Except CallbackError (OrderedStream × Bool) :=
  match self.outstanding with
  | none => .error .invalidCompletion
  | some out =>
    if out.completion ≠ completion then .error .invalidCompletion
    else if out.isEnd ∧ self.finalSize ≠ some (satAdd self.consumed out.len) then .error .invalidFin
    else
      .ok ({ self with
        outstanding := none
        consumed := satAdd self.consumed out.len
        finished := self.finished || out.isEnd }, out.isEnd)

/-- A frame at `offset` can be handed over without being retained first. -/
def atCursor (offset : Nat) : Bool :=
  !self.finished && self.outstanding.isNone && offset == self.consumed &&
    !self.retained.any (fun item => item.offset == self.consumed)

end OrderedStream

structure CallbackStreams where
  streams : List OrderedStream
  maxStreams : Nat
  maxRetainedBytes : Nat
  retainedBytes : Nat

/-- What a call leaves behind: the state (also on failure), its result, and the callbacks it
made. -/
structure Outcome (α : Type) where
  state : CallbackStreams
  result : Except CopyingError α
  events : List Event

/-- The state of `resume_copying`'s loop. -/
structure Drain where
  stream : OrderedStream
  retainedBytes : Nat
  total : Nat
  removed : Bool
  error : Option CopyingError
  events : List Event

namespace CallbackStreams

def new (maxStreams maxRetainedBytes : Nat) : CallbackStreams :=
  ⟨[], maxStreams, maxRetainedBytes, 0⟩

variable (self : CallbackStreams)

def setLimits (maxStreams maxRetainedBytes : Nat) : CallbackStreams :=
  { self with maxStreams := maxStreams, maxRetainedBytes := maxRetainedBytes }

def find (id : Nat) : Option OrderedStream :=
  self.streams.find? (fun state => state.id == id)

/-- Write one stream's state back. -/
def put (id : Nat) (state : OrderedStream) : CallbackStreams :=
  { self with streams := modifyFirst (fun state => state.id == id) (fun _ => state) self.streams }

/-- `self.streams.remove(index)` -/
def drop (id : Nat) : CallbackStreams :=
  { self with streams := self.streams.eraseP (fun state => state.id == id) }

/-- `self.streams.retain(|stream| !stream.finished)` -/
def purge : CallbackStreams :=
  { self with streams := self.streams.filter (fun state => !state.finished) }

def streamMut (id : Nat) (heap : Heap) : CallbackStreams × Except CallbackError OrderedStream :=
  let self := self.purge
  match self.find id with
  | some state => (self, .ok state)
  | none =>
    if self.streams.length ≥ self.maxStreams then (self, .error .capacity)
    else if !heap.streams then (self, .error .capacity)
    else ({ self with streams := self.streams ++ [OrderedStream.new id] },
      .ok (OrderedStream.new id))

/-- A refused range leaves no stream behind. -/
def insertRange (stream : Nat) (packet : Bytes) (offset start stop : Nat)
    (fin : Bool) (available : Nat) (heap : Heap) : CallbackStreams × Except CallbackError Nat :=
  let self := self.purge
  match self.find stream with
  | some state =>
    match state.insert packet offset start stop fin available heap with
    | .error e => (self, .error e)
    | .ok (state, bytes) => (self.put stream state, .ok bytes)
  | none =>
    if self.streams.length ≥ self.maxStreams then (self, .error .capacity)
    else
      match (OrderedStream.new stream).insert packet offset start stop fin available heap with
      | .error e => (self, .error e)
      | .ok (state, bytes) =>
        if !heap.streams then (self, .error .capacity)
        else ({ self with streams := self.streams ++ [state] }, .ok bytes)

def receiveLeased (stream : Nat) (packet : Bytes) (offset start stop : Nat) (fin : Bool)
    (heap : Heap) : Outcome Unit :=
  let available := self.maxRetainedBytes - self.retainedBytes
  match self.insertRange stream packet offset start stop fin available heap with
  | (self, .error e) => ⟨self, .error (.transport e), []⟩
  | (self, .ok bytes) =>
    match self.streamMut stream heap with
    | (self, .error e) => ⟨self, .error (.transport e), []⟩
    | (self, .ok state) =>
      let retainedBytes := satAdd self.retainedBytes bytes
      match state.nextChunk with
      | none => ⟨{ self with retainedBytes := retainedBytes }, .ok (), []⟩
      | some (state, chunk) =>
        ⟨{ self.put stream state with retainedBytes := retainedBytes }, .ok (), [.leased chunk]⟩

/-- The loop of `resume_copying`. Every turn removes a retained range or returns, so one more turn
than there are ranges always suffices. -/
def drainLoop (consumer : Consumer) : Nat → Drain → Drain
  | 0, d => d
  | fuel + 1, d =>
    let state := d.stream
    if state.finished || state.outstanding.isSome then d
    else
      match state.retained.find? (fun item => item.offset == state.consumed) with
      | none => d
      | some item =>
        match consumer state.id item.offset item.isEnd item.bytes with
        | none => { d with error := some .callback, events := d.events ++ [.reset state.id 1] }
        | some consumed =>
          if consumed > item.bytes.length then
            { d with error := some (.transport .invalidOverlap) }
          else if consumed = 0 ∧ item.bytes ≠ [] then d
          else
            let d := { d with
              total := satAdd d.total consumed
              retainedBytes := d.retainedBytes - consumed
              events := d.events ++ [Event.chunk state.id item.offset (item.bytes.take consumed)] }
            let atItem := fun r : Retained => r.offset == state.consumed
            let advanced := satAdd state.consumed consumed
            if consumed ≠ item.bytes.length then
              { d with stream := { state with
                  consumed := advanced
                  retained := modifyFirst atItem
                    (fun r =>
                      { r with offset := satAdd r.offset consumed, start := r.start + consumed })
                    state.retained } }
            else
              let state := { state with
                consumed := advanced, retained := state.retained.eraseP atItem }
              if item.isEnd then
                { d with
                  stream := { state with finished := true }
                  removed := true
                  events := d.events ++ [Event.finished state.id] }
              else drainLoop consumer fuel { d with stream := state }

def resumeCopying (stream : Nat) (consumer : Consumer) : Outcome Nat :=
  match self.find stream with
  | none => ⟨self, .ok 0, []⟩
  | some state =>
    let d := drainLoop consumer (state.retained.length + 1) ⟨state, self.retainedBytes, 0, false,
      none, []⟩
    let streams := if d.removed then self.drop stream else self.put stream d.stream
    ⟨{ streams with retainedBytes := d.retainedBytes }, match d.error with
      | some e => .error e
      | none => .ok d.total,
      d.events⟩

/-- The part of `receive_copying` behind the direct path: retain the range, then drain. -/
def receiveRetained (stream : Nat) (packet : Bytes) (offset start stop : Nat)
    (fin : Bool) (heap : Heap) (consumer : Consumer) : Outcome Unit :=
  if start > stop ∨ stop > packet.length then ⟨self, .error (.transport .invalidOverlap), []⟩
  else
    let available := self.maxRetainedBytes - self.retainedBytes
    match self.insertRange stream packet offset start stop fin available heap with
    | (self, .error e) => ⟨self, .error (.transport e), []⟩
    | (self, .ok bytes) =>
      let out := { self with retainedBytes := satAdd self.retainedBytes bytes }.resumeCopying stream
        consumer
      ⟨out.state, out.result.map fun _ => (), out.events⟩

/-- Hand a frame at the cursor to the consumer, retaining what it leaves. -/
def deliverBorrowed (state : OrderedStream) (stream : Nat) (bytes : Bytes)
    (offset : Nat) (fin : Bool) (storageOffset : Nat) (retain : Except CallbackError Bytes)
    (heap : Heap) (consumer : Consumer) : Outcome Unit :=
  let stop := offset + bytes.length
  if state.finConflict fin stop then ⟨self, .error (.transport .invalidFin), []⟩
  else
    match consumer stream offset fin bytes with
    | none => ⟨self, .error .callback, [.reset stream 1]⟩
    | some consumed =>
      if consumed > bytes.length then ⟨self, .error (.transport .invalidOverlap), []⟩
      else
        let accepted := [Event.chunk stream offset (bytes.take consumed)]
        if consumed ≠ bytes.length then
          let state := { state with consumed := offset + consumed }
          let self := self.put stream state
          if satAdd self.retainedBytes (bytes.length - consumed) > self.maxRetainedBytes then
            ⟨self, .error (.transport .capacity), accepted⟩
          else
            match retain with
            | .error e => ⟨self, .error (.transport e), accepted⟩
            | .ok packet =>
              match state.insert packet (offset + consumed) (storageOffset + consumed)
                  (storageOffset + bytes.length) fin (self.maxRetainedBytes - self.retainedBytes)
                    heap with
              | .error e => ⟨self, .error (.transport e), accepted⟩
              | .ok (state, retained) =>
                ⟨{ self.put stream state with retainedBytes := satAdd self.retainedBytes retained },
                  .ok (), accepted⟩
        else if fin then
          -- `self.streams.retain(|state| state.id != stream)`
          ⟨{ self with streams := self.streams.filter (fun state => state.id != stream) }, .ok (),
            accepted ++ [.finished stream]⟩
        else
          let state := { state with consumed := stop }
          let self := self.put stream state
          if state.retained.isEmpty then ⟨self, .ok (), accepted⟩
          else
            let out := self.resumeCopying stream consumer
            ⟨out.state, out.result.map fun _ => (), accepted ++ out.events⟩

def tryReceiveCopyingRange (stream : Nat) (bytes : Bytes) (offset : Nat)
    (fin : Bool) (storageOffset : Nat) (retain : Except CallbackError Bytes) (heap : Heap)
    (consumer : Consumer) : Outcome Unit :=
  if usizeBound ≤ offset + bytes.length then ⟨self, .error (.transport .invalidFin), []⟩
  else
    match self.streamMut stream heap with
    | (self, .error e) => ⟨self, .error (.transport e), []⟩
    | (self, .ok state) =>
      if state.atCursor offset then
        self.deliverBorrowed state stream bytes offset fin storageOffset retain heap consumer
      else
        match retain with
        | .error e => ⟨self, .error (.transport e), []⟩
        | .ok packet =>
          -- `receive_copying` would repeat the cursor test that just failed.
          self.receiveRetained stream packet offset storageOffset (storageOffset + bytes.length) fin
            heap consumer

/-- `try_receive_copying_borrowed` -/
def tryReceiveCopyingBorrowed (stream : Nat) (bytes : Bytes) (offset : Nat)
    (fin : Bool) (retain : Except CallbackError Bytes) (heap : Heap) (consumer : Consumer) :
    Outcome Unit :=
  self.tryReceiveCopyingRange stream bytes offset fin 0 retain heap consumer

def receiveCopying (stream : Nat) (packet : Bytes) (offset start stop : Nat)
    (fin : Bool) (heap : Heap) (consumer : Consumer) : Outcome Unit :=
  if start > stop ∨ stop > packet.length then ⟨self, .error (.transport .invalidOverlap), []⟩
  else
    let directlyConsumable :=
      match self.find stream with
      | none => offset == 0
      | some state => state.atCursor offset
    if directlyConsumable then
      self.tryReceiveCopyingRange stream (slice packet start stop) offset fin start (.ok packet)
        heap consumer
    else self.receiveRetained stream packet offset start stop fin heap consumer

def done (completion : StreamDone) : Outcome Unit :=
  match self.find completion.stream with
  | none => ⟨self, .error (.transport .invalidCompletion), []⟩
  | some state =>
    let outstandingLen := (state.outstanding.map Outstanding.len).getD 0
    match state.done completion with
    | .error e => ⟨self, .error (.transport e), []⟩
    | .ok (state, finished) =>
      let self := { self.put completion.stream state with
        retainedBytes := self.retainedBytes - outstandingLen }
      if finished then ⟨self.drop completion.stream, .ok (), [.finished completion.stream]⟩
      else
        match state.nextChunk with
        | none => ⟨self, .ok (), []⟩
        | some (state, chunk) => ⟨self.put completion.stream state, .ok (), [.leased chunk]⟩

def reset (stream code : Nat) : Outcome Unit :=
  match self.find stream with
  | none => ⟨self, .ok (), []⟩
  | some state =>
    let retained := (state.retained.map Retained.len).sum
    let outstanding := (state.outstanding.map Outstanding.len).getD 0
    ⟨{ self.drop stream with retainedBytes := self.retainedBytes - (retained + outstanding) },
      .ok (), [.reset stream code]⟩

end CallbackStreams

/-! ## Operations and runs -/

/-- The calls a connection makes. Limits are `usize`s. -/
inductive Op where
  | receiveLeased (stream : Nat) (packet : Bytes) (offset start stop : Nat) (fin : Bool)
      (heap : Heap)
  | receiveCopying (stream : Nat) (packet : Bytes) (offset start stop : Nat) (fin : Bool)
      (heap : Heap) (consumer : Consumer)
  | receiveBorrowed (stream : Nat) (bytes : Bytes) (offset : Nat) (fin : Bool)
      (retain : Except CallbackError Bytes) (heap : Heap) (consumer : Consumer)
  | resumeCopying (stream : Nat) (consumer : Consumer)
  | done (completion : StreamDone)
  | reset (stream code : Nat)
  | setLimits (maxStreams maxRetainedBytes : Fin usizeBound)

def apply (s : CallbackStreams) : Op → Outcome Unit
  | .receiveLeased stream packet offset start stop fin heap =>
    s.receiveLeased stream packet offset start stop fin heap
  | .receiveCopying stream packet offset start stop fin heap consumer =>
    s.receiveCopying stream packet offset start stop fin heap consumer
  | .receiveBorrowed stream bytes offset fin retain heap consumer =>
    s.tryReceiveCopyingBorrowed stream bytes offset fin retain heap consumer
  | .resumeCopying stream consumer =>
    let out := s.resumeCopying stream consumer
    ⟨out.state, out.result.map fun _ => (), out.events⟩
  | .done completion => s.done completion
  | .reset stream code => s.reset stream code
  | .setLimits maxStreams maxRetainedBytes => ⟨s.setLimits maxStreams maxRetainedBytes, .ok (), []⟩

def step (s : CallbackStreams) (op : Op) : CallbackStreams := (apply s op).state

end QuicLite.Callback
