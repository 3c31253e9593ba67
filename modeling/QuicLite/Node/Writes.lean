import QuicLite.Node.Bearers
import QuicLite.Endpoint.Refusals

/-!
# Writing to a stream

A write picks the paths that could carry it, tries them in order until one takes the packet, and
submits that packet to the bearer of the path. The packet is committed in the endpoint while it is
encoded; submission follows, and can fail. Then the handle of the stream is rolled back, and the
endpoint is not.

What the node cannot decide is in `Outcomes`: the events of bearers that are drained on the way,
buffers, readiness, and the answer of the bearer.
-/

namespace QuicLite

/-- A handle. That it is marked as priority only matters to the choice of proactive copies. -/
structure QuicStream where
  association : Nat
  id : Nat
  sendOffset : Nat
  sendFinished : Bool

def defaultMaxStreamPayload : Nat := defaultMaxPacketSize - 64

namespace StreamNode

variable {P : Nat}

open BearerNode (State)

/-- The errors of a write. -/
inductive QuicNodeEgressError where
  | missingAssociation
  | transport (error : Error)
  | poolUnavailable
  | invalidPoolLayout
  | missingEgressAddress
  | missingBearer
  | bearerBusy
  deriving DecidableEq

/-! ## The surroundings of a write -/

/-- One thing that `drain_bearer_events` does: it reads a completion, or tries a pending packet
again; an acceptance may lead to proactive copies, each encoded and submitted. Which copies are made
is left open. -/
inductive Event where
  | completed (acceptance : Option PacketAcceptance) (failed : Bool)
  | ready (bearer : Nat) (verdict : Verdict)
  | copyStream (association packetNumber pathId capacity : Nat)
  | copyCredit (association sourcePacketNumber pathId : Nat) (includeAck includeMaxData : Bool)
      (streamCreditCount : Nat) (includeMaxStreamsBidi : Bool) (capacity : Nat)
  | submit (egress : NodeEgress) (bearer : Nat) (verdict : Verdict)

def drainEvent (node : State P) : Event → State P
  | .completed acceptance failed => if failed then node.recordPacketSendFailure acceptance else node
  | .ready bearer verdict => node.retryPending bearer verdict
  | .copyStream association packetNumber pathId capacity =>
    node.onAssociation association fun e =>
      (e.duplicateStreamPacketOnPath none packetNumber pathId capacity).1
  | .copyCredit association sourcePacketNumber pathId includeAck includeMaxData streamCreditCount
      includeMaxStreamsBidi capacity =>
      node.onAssociation association fun e =>
        (e.duplicateCreditControlOnPath none sourcePacketNumber pathId includeAck
        includeMaxData streamCreditCount includeMaxStreamsBidi capacity).1
  | .submit egress bearer verdict => node.submitNodePacket egress bearer verdict

def drainBearerEvents (node : State P) (events : List Event) : State P :=
  events.foldl drainEvent node

/-- What a write reads of the node beside its associations and bearers. `bearerOf` is the bearer of
the active address of a path, or of the bootstrap address for path zero; `packetSize` is
`PACKET`. -/
structure Wiring where
  closing : Nat → Bool
  fallbackDestination : Nat → ConnectionId
  bearerOf : Nat → Nat → Option Nat
  packetSize : Nat

/-- What the pool answers to a writer: nothing, a slot that is too short, or a buffer. -/
inductive PoolAnswer where
  | unavailable
  | short
  | buffer

/-- Everything that is decided outside: the events that are drained before the write, during its
submission and after it, which bearers are ready, which paths have sent before, the pool, and the
bearer's answer. -/
structure Outcomes where
  before : List Event
  between : List Event
  after : List Event
  ready : Nat → Bool
  sentOn : Nat → Bool
  pool : Nat → PoolAnswer
  verdict : Verdict

section Write

variable (wiring : Wiring) (outcomes : Outcomes)

/-- `can_submit`, of a registered bearer. -/
def canSubmit (entry : RegisteredBearer) : Bool := outcomes.ready entry.id && entry.pending.isNone

/-- The paths that data may take, each with the bearer of its address. -/
def dataPaths (association : Nat) (endpoint : EndpointState P) : List (Nat × Nat) :=
  (List.range endpoint.paths.length).filterMap fun pathId =>
    if !(endpoint.pathAt pathId).isUsableForData || wiring.closing association then none
    else (wiring.bearerOf association pathId).map fun bearer => (pathId, bearer)

variable (node : State P)

/-- Some path has a registered bearer that can submit. -/
def sawReadyBearer (paths : List (Nat × Nat)) : Bool :=
  paths.any fun entry => (node.bearer? entry.2).any (canSubmit outcomes)

def ensureReadyStreamPath (association : Nat) : Except QuicNodeEgressError Unit :=
  match node.associations association with
  | none => .error .missingAssociation
  | some endpoint =>
    let paths := dataPaths wiring association endpoint
    if sawReadyBearer outcomes node paths then .ok ()
    else if paths.isEmpty then .error .missingEgressAddress
    else if !(paths.any fun entry => (node.bearer? entry.2).isSome) then .error .missingBearer
    else .error .bearerBusy

/-! ## Candidates -/

structure Candidate where
  ready : Nat
  sent : Nat
  cost : Nat
  rotated : Nat
  pathId : Nat

/-- The order of tuples. -/
def Candidate.le (a b : Candidate) : Prop :=
  a.ready < b.ready ∨ a.ready = b.ready ∧
    (a.sent < b.sent ∨ a.sent = b.sent ∧ (a.cost < b.cost ∨ a.cost = b.cost ∧
    (a.rotated < b.rotated ∨ a.rotated = b.rotated ∧ a.pathId ≤ b.pathId)))

instance : DecidableRel Candidate.le := fun _ _ => inferInstanceAs (Decidable (_ ∨ _))

/-- A path that can be tried. An unregistered bearer counts as one that is not ready, and comes
last. -/
def candidate? (endpoint : EndpointState P) (entry : Nat × Nat) : Option Candidate :=
  let path := endpoint.pathAt entry.1
  let count := endpoint.paths.length
  let rotation := endpoint.nextPacketNumber % max count 1
  let ready :=
    match node.bearer? entry.2 with
    | some bearer => if canSubmit outcomes bearer then some 0 else none
    | none => some 1
  match ready with
  | none => none
  | some ready =>
    if path.congestion.congestionWindow ≤ path.congestion.bytesInFlight then none
    else some ⟨ready, (outcomes.sentOn entry.1).toNat, if count = 1 then
      0 else path.measuredSendCostUs, (entry.1 + count - rotation) % max count 1, entry.1⟩

/-- The paths to try, in order. -/
def candidates (association : Nat) (endpoint : EndpointState P) : List Nat :=
  (((dataPaths wiring association endpoint).filterMap
    (candidate? outcomes node endpoint)).insertionSort Candidate.le).map (·.pathId)

/-! ## One path -/

/-- `encode_stream_payload_at_on_path` and its variant for a leased source, of a client or of a
server. -/
def encodeStreamPayload (fallback : ConnectionId) (owned : Bool) (endpoint : EndpointState P)
    (pathId : Nat) (frame : StreamFrame) (capacity : Nat) :
    EndpointState P × Except Error (Packet × Nat) :=
  let encode := fun (endpoint : EndpointState P) (destination : ConnectionId) =>
    if owned then endpoint.encodeStreamPacketFromOwnedOnPath none pathId destination frame capacity
    else endpoint.encodeStreamPacketOnPath pathId destination frame capacity
  match endpoint.receive.role with
  | .client =>
    let destination := (endpoint.peerConnectionIdOnPath pathId).getD fallback
    match endpoint.openSendStream frame.id u64Max with
    | (endpoint, .error e) => (endpoint, .error e)
    | (endpoint, .ok ()) => encode endpoint destination
  | .server =>
    -- A response stream may already have been opened by the caller.
    let endpoint := (endpoint.openSendStream frame.id u64Max).1
    match endpoint.peerConnectionIdOnPath pathId with
    | none => (endpoint, .error .wrongConnectionId)
    | some peer => encode endpoint peer

/-- The node with another endpoint for one association. -/
def withEndpoint (association : Nat) (endpoint : EndpointState P) : State P :=
  { node with associations := Function.update node.associations association (some endpoint) }

/-- `send_stream_on_path` and `send_stream_owned_on_path`: the packet, and the bearer that it is
for. The pool returns committed packets in the layout it was asked for. -/
def sendStreamOnPath (owned : Bool) (association : Nat) (frame : StreamFrame) (pathId : Nat)
    (node : State P) : State P × Except QuicNodeEgressError (Packet × Nat) :=
  match node.associations association with
  | none => (node, .error .missingAssociation)
  | some endpoint =>
    match wiring.bearerOf association pathId with
    | none => (node, .error .missingEgressAddress)
    | some bearer =>
      if wiring.closing association || !(endpoint.pathAt pathId).isUsableForData then
        (node, .error (.transport .invalid))
      else if owned && !(node.bearer? bearer).any (canSubmit outcomes) then
        (node, .error .bearerBusy)
      else
        match outcomes.pool pathId with
        | .unavailable => (node, .error .poolUnavailable)
        | .short =>
          (node, .error (if owned then .invalidPoolLayout else .transport .bufferTooSmall))
        | .buffer =>
          let encoded := encodeStreamPayload (wiring.fallbackDestination association) owned endpoint
            pathId frame
            wiring.packetSize
          match encoded.2 with
          | .error e => (withEndpoint node association encoded.1, .error (.transport e))
          | .ok (packet, _) => (withEndpoint node association encoded.1, .ok (packet, bearer))

/-! ## The write -/

/-- Try the paths in order. Only a blocked one lets the next be tried. -/
def sendOnFirst {α : Type} (attempt : Nat → State P → State P × Except QuicNodeEgressError α)
    (exhausted : QuicNodeEgressError) : List Nat → State P → State P × Except QuicNodeEgressError α
  | [], node => (node, .error exhausted)
  | pathId :: rest, node =>
    match attempt pathId node with
    | (node, .error (.transport .blocked)) => sendOnFirst attempt exhausted rest node
    | outcome => outcome

/-- `send_stream_with_priority` and `send_stream_with_owned_packet` -/
def sendStream (owned : Bool) (node : State P) (association : Nat) (frame : StreamFrame) :
    State P × Except QuicNodeEgressError (Packet × Nat) :=
  match node.associations association with
  | none => (node, .error .missingAssociation)
  | some endpoint =>
    let paths := dataPaths wiring association endpoint
    let exhausted :=
      if paths.isEmpty then .missingEgressAddress
      else if !sawReadyBearer outcomes node paths then .bearerBusy
      else .transport .blocked
    sendOnFirst (sendStreamOnPath wiring outcomes owned association frame) exhausted
      (candidates wiring outcomes node association endpoint) node

variable (node : State P)

section

variable (stream : QuicStream)

/-- `build_stream_packet` -/
def buildStreamPacket (bytes : Bytes) (fin : Bool) :
    State P × QuicStream × Except QuicNodeEgressError (Packet × Nat) :=
  if stream.sendFinished then (node, stream, .error (.transport .invalid))
  else
    match sendStream wiring outcomes false node stream.association ⟨stream.id, stream.sendOffset,
      fin, bytes⟩ with
    | (node, .error e) => (node, stream, .error e)
    | (node, .ok packet) =>
      if u64Max < stream.sendOffset + bytes.length then (node, stream, .error (.transport .invalid))
      else
        (node, { stream with sendOffset := stream.sendOffset + bytes.length, sendFinished := fin },
          .ok packet)

/-- `submit_node_packet`, of the packet of an association. The tag is made before the events are
drained. -/
def submitNodePacket (association : Nat) (packet : Packet) (bearer : Nat) :
    State P × Except QuicNodeEgressError Unit :=
  let egress : NodeEgress := ⟨packet, node.packetAcceptanceFor association packet⟩
  let node := drainBearerEvents node outcomes.between
  let submitted := node.submitNodePacket egress bearer outcomes.verdict
  match node.bearer? bearer with
  | none => (submitted, .error .missingBearer)
  | some entry =>
    if entry.pending.isSome then (submitted, .error .bearerBusy)
    else (drainBearerEvents submitted outcomes.after, .ok ())

/-- `write_stream_packet` -/
def writeStreamPacket (bytes : Bytes) (fin : Bool) :
    State P × QuicStream × Except QuicNodeEgressError Unit :=
  let node := drainBearerEvents node outcomes.before
  match ensureReadyStreamPath wiring outcomes node stream.association with
  | .error e => (node, stream, .error e)
  | .ok () =>
    match buildStreamPacket wiring outcomes node stream bytes fin with
    | (node, stream, .error e) => (node, stream, .error e)
    | (node, advanced, .ok (packet, bearer)) =>
      match submitNodePacket outcomes node stream.association packet bearer with
      | (node, .ok ()) => (node, advanced, .ok ())
      -- the caller's bytes stay available for a retry
      | (node, .error e) =>
        (node, { advanced with
          sendOffset := stream.sendOffset, sendFinished := stream.sendFinished }, .error e)

def streamSendWindow : Except QuicNodeEgressError Nat :=
  match node.associations stream.association with
  | none => .error .missingAssociation
  | some endpoint =>
    if wiring.closing stream.association then .error (.transport .invalid)
    else
      match endpoint.send.available stream.id stream.sendOffset with
      | none => .error (.transport .invalid)
      | some window => .ok window

def writeStreamChunk (bytes : Bytes) (finish : Bool) :
    State P × QuicStream × Except QuicNodeEgressError Nat :=
  if stream.sendFinished then (node, stream, .error (.transport .invalid))
  else
    match streamSendWindow wiring node stream with
    | .error e => (node, stream, .error e)
    | .ok window =>
      let count := min (min bytes.length defaultMaxStreamPayload) window
      if count = 0 then (node, stream, .error (.transport .blocked))
      else
        match writeStreamPacket wiring outcomes node stream (bytes.take count)
          (finish && count == bytes.length) with
        | (node, stream, .error e) => (node, stream, .error e)
        | (node, stream, .ok ()) => (node, stream, .ok count)

def writeStream (bytes : Bytes) : State P × QuicStream × Except QuicNodeEgressError Nat :=
  if bytes.isEmpty then (node, stream, .ok 0)
  else writeStreamChunk wiring outcomes node stream bytes false

def finishStream : State P × QuicStream × Except QuicNodeEgressError Unit :=
  if stream.sendFinished then (node, stream, .ok ())
  else writeStreamPacket wiring outcomes node stream [] true

def writeStreamAndFinish (bytes : Bytes) : State P × QuicStream × Except QuicNodeEgressError Nat :=
  if bytes.isEmpty then
    match finishStream wiring outcomes node stream with
    | (node, stream, .error e) => (node, stream, .error e)
    | (node, stream, .ok ()) => (node, stream, .ok 0)
  else writeStreamChunk wiring outcomes node stream bytes true

/-- The source lease is given back with every error. -/
def writeStreamOwnedPacket (source : Bytes) (fin : Bool) :
    State P × QuicStream × Except QuicNodeEgressError Nat :=
  if stream.sendFinished then (node, stream, .error (.transport .invalid))
  else if source.length = 0 ∨ defaultMaxStreamPayload < source.length then
    (node, stream, .error (.transport .blocked))
  else
    match streamSendWindow wiring node stream with
    | .error e => (node, stream, .error e)
    | .ok window =>
      if window < source.length then (node, stream, .error (.transport .blocked))
      else
        let node := drainBearerEvents node outcomes.before
        if u64Max < stream.sendOffset + source.length then
          (node, stream, .error (.transport .invalid))
        else
          match sendStream wiring outcomes true node stream.association
              ⟨stream.id, stream.sendOffset, fin, source⟩ with
          | (node, .error e) => (node, stream, .error e)
          | (node, .ok (packet, bearer)) =>
            -- a failed submission is repaired as a loss: the range is retained already
            ((submitNodePacket outcomes node stream.association packet bearer).1,
              { stream with sendOffset := stream.sendOffset + source.length, sendFinished := fin },
              .ok source.length)

/-- The writes of the application. -/
inductive Write where
  | writeStream (bytes : Bytes)
  | finishStream
  | writeStreamAndFinish (bytes : Bytes)
  | writeStreamOwnedPacket (source : Bytes) (fin : Bool)

def Write.call : Write → State P × QuicStream × Except QuicNodeEgressError Nat
  | .writeStream bytes => StreamNode.writeStream wiring outcomes node stream bytes
  | .finishStream =>
    let outcome := StreamNode.finishStream wiring outcomes node stream
    (outcome.1, outcome.2.1, outcome.2.2.map fun _ => 0)
  | .writeStreamAndFinish bytes => StreamNode.writeStreamAndFinish wiring outcomes node stream bytes
  | .writeStreamOwnedPacket source fin =>
    StreamNode.writeStreamOwnedPacket wiring outcomes node stream source fin

end

end Write

end StreamNode

end QuicLite
