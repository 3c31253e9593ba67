import QuicLite.Endpoint.State
import QuicLite.Wire.Keyed

/-!
# Receive credit and control packets

The application reports consumption; limits rise, and the raised limits wait in `pendingStreamIds`
and `creditPending` until a packet that carried them is acknowledged. Control frames are encoded
without touching the state and committed once the packet that holds them is certain to leave.
-/

namespace QuicLite

/-- A packet in the output buffer: the header and frames that were encoded, and their bytes. -/
structure Packet where
  header : ShortHeader
  frames : List Frame
  bytes : Bytes
  deriving DecidableEq

namespace Packet

/-- `ShortHeader { .. }.encode(out)` -/
def start (header : ShortHeader) (capacity : Nat) : Except Error Packet := do
  let bytes ← header.encode capacity
  .ok ⟨header, [], bytes⟩

/-- `frame.encode(&mut out[used..])` -/
def push (self : Packet) (frame : Frame) (capacity : Nat) : Except Error Packet := do
  let bytes ← frame.encode (capacity - self.bytes.length)
  .ok ⟨self.header, self.frames ++ [frame], self.bytes ++ bytes⟩

end Packet

/-- Control frames that wait for the rest of their packet. -/
structure EncodedControlFrames where
  frames : List Frame
  bytes : Bytes
  ack : Bool
  credit : Bool
  creditStreamCount : Nat
  creditMaxStreamsBidi : Bool
  ackFrequency : Bool

namespace EncodedControlFrames

def empty : EncodedControlFrames := ⟨[], [], false, false, 0, false, false⟩

def push (self : EncodedControlFrames) (frame : Frame) (capacity : Nat) :
    Except Error EncodedControlFrames := do
  let bytes ← frame.encode (capacity - self.bytes.length)
  .ok { self with frames := self.frames ++ [frame], bytes := self.bytes ++ bytes }

end EncodedControlFrames

/-- Control frames go behind the rest of their packet. -/
def Packet.withControl (self : Packet) : Option EncodedControlFrames → Packet
  | some control => ⟨self.header, self.frames ++ control.frames, self.bytes ++ control.bytes⟩
  | none => self

/-- `Error::Truncated | Error::BufferTooSmall` -/
def Error.isRoom : Error → Bool
  | .truncated | .bufferTooSmall => true
  | _ => false

/-- How far the encoder got: either it returns here, or the next frame follows. -/
inductive Written where
  | done (control : Option EncodedControlFrames)
  | more (control : EncodedControlFrames)

namespace EndpointState

variable {P : Nat}

/-! ## Consumption and credit -/

def queueStreamCredit (self : EndpointState P) (streamId : Nat) : EndpointState P :=
  { self with
    creditDirty := self.creditDirty || self.creditPacketNumber.isSome
    creditPending := true
    pendingStreamIds :=
      if self.pendingStreamIds.contains streamId then self.pendingStreamIds
      else self.pendingStreamIds ++ [streamId] }

/-- A retired peer stream makes room for another one. -/
def replenishStreams (self : EndpointState P) : EndpointState P :=
  let retired := satAdd self.retiredPeerBidi 1
  let target := satAdd retired self.receiveGrowthLimits.maxStreamsBidi
  let raises := self.receive.limits.maxStreamsBidi < target
  { self with
    retiredPeerBidi := retired
    receive :=
      if raises then { self.receive with
        limits := { self.receive.limits with maxStreamsBidi := target } }
      else self.receive
    maxStreamsBidiPending := self.maxStreamsBidiPending || raises
    creditDirty := self.creditDirty || self.creditPacketNumber.isSome
    creditPending := true
    controlPending := true }

/-- The removal half of `try_retire_stream`. -/
def removeStream (self : EndpointState P) (streamId : Nat) : EndpointState P :=
  { self with
    send := self.send.removeStream streamId
    receive := self.receive.retireStream streamId
    pendingStreamIds := self.pendingStreamIds.filter (· != streamId)
    creditInflightStreamCount := self.creditInflightStreamCount -
      (self.pendingStreamIds.take self.creditInflightStreamCount).count streamId }

section

variable (self : EndpointState P)

def tryRetireStream (streamId : Nat) : EndpointState P :=
  if !self.send.isFinished streamId || !self.receive.isComplete streamId
      || self.records.any fun packet => packet.streamId == streamId then self
  else
    let peerInitiated := self.receive.isPeerInitiated streamId
    let self := self.removeStream streamId
    if peerInitiated && !isUnidirectional streamId then self.replenishStreams else self

/-- Whether enough was consumed to publish a new limit. -/
def creditDue (P : Nat) (forceControl : Bool) (consumed advertised window : Nat) : Bool :=
  let threshold := if forceControl || window ≤ satMul P 2 then 1 else (window + 7) / 8
  threshold ≤ satAdd consumed window - advertised

/-- Raise the limits that are due after consumption, and report whether one was. -/
def extendDueCredit (streamId : Nat) (forceControl : Bool) : EndpointState P × Bool :=
  let limits := self.receiveGrowthLimits
  let connectionDue := creditDue P forceControl self.receive.connection.consumed
    self.receive.connection.maxData
    limits.maxData
  let receive := if connectionDue then
    self.receive.extendConnectionCredit limits.maxData else self.receive
  let streamDue := (receive.find streamId).any fun stream =>
    creditDue P forceControl stream.consumed stream.maxData limits.maxStreamData
  let receive :=
    if streamDue then receive.modifyStream streamId (·.extend limits.maxStreamData) else receive
  ({ self with receive := receive }, connectionDue || streamDue)

/-- `stream_consumed` (forced), `stream_consumed_deferred` and
`stream_consumed_before_packet_ack`. -/
def streamConsumedInner (streamId bytes : Nat) (forceControl scheduleAck : Bool) :
    EndpointState P × Except Error Unit :=
  match self.receive.consume streamId bytes with
  | .error e => (self, .error e)
  | .ok receive =>
    let (self, due) := { self with
      receive := receive : EndpointState P }.extendDueCredit streamId forceControl
    let self := { self with
      controlPending := self.controlPending || forceControl : EndpointState P }
    let self :=
      if scheduleAck then self.scheduleApplicationAck self.pendingReceiveAckPath forceControl
      else self
    let self := if due then self.queueStreamCredit streamId else self
    (self.tryRetireStream streamId, .ok ())

def streamConsumedWithoutCredit (streamId bytes : Nat) : EndpointState P × Except Error Unit :=
  match self.receive.consume streamId bytes with
  | .error e => (self, .error e)
  | .ok receive =>
    let self := { self with receive := receive : EndpointState P }
    (self.scheduleApplicationAck self.pendingReceiveAckPath false, .ok ())

def requestStreamReack : EndpointState P :=
  { self with controlPending := true : EndpointState P }.scheduleApplicationAck 0 true

def grantReceiveWindow (streamId windowBytes : Nat) : EndpointState P × Except Error Unit :=
  let connectionWindow := min windowBytes self.receiveGrowthLimits.maxData
  let streamWindow := min windowBytes self.receiveGrowthLimits.maxStreamData
  let self := { self with
    receive := self.receive.extendConnectionCredit connectionWindow : EndpointState P }
  match self.receive.extendStreamCredit streamId streamWindow with
  | .error e => (self, .error e)
  | .ok receive =>
    ({ self with receive := receive, controlPending := true : EndpointState P }.queueStreamCredit
      streamId, .ok ())

end

def prepareLocalBidiReceive (self : EndpointState P) (streamId : Nat) :
    EndpointState P × Except Error Unit :=
  match self.receive.prepareLocalBidiReceive streamId with
  | .error e => (self, .error e)
  | .ok receive => ({ self with receive := receive }, .ok ())

/-- Streams whose limit the new policy raises. -/
def raisedBy (self : EndpointState P) (maxStreamData : Nat) : List Nat :=
  (self.receive.streams.filter fun stream =>
    stream.maxData < satAdd stream.consumed maxStreamData).map (·.id)

def setReceiveGrowthLimits (self : EndpointState P) (limits : ConnectionLimits) :
    EndpointState P × Except Error Unit :=
  if limits.maxData = 0 ∨ limits.maxStreamData = 0 then (self, .error .invalid)
  else
    let raised := self.raisedBy limits.maxStreamData
    let receive := self.receive.extendConnectionCredit limits.maxData
    let receive := { receive with streams := receive.streams.map (·.extend limits.maxStreamData) }
    let self := raised.foldl queueStreamCredit
      { self with receiveGrowthLimits := limits, receive := receive : EndpointState P }
    let target := satAdd self.retiredPeerBidi limits.maxStreamsBidi
    let raises := self.receive.limits.maxStreamsBidi < target
    ({ self with
       receive :=
         if raises then { self.receive with
           limits := { self.receive.limits with maxStreamsBidi := target } }
         else self.receive
       maxStreamsBidiPending := self.maxStreamsBidiPending || raises
       creditPending := true
       controlPending := true }, .ok ())

/-! ## Control frames -/

/-- The limit a MAX_STREAM_DATA frame carries for a stream. -/
def advertisedStreamLimit (self : EndpointState P) (streamId : Nat) : Nat :=
  (self.receive.streamMaxData streamId).getD self.receive.limits.maxStreamData

def encodeStreamCredit (self : EndpointState P) (capacity : Nat) :
    List Nat → EncodedControlFrames → Except Error EncodedControlFrames
  | [], control => .ok control
  | streamId :: ids, control =>
    match control.push (.maxStreamData streamId (self.advertisedStreamLimit streamId)) capacity with
    | .ok control =>
      self.encodeStreamCredit capacity ids { control with
        creditStreamCount := control.creditStreamCount + 1 }
    | .error e => if e.isRoom then .ok control else .error e

variable (self : EndpointState P)

def encodeMaxStreams (capacity : Nat) (control : EncodedControlFrames) :
    Except Error EncodedControlFrames :=
  if !self.maxStreamsBidiPending then .ok control
  else
    match control.push (.maxStreamsBidi self.receive.limits.maxStreamsBidi) capacity with
    | .ok control => .ok { control with creditMaxStreamsBidi := true }
    | .error e => if e.isRoom then .ok control else .error e

/-- The streams a publication names: all pending ones, or those of the publication it repeats. -/
def publishedStreamIds : List Nat :=
  if self.creditPacketNumber.isSome && !self.creditDirty then
    self.pendingStreamIds.take (min self.creditInflightStreamCount self.pendingStreamIds.length)
  else self.pendingStreamIds

def encodeCreditFrames (capacity : Nat) (piggyback : Bool) (control : EncodedControlFrames) :
    Except Error Written :=
  match control.push (.maxData self.receive.connection.maxData) capacity with
  | .error e => if e.isRoom && piggyback then .ok (.done (some control)) else .error e
  | .ok control => do
      let control ← self.encodeStreamCredit capacity self.publishedStreamIds { control with
          credit := true }
      let control ← self.encodeMaxStreams capacity control
      .ok (.more control)

def encodeAckFrames (path : PathState) (capacity : Nat) (piggyback sendCredit : Bool) :
    Except Error Written :=
  match self.largestReceived with
  | none => .error .invalid
  | some largest =>
    let delay := min (path.sendClock - path.largestReceivedAt) self.maxAckDelayUs
    match EncodedControlFrames.empty.push (.ackRanges largest delay self.receivedPackets)
      capacity with
    | .error e => if e.isRoom && piggyback then .ok (.done none) else .error e
    | .ok control =>
      let control := { control with ack := true }
      if sendCredit then self.encodeCreditFrames capacity piggyback control else .ok (.more control)

/-- The last frame, and the decision whether there is anything to send. -/
def encodeAckFrequency (frequency : Option (Nat × Nat × Nat × Nat)) (capacity : Nat)
    (piggyback : Bool) (control : EncodedControlFrames) :
    Except Error (Option EncodedControlFrames) :=
  let finish := fun control : EncodedControlFrames => if control.bytes = [] then
    none else some control
  match frequency with
  | none => .ok (finish control)
  | some (sequence, packetThreshold, maxAckDelayUs, reorderingThreshold) =>
    match control.push (.ackFrequency sequence packetThreshold maxAckDelayUs reorderingThreshold)
      capacity with
    | .ok control => .ok (finish { control with ackFrequency := true })
    | .error e => if e.isRoom && piggyback then .ok (finish control) else .error e

/-- A lost publication is repeated on the retry timer of path zero. -/
def creditRetryDue (pathId : Nat) (path : PathState) : Bool :=
  pathId == 0 && self.creditPending && self.creditRetryAfter ≤ path.sendClock - self.lastAckTime

/-- An unchanged publication is not repeated before its ACK or its retry timer. -/
def sendsCredit (pathId : Nat) (path : PathState) : Bool :=
  self.creditPending && (self.creditPacketNumber.isNone || self.creditDirty ||
    self.creditRetryDue pathId path)

def encodeControlFramesOnPath (pathId capacity : Nat) (piggyback : Bool) :
    Except Error (Option EncodedControlFrames) :=
  match self.paths[pathId]? with
  | none => .error .invalid
  | some path =>
    if piggyback ∧ pathId ≠ self.pendingControlPath.getD self.pendingReceiveAckPath then .ok none
    else
      let ackThresholdDue := path.ackPending && self.ackFrequency ≤ path.ackPackets
      let ackTimerDue := path.ackPending && self.maxAckDelayUs ≤ path.sendClock - path.ackStartedAt
      let sendCredit := self.sendsCredit pathId path
      let sendAck := self.controlPending || path.ackImmediate || ackThresholdDue || ackTimerDue
        || self.creditRetryDue pathId path || (piggyback && (path.ackPending || sendCredit))
      let ackFrequency := if pathId = 0 then self.pendingAckFrequency else none
      if !sendAck && ackFrequency.isNone then .ok none
      else do
        let written ←
          if sendAck then self.encodeAckFrames path capacity piggyback sendCredit
          else .ok (.more EncodedControlFrames.empty)
        match written with
        | .done control => .ok control
        | .more control => encodeAckFrequency ackFrequency capacity piggyback control

/-- The credit half of `commit_control_frames`. -/
def commitCredit (packetNumber : Nat) (control : EncodedControlFrames) : EndpointState P :=
  let retryingCredit := self.creditPacketNumber.isSome && !self.creditDirty
  { self with
    creditPacketNumber := some packetNumber
    creditInflightStreamCount := control.creditStreamCount
    creditInflightMaxStreamsBidi := control.creditMaxStreamsBidi
    creditDirty := false
    creditRetryBackoff := if retryingCredit then
      min (self.creditRetryBackoff + 1) maxPtoBackoffExponent else 0 }

/-- The ACK half: the pending ACK of the path is on its way. -/
def commitAck (pathId : Nat) (credit : Bool) : EndpointState P :=
  let self := { self with
    controlPending := false
    lastAckTime :=
      if credit || self.creditPacketNumber.isNone then (self.pathAt pathId).sendClock
      else self.lastAckTime
    paths := self.paths.modify pathId fun path =>
      { path with ackPending := false, ackPackets := 0, ackImmediate := false } : EndpointState P }
  self.refreshAckSummary

def commitControlFrames (pathId packetNumber : Nat) (control : EncodedControlFrames) :
    EndpointState P :=
  let self := if control.ack then self.commitAck pathId control.credit else self
  let self := if control.ack && control.credit then self.commitCredit packetNumber control else self
  if control.ackFrequency then { self with pendingAckFrequency := none } else self

/-! ## Packet protection -/

/-- The cipher and the keys of an endpoint that protects its packets. -/
abbrev Keys := Option (Aead × EndpointProtection)

/-- `protect_packet_in_place`: the associated data has the peer's id on the path. -/
def protectPacketInPlace (aead : Aead) (protection : EndpointProtection) (pathId : Nat)
    (packet : Packet) (capacity : Nat) : Except Error Packet :=
  match self.peerConnectionIdOnPath pathId with
  | none => .error .wrongConnectionId
  | some destination => do
      let bytes ← protectPacket aead protection.send destination self.nextPacketNumber packet.bytes
          capacity
      .ok { packet with bytes := bytes }

variable (keys : Keys)

/-- With keys every emission seals its packet right after writing it, and everything that it checks
or reserves from then on counts the tag. -/
def protect (pathId : Nat) (packet : Packet) (capacity : Nat) : Except Error Packet :=
  match keys with
  | none => .ok packet
  | some (aead, protection) => self.protectPacketInPlace aead protection pathId packet capacity

/-- Where the frames have to end. -/
def controlBodyEnd (keys : Keys) (capacity : Nat) : Nat :=
  match keys with
  | none => capacity
  | some _ => capacity - aeadTagLen

/-! ## Packets outside the ledger -/

/-- The packet of `poll_transmit_on_path`, before anything is committed. -/
def planTransmit (pathId capacity : Nat) : Except Error (Option (Packet × EncodedControlFrames)) :=
  if self.paths.length ≤ pathId then .error .invalid
  else if self.pendingControlPath.isNone then .ok none
  else
    match self.peerConnectionIdOnPath pathId with
    | none => .error .wrongConnectionId
    | some dcid => do
        let packet ← Packet.start ⟨flagFixed, dcid, self.nextPacketNumber, self.nextPacketNumberLen⟩
            capacity
        let bodyEnd := controlBodyEnd keys capacity
        if bodyEnd < packet.bytes.length then .error .bufferTooSmall
        else do
          let control ← self.encodeControlFramesOnPath pathId (bodyEnd - packet.bytes.length) false
          match control with
          | none => .ok none
          | some control =>
            if u32Max ≤ self.nextPacketNumber then .error .packetNumberExhausted
            else do
              let packet ← self.protect keys pathId
                ⟨packet.header, control.frames, packet.bytes ++ control.bytes⟩ capacity
              .ok (some (packet, control))

def pollTransmitOnPath (pathId capacity : Nat) : EndpointState P × Except Error (Option Packet) :=
  match self.planTransmit keys pathId capacity with
  | .error e => (self, .error e)
  | .ok none => (self, .ok none)
  | .ok (some (packet, control)) =>
    let self := self.commitControlFrames pathId self.nextPacketNumber control
    ({ self with nextPacketNumber := self.nextPacketNumber + 1 }, .ok (some packet))

/-- CONNECTION_CLOSE. The number is checked only after the packet is written. -/
def pollClose (capacity : Nat) : EndpointState P × Except Error (Option Packet) :=
  match self.closeCode with
  | none => (self, .ok none)
  | some code =>
    match self.peerConnectionIdOnPath 0 with
    | none => (self, .error .wrongConnectionId)
    | some dcid =>
      match Packet.start ⟨flagFixed, dcid, self.nextPacketNumber, self.nextPacketNumberLen⟩ capacity
          >>= fun packet => packet.push (.close code) capacity
          >>= fun packet => self.protect keys 0 packet capacity with
      | .error e => (self, .error e)
      | .ok packet =>
        if u32Max ≤ self.nextPacketNumber then (self, .error .packetNumberExhausted)
        else ({ self with nextPacketNumber := self.nextPacketNumber + 1 }, .ok (some packet))

/-- The Ping of `encode_probe_packet`. Its number is truncated against what was received. -/
def encodeProbePacket (dcid : ConnectionId) (capacity : Nat) :
    EndpointState P × Except Error Packet :=
  if self.peerCid.any (· != dcid) then (self, .error .wrongConnectionId)
  else
    let packetNumber := self.nextPacketNumber
    let header : ShortHeader :=
      ⟨flagFixed, dcid, packetNumber, packetNumberLen packetNumber self.largestReceived⟩
    match Packet.start header capacity >>= fun packet => packet.push .ping capacity
        >>= fun packet => self.protect keys 0 packet capacity with
    | .error e => (self, .error e)
    | .ok packet =>
      if u32Max ≤ packetNumber then (self, .error .packetNumberExhausted)
      else ({ self with nextPacketNumber := packetNumber + 1 }, .ok packet)

end EndpointState

end QuicLite
