import QuicLite.Endpoint.Receive
import QuicLite.Lib.Runs

/-!
# Operations and runs

The calls the owner of an association makes on its endpoint, as one type, and what each of them
does. A run is any list of them, from a fresh endpoint. Calls that only configure the endpoint or
one of its circuits are grouped, since they touch neither the ledger nor any stream.
-/

namespace QuicLite

namespace EndpointState

variable {P : Nat}

/-- Calls that configure the endpoint. -/
inductive ConfigOp where
  | installConnectionIds (localId peerId : ConnectionId)
  | setPeerConnectionIdOnPath (pathId : Nat) (peer : ConnectionId)
  | setPeerDatagramLimit (size : Nat)
  | setTime (now : Nat)
  | setAckPolicy (packets maxAckDelayUs : Nat)
  | setDuplicationBudgetCapacity (capacity : Nat)
  | setPacingConfig (config : PacingConfig)
  | setSendBufferLimitBytes (limit : Nat)
  | close (code : Nat)
  | setPathEstimatorConfig (config : PathEstimatorConfig)
  | requestStreamReack
  | requestPathValidationAck (pathId : Nat)
  | requestAckFrequency (sequence packetThreshold maxAckDelayUs reorderingThreshold : Nat)
  | recordBearerArrival (pathId receivedAtUs : Nat)
  | onBearerTimeout
  | deferPathStatus (pathId egressPath : Nat)
  | circuit (pathId : Nat) (op : CircuitOp)

def ConfigOp.apply (self : EndpointState P) : ConfigOp → EndpointState P × Except Error Unit
  | .installConnectionIds localId peerId => self.installConnectionIds localId peerId
  | .setPeerConnectionIdOnPath pathId peer => self.setPeerConnectionIdOnPath pathId peer
  | .setPeerDatagramLimit size => (self.setPeerDatagramLimit size, .ok ())
  | .setTime now => (self.setTime now, .ok ())
  | .setAckPolicy packets maxAckDelayUs => (self.setAckPolicy packets maxAckDelayUs, .ok ())
  | .setDuplicationBudgetCapacity capacity => (self.setDuplicationBudgetCapacity capacity, .ok ())
  | .setPacingConfig config => self.setPacingConfig config
  | .setSendBufferLimitBytes limit => self.setSendBufferLimitBytes limit
  | .close code => (self.close code, .ok ())
  | .setPathEstimatorConfig config => self.setPathEstimatorConfig config
  | .requestStreamReack => (self.requestStreamReack, .ok ())
  | .requestPathValidationAck pathId => (self.requestPathValidationAck pathId, .ok ())
  | .requestAckFrequency sequence packetThreshold maxAckDelayUs reorderingThreshold =>
    self.requestAckFrequency sequence packetThreshold maxAckDelayUs reorderingThreshold
  | .recordBearerArrival pathId receivedAtUs =>
    (self.recordBearerArrival pathId receivedAtUs, .ok ())
  | .onBearerTimeout => (self.onBearerTimeout, .ok ())
  | .deferPathStatus pathId egressPath => (self.deferPathStatus pathId egressPath, .ok ())
  | .circuit pathId op => (self.modifyPath pathId fun path => op.apply path, .ok ())

/-- The calls of the association's owner. `u32` arguments are bounded by their type. -/
inductive Op where
  | config (op : ConfigOp)
  | continuePacketNumbersFrom (next : Fin (u32Max + 1))
  | openSendStream (id maxData : Nat)
  | setInitialPeerBudget (maxData maxStreamData maxInFlightPackets : Nat)
  | setHistoryCapacity (limit : Nat)
  | setTransmissionCapacity (limit : Nat)
  | addPathState
  | addPathStateWithIds (localId peerId : ConnectionId)
  | addPathStateWithLocalId (localId : ConnectionId)
  | suspendPath (pathId : Nat)
  | removePathState (pathId : Nat)
  | encodeStreamPacket (pathId : Nat) (dcid : ConnectionId) (frame : StreamFrame) (capacity : Nat)
  | encodeStreamPacketFromOwned (pathId : Nat) (dcid : ConnectionId) (frame : StreamFrame)
      (capacity : Nat)
  | encodePathControlPacket (pathId : Nat) (destination : ConnectionId) (frame : Frame)
      (capacity : Nat)
  | sendDatagram (pathId start : Nat) (data : Bytes) (storage : DatagramStorage)
      (priority : DatagramPriority)
  | encodeProbePacket (dcid : ConnectionId) (capacity : Nat)
  | pollTransmit (pathId capacity : Nat)
  | pollClose (capacity : Nat)
  | retransmitStreamPacket (packetNumber capacity : Nat)
  | retransmitStreamPacketOnPath (packetNumber pathId capacity : Nat)
  | duplicateStreamPacket (packetNumber pathId capacity : Nat)
  | duplicateCreditControl (sourcePacketNumber pathId : Nat) (includeAck includeMaxData : Bool)
      (streamCreditCount : Nat) (includeMaxStreamsBidi : Bool) (capacity : Nat)
  | retransmitMarkedLoss (capacity : Nat)
  | retransmitPtoProbe (now capacity : Nat)
  | retransmitDue (now capacity : Nat)
  | packetSubmissionBlocked (packetNumber : Nat)
  | packetSubmissionAccepted (packetNumber nowUs : Nat)
  | packetSubmissionFailed (packetNumber : Nat)
  | markLost (packetNumber : Nat)
  | applyAckRanges (acknowledged : AckRangeSet) (reportedAckDelay ingressPath : Nat)
  | receivePacketBatch (input : Bytes) (ingressPath : Nat) (deferStreamAck : Bool)
  | commitStreamPacketReceive (packetNumber ingressPath : Nat)
  | streamConsumed (streamId bytes : Nat) (forceControl scheduleAck : Bool)
  | streamConsumedWithoutCredit (streamId bytes : Nat)
  | grantReceiveWindow (streamId windowBytes : Nat)
  | setReceiveGrowthLimits (limits : ConnectionLimits)
  | prepareLocalBidiReceive (streamId : Nat)

/-- The state a call leaves, and the packet it wrote or its error. -/
structure Outcome (P : Nat) where
  state : EndpointState P
  result : Except Error (Option Packet)

/-- The packet that a call returned. -/
def Outcome.packet (outcome : Outcome P) : Option Packet :=
  match outcome.result with
  | .ok pkt => pkt
  | .error _ => none

/-- A call that writes no packet. -/
def Outcome.quiet {α : Type} (outcome : EndpointState P × Except Error α) : Outcome P :=
  ⟨outcome.1, outcome.2.map fun _ => none⟩

/-- A call that always writes its packet. -/
def Outcome.sent (outcome : EndpointState P × Except Error (Packet × Nat)) : Outcome P :=
  ⟨outcome.1, outcome.2.map fun sent => some sent.1⟩

/-- A call that may have nothing to send. -/
def Outcome.maybeSent (outcome : EndpointState P × Except Error (Option (Packet × Nat))) :
    Outcome P :=
  ⟨outcome.1, outcome.2.map fun sent => sent.map (·.1)⟩

/-- What a call does, with keys or without. -/
def applyWith (self : EndpointState P) (keys : Keys) : Op → Outcome P
  | .config op => .quiet (op.apply self)
  | .continuePacketNumbersFrom next => .quiet (self.continuePacketNumbersFrom next)
  | .openSendStream id maxData => .quiet (self.openSendStream id maxData)
  | .setInitialPeerBudget maxData maxStreamData maxInFlightPackets =>
    .quiet (self.setInitialPeerBudget maxData maxStreamData maxInFlightPackets)
  | .setHistoryCapacity limit => .quiet (self.setHistoryCapacity limit)
  | .setTransmissionCapacity limit => .quiet (self.setTransmissionCapacity limit)
  | .addPathState => .quiet self.addPathState
  | .addPathStateWithIds localId peerId => .quiet (self.addPathStateWithIds localId peerId)
  | .addPathStateWithLocalId localId => .quiet (self.addPathStateWithLocalId localId)
  | .suspendPath pathId => ⟨self.suspendPath pathId, .ok none⟩
  | .removePathState pathId => .quiet (self.removePathState pathId)
  | .encodeStreamPacket pathId dcid frame capacity =>
    .sent (self.encodeStreamPacketOnPathInner keys pathId dcid frame capacity true)
  | .encodeStreamPacketFromOwned pathId dcid frame capacity =>
    .sent (self.encodeStreamPacketFromOwnedOnPath keys pathId dcid frame capacity)
  | .encodePathControlPacket pathId destination frame capacity =>
    let outcome := self.encodePathControlPacket keys pathId destination frame capacity
    ⟨outcome.1, outcome.2.map some⟩
  | .sendDatagram pathId start data storage priority =>
    let outcome := self.sendDatagram keys pathId start data storage priority
    ⟨outcome.1, outcome.2.map some⟩
  | .encodeProbePacket dcid capacity =>
    let outcome := self.encodeProbePacket keys dcid capacity
    ⟨outcome.1, outcome.2.map some⟩
  | .pollTransmit pathId capacity =>
    let outcome := self.pollTransmitOnPath keys pathId capacity
    ⟨outcome.1, outcome.2⟩
  | .pollClose capacity =>
    let outcome := self.pollClose keys capacity
    ⟨outcome.1, outcome.2⟩
  | .retransmitStreamPacket packetNumber capacity =>
    .maybeSent (self.retransmitStreamPacket keys packetNumber capacity)
  | .retransmitStreamPacketOnPath packetNumber pathId capacity =>
    .maybeSent (self.retransmitStreamPacketOnPath keys packetNumber pathId capacity)
  | .duplicateStreamPacket packetNumber pathId capacity =>
    .maybeSent (self.duplicateStreamPacketOnPath keys packetNumber pathId capacity)
  | .duplicateCreditControl sourcePacketNumber pathId includeAck includeMaxData streamCreditCount
      includeMaxStreamsBidi capacity =>
      .maybeSent (self.duplicateCreditControlOnPath keys sourcePacketNumber pathId includeAck
        includeMaxData streamCreditCount includeMaxStreamsBidi capacity)
  | .retransmitMarkedLoss capacity => .maybeSent (self.retransmitMarkedLoss keys capacity)
  | .retransmitPtoProbe now capacity => .maybeSent (self.retransmitPtoProbe keys now capacity)
  | .retransmitDue now capacity => .maybeSent (self.retransmitDue keys now capacity)
  | .packetSubmissionBlocked packetNumber =>
    ⟨(self.packetSubmissionBlocked packetNumber).1, .ok none⟩
  | .packetSubmissionAccepted packetNumber nowUs =>
    ⟨(self.packetSubmissionAccepted packetNumber nowUs).1, .ok none⟩
  | .packetSubmissionFailed packetNumber => ⟨(self.packetSubmissionFailed packetNumber).1, .ok none⟩
  | .markLost packetNumber => ⟨(self.markLost packetNumber).1, .ok none⟩
  | .applyAckRanges acknowledged reportedAckDelay ingressPath =>
    .quiet (self.applyAckRangesOnPath acknowledged reportedAckDelay ingressPath)
  | .receivePacketBatch input ingressPath deferStreamAck =>
    .quiet (self.receivePacketBatch keys input ingressPath deferStreamAck)
  | .commitStreamPacketReceive packetNumber ingressPath =>
    ⟨self.commitStreamPacketReceive packetNumber ingressPath, .ok none⟩
  | .streamConsumed streamId bytes forceControl scheduleAck =>
    .quiet (self.streamConsumedInner streamId bytes forceControl scheduleAck)
  | .streamConsumedWithoutCredit streamId bytes =>
    .quiet (self.streamConsumedWithoutCredit streamId bytes)
  | .grantReceiveWindow streamId windowBytes =>
    .quiet (self.grantReceiveWindow streamId windowBytes)
  | .setReceiveGrowthLimits limits => .quiet (self.setReceiveGrowthLimits limits)
  | .prepareLocalBidiReceive streamId => .quiet (self.prepareLocalBidiReceive streamId)

def apply (self : EndpointState P) : Op → Outcome P := self.applyWith none

def step (self : EndpointState P) (op : Op) : EndpointState P := (self.apply op).state

/-! ## The client of the concrete runs -/

def clientId : ConnectionId := ⟨5, by decide⟩

def serverId : ConnectionId := ⟨7, by decide⟩

def freshClient : EndpointState 1100 :=
  newWithHistoryCapacity 1100 .client ⟨1000, 100000, 50000, 16, 4⟩ 1100 4

end EndpointState

end QuicLite
