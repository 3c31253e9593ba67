import QuicLite.Path
import QuicLite.Retained
import QuicLite.Wire.Header

/-!
# The endpoint

The state one association keeps: both halves of flow control, its paths, the ledger of transmissions
(`sentPackets`) and the retained stream ranges they refer to (`sendBuffer`), the packet numbers
received, and the credit publication in progress. `P` is the largest payload of one packet.

Both slot arrays are lists of optional entries whose positions are reused. Operations that can fail
after changing state return the state beside their result. Allocation always succeeds here,
statistics are left out, and so is packet protection, which a default build does not have.
-/

namespace QuicLite

/-- One transmission that awaits its ACK or its loss. -/
structure SentPacket where
  packetNumber : Nat
  ackLargestReceived : Option Nat
  pathId : Nat
  sendOrder : Nat
  bytes : Nat
  streamId : Nat
  offset : Nat
  dataLen : Nat
  fin : Bool
  pathProbe : Bool
  sendBufferSlot : Option Nat
  probeToken : Option Nat
  pathStatus : Option (CircuitKey × Nat)
  rttEligible : Bool
  logicalPacketNumber : Nat
  duplicationCharge : Nat
  duplicationBudgetCommitted : Bool
  sentAt : Nat
  accepted : Bool
  windowLimited : Bool
  lost : Bool
  inferredLost : Bool
  dataDelivered : Bool

structure EndpointState (P : Nat) where
  send : SendFlowControl
  receive : ConnectionState
  paths : List PathState
  receivedPackets : AckRangeSet
  receivePacketFloor : Nat
  nextPacketNumber : Nat
  duplicationBudgetCapacity : Nat
  duplicationCreditBytes : Nat
  duplicationCreditRemainder : Nat
  duplicationReservedBytes : Nat
  pathEstimatorConfig : PathEstimatorConfig
  pacingConfig : PacingConfig
  largestAckedByPeer : Option Nat
  sentPackets : List (Option SentPacket)
  sendBuffer : List (Option RetainedSendRange)
  sendBufferLimitBytes : Nat
  transmissionLimit : Nat
  localCid : Option ConnectionId
  peerCid : Option ConnectionId
  controlPending : Bool
  ackPending : Bool
  ackPackets : Nat
  ackFrequency : Nat
  ackReorderingThreshold : Nat
  largestAckFrequencySequence : Option Nat
  pendingAckFrequency : Option (Nat × Nat × Nat × Nat)
  lastAckTime : Nat
  largestReceivedAt : Nat
  maxAckDelayUs : Nat
  peerMaxAckDelayUs : Nat
  peerMaxInFlightPackets : Nat
  peerMaxDatagramFrameSize : Nat
  peerMaxStreamsBidi : Nat
  peerMaxStreamsUni : Nat
  pendingStreamIds : List Nat
  creditInflightStreamCount : Nat
  creditInflightMaxStreamsBidi : Bool
  creditPending : Bool
  creditPacketNumber : Option Nat
  creditDirty : Bool
  creditRetryBackoff : Nat
  maxStreamsBidiPending : Bool
  closeCode : Option Nat
  historyLimit : Nat
  receiveGrowthLimits : ConnectionLimits
  retiredPeerBidi : Nat
  highestReceivedPacket : Option Nat

def maxPathStates : Nat := 4

def maxPtoBackoffExponent : Nat := 3

namespace EndpointState

variable {P : Nat}

/-- `new_with_history_capacity` -/
def newWithHistoryCapacity (P : Nat) (role : Role) (limits : ConnectionLimits)
    (maxPacketSize historyCapacity : Nat) : EndpointState P where
  send := SendFlowControl.new limits.maxData limits.maxStreamData
  receive := ConnectionState.new role limits
  paths := [PathState.new maxPacketSize]
  receivedPackets := AckRangeSet.new
  receivePacketFloor := 0
  nextPacketNumber := 0
  duplicationBudgetCapacity := 0
  duplicationCreditBytes := 0
  duplicationCreditRemainder := 0
  duplicationReservedBytes := 0
  pathEstimatorConfig := PathEstimatorConfig.defaultConfig
  pacingConfig := PacingConfig.host
  largestAckedByPeer := none
  sentPackets := List.replicate (historyCapacity * 2) none
  sendBuffer := List.replicate historyCapacity none
  sendBufferLimitBytes := satMul historyCapacity P
  transmissionLimit := historyCapacity * 2
  localCid := none
  peerCid := none
  controlPending := false
  ackPending := false
  ackPackets := 0
  ackFrequency := 2
  ackReorderingThreshold := 1
  largestAckFrequencySequence := none
  pendingAckFrequency := none
  lastAckTime := 0
  largestReceivedAt := 0
  maxAckDelayUs := 25000
  peerMaxAckDelayUs := 25000
  peerMaxInFlightPackets := u64Max
  peerMaxDatagramFrameSize := 0
  peerMaxStreamsBidi := limits.maxStreamsBidi
  peerMaxStreamsUni := limits.maxStreamsUni
  pendingStreamIds := []
  creditInflightStreamCount := 0
  creditInflightMaxStreamsBidi := false
  creditPending := false
  creditPacketNumber := none
  creditDirty := false
  creditRetryBackoff := 0
  maxStreamsBidiPending := false
  closeCode := none
  historyLimit := historyCapacity
  receiveGrowthLimits := limits
  retiredPeerBidi := 0
  highestReceivedPacket := none

/-! ## Reading the state -/

variable (self : EndpointState P)

/-- `self.paths[id]`; the ids of live records are in range. -/
def pathAt (id : Nat) : PathState := self.paths.getD id (PathState.new 1)

def modifyPath (id : Nat) (f : PathState → PathState) : EndpointState P :=
  { self with paths := self.paths.modify id f }

/-- The ledger position and record of a packet number. -/
def findSent (packetNumber : Nat) : Option (Nat × SentPacket) :=
  match self.sentPackets.findIdx? fun slot => slot.any fun sent =>
    sent.packetNumber == packetNumber with
  | none => none
  | some index =>
    match self.sentPackets[index]? with
    | some (some sent) => some (index, sent)
    | _ => none

def setSent (index : Nat) (slot : Option SentPacket) : EndpointState P :=
  { self with sentPackets := self.sentPackets.set index slot }

/-- The records of the ledger, in slot order. -/
def records : List SentPacket := self.sentPackets.filterMap id

/-- `self.send_buffer.get(slot).and_then(Option::as_ref)` -/
def rangeAt (slot : Nat) : Option RetainedSendRange := self.sendBuffer[slot]?.join

def ranges : List RetainedSendRange := self.sendBuffer.filterMap id

def freeTransmissionSlot : Option Nat :=
  (self.sentPackets.take self.transmissionLimit).findIdx? Option.isNone

def freeRangeSlot : Option Nat :=
  (self.sendBuffer.take self.historyLimit).findIdx? Option.isNone

def isClosed : Bool := self.closeCode.isSome

def largestReceived : Option Nat := self.receivedPackets.ranges.head?.map (·.stop)

def expectedPacketNumber : Nat :=
  match self.largestReceived with
  | some value => if value < u32Max then value + 1 else 0
  | none => 0

def nextPacketNumberLen : Nat :=
  packetNumberLen self.nextPacketNumber self.largestAckedByPeer

def peerConnectionIdOnPath (pathId : Nat) : Option ConnectionId :=
  (self.paths[pathId]?.bind (·.peerCid)).or self.peerCid

def localConnectionIdOnPath (pathId : Nat) : Option ConnectionId :=
  (self.paths[pathId]?.bind (·.localCid)).or self.localCid

def duplicationBudgetAvailable : Nat :=
  self.duplicationCreditBytes - self.duplicationReservedBytes

def inFlightPacketCount : Nat :=
  self.records.countP fun packet => packet.accepted && !packet.lost

def allocatedPayloadBytes : Nat :=
  (self.ranges.map fun range => if range.hasPayload then range.retainedLen else 0).sum

def ptoTimeoutForPath (pathId : Nat) : Nat :=
  match self.paths[pathId]? with
  | some path => satAdd path.rtt.pto self.peerMaxAckDelayUs
  | none => satAdd 25000 self.peerMaxAckDelayUs

/-- A FIN of this record the peer has not acknowledged. -/
def sentPacketHasPendingFin (packet : SentPacket) : Bool :=
  packet.fin && (packet.sendBufferSlot.bind self.rangeAt).any fun range =>
    range.fin && !range.finAcked

/-! ## Identity and configuration -/

/-- `new_established` and `install_connection_ids` -/
def installConnectionIds (localId peerId : ConnectionId) : EndpointState P × Except Error Unit :=
  if localId.value = 0 ∨ peerId.value = 0 then (self, .error .wrongConnectionId)
  else
    ({ self with
       localCid := some localId
       peerCid := some peerId
       paths := self.paths.modify 0 fun path =>
         { path with localCid := some localId, peerCid := some peerId } },
     .ok ())

def setPeerConnectionIdOnPath (pathId : Nat) (peer : ConnectionId) :
    EndpointState P × Except Error Unit :=
  if peer.value = 0 ∨ (self.paths.mapIdx fun id path =>
    decide (id ≠ pathId ∧ path.peerCid = some peer)).any (· == true)
  then (self, .error .wrongConnectionId)
  else if self.paths.length ≤ pathId then (self, .error .pathLimit)
  else (self.modifyPath pathId fun path => { path with peerCid := some peer }, .ok ())

/-- Packet numbers continue after those of a bootstrap exchange; they never go back. -/
def continuePacketNumbersFrom (next : Nat) : EndpointState P × Except Error Unit :=
  if next < self.nextPacketNumber then (self, .error .invalid)
  else ({ self with nextPacketNumber := next }, .ok ())

def openSendStream (id maxData : Nat) : EndpointState P × Except Error Unit :=
  let unidirectional := isUnidirectional id
  let locallyInitiated := self.receive.isLocal id
  let maximum := if unidirectional then self.peerMaxStreamsUni else self.peerMaxStreamsBidi
  if locallyInitiated ∧ maximum ≤ streamOrdinal id then (self, .error .streamLimit)
  else
    let self := { self with send := self.send.openStream id maxData }
    if locallyInitiated && !unidirectional then
      match self.receive.openLocal id with
      | .error e => ({ self with send := self.send.removeStream id }, .error e)
      | .ok receive => ({ self with receive := receive }, .ok ())
    else (self, .ok ())

def setInitialPeerBudget (maxData maxStreamData maxInFlightPackets : Nat) :
    EndpointState P × Except Error Unit :=
  match self.send.setInitialLimits maxData maxStreamData with
  | .error e => (self, .error e)
  | .ok send =>
    ({ self with
       send := send
       peerMaxInFlightPackets := if maxInFlightPackets = 0 then
         u64Max else maxInFlightPackets }, .ok ())

def setPeerDatagramLimit (size : Nat) : EndpointState P :=
  { self with peerMaxDatagramFrameSize := size }

def setTime (now : Nat) : EndpointState P :=
  { self with paths := self.paths.map fun path => { path with sendClock := now } }

def setAckPolicy (packets maxAckDelayUs : Nat) : EndpointState P :=
  { self with
    ackFrequency := min (max packets 1) ackRangeCapacity
    maxAckDelayUs := maxAckDelayUs
    peerMaxAckDelayUs := maxAckDelayUs }

def setDuplicationBudgetCapacity (capacity : Nat) : EndpointState P :=
  { self with
    duplicationBudgetCapacity := capacity
    duplicationCreditBytes := min self.duplicationCreditBytes capacity }

/-- `PathEstimatorConfig::is_valid` guards the change. -/
def setPathEstimatorConfig (config : PathEstimatorConfig) : EndpointState P × Except Error Unit :=
  if config.isValid then
    ({ self with
      pathEstimatorConfig := config, paths := self.paths.map (·.setEstimatorConfig config) },
      .ok ())
  else (self, .error .invalid)

/-- `PacingConfig::is_valid` guards the change. -/
def setPacingConfig (config : PacingConfig) : EndpointState P × Except Error Unit :=
  if config.maxBurstPackets ≠ 0 ∧ config.maxBurstPackets ≤ 256 ∧
    defaultMaxPacketSize ≤ config.maxBurstBytes
      ∧ config.maxBurstBytes ≤ 1048576 then
    ({ self with pacingConfig := config, paths := self.paths.map (·.setPacingConfig config) },
      .ok ())
  else (self, .error .invalid)

/-- Grow the slots to `limit`, or shrink to it when only free slots go. -/
def resizeSlots {α : Type} (slots : List (Option α)) (limit : Nat) : List (Option α) :=
  if slots.length < limit then slots ++ List.replicate (limit - slots.length) none
  else if limit < slots.length ∧ (slots.drop limit).all Option.isNone then slots.take limit
  else slots

def setHistoryCapacity (limit : Nat) : EndpointState P × Except Error Unit :=
  if limit = 0 then (self, .error .historyFull)
  else ({ self with sendBuffer := resizeSlots self.sendBuffer limit, historyLimit := limit },
    .ok ())

def setTransmissionCapacity (limit : Nat) : EndpointState P × Except Error Unit :=
  if limit = 0 then (self, .error .historyFull)
  else
    ({ self with
       sentPackets := resizeSlots self.sentPackets limit
       transmissionLimit := limit
       paths := self.paths.map fun path =>
         { path with
           congestionHistory := path.congestionHistory.drop
             (path.congestionHistory.length - limit) } },
     .ok ())

def setSendBufferLimitBytes (limit : Nat) : EndpointState P × Except Error Unit :=
  if limit < self.allocatedPayloadBytes then (self, .error .historyFull)
  else ({ self with sendBufferLimitBytes := limit }, .ok ())

def close (code : Nat) : EndpointState P := { self with closeCode := some code }

/-! ## Paths -/

def addPathState : EndpointState P × Except Error Nat :=
  if maxPathStates ≤ self.paths.length then (self, .error .pathLimit)
  else
    let path := PathState.new (self.pathAt 0).congestion.maxPacketSize
    let path := (path.setEstimatorConfig self.pathEstimatorConfig).setPacingConfig self.pacingConfig
    ({ self with paths := self.paths ++ [{ path with validated := false }] }, .ok self.paths.length)

/-- `add_path_state_with_ids` -/
def addPathStateWithIds (localId peerId : ConnectionId) : EndpointState P × Except Error Nat :=
  if localId.value = 0 ∨ peerId.value = 0 then (self, .error .wrongConnectionId)
  else if self.paths.any fun path =>
    path.localCid == some localId || path.peerCid == some peerId then
    (self, .error .wrongConnectionId)
  else
    match self.addPathState with
    | (self, .error e) => (self, .error e)
    | (self, .ok pathId) =>
      (self.modifyPath pathId fun path =>
        { path with localCid := some localId, peerCid := some peerId }, .ok pathId)

def addPathStateWithLocalId (localId : ConnectionId) : EndpointState P × Except Error Nat :=
  if localId.value = 0 ∨ self.paths.any fun path => path.localCid == some localId then
    (self, .error .wrongConnectionId)
  else
    match self.addPathState with
    | (self, .error e) => (self, .error e)
    | (self, .ok pathId) =>
      (self.modifyPath pathId fun path => { path with localCid := some localId }, .ok pathId)

/-- Retire a path's flight without a congestion response; the ranges stay repairable. -/
def suspendPath (pathId : Nat) : EndpointState P :=
  match self.paths[pathId]? with
  | none => self
  | some path =>
    let retired := self.records.filter fun sent => sent.pathId == pathId && sent.accepted &&
      !sent.lost
    let path := retired.foldl (fun path sent =>
      { path with congestion := path.congestion.removeInFlight sent.bytes }.modifyEvent
        sent.packetNumber
        fun event => { event with excluded := true }) path
    { self with
      paths := self.paths.set pathId path.markSuspended
      sentPackets := self.sentPackets.map (Option.map fun sent =>
        if sent.pathId == pathId && sent.accepted && !sent.lost then { sent with lost := true }
        else sent) }

def removePathState (pathId : Nat) : EndpointState P × Except Error Unit :=
  if pathId = 0 ∨ self.paths.length ≤ pathId then (self, .error .pathLimit)
  else if self.records.any fun packet => packet.pathId == pathId then (self, .error .blocked)
  else
    ({ self with
       paths := self.paths.eraseIdx pathId
       sentPackets := self.sentPackets.map (Option.map fun packet =>
         if pathId < packet.pathId then { packet with pathId := packet.pathId - 1 }
         else packet) }, .ok ())

/-- The calls that only touch one path's circuit state. -/
inductive CircuitOp where
  | setCircuit (key : CircuitKey)
  | markValidated
  | markProbing
  | markUnvalidated
  | queueStatus (status : PathStatusKind)
  | receiveStatus (sequence : Nat) (status : PathStatusKind)
  | beginProbe (token nowUs intervalUs : Nat)
  | completeProbe (token nowUs : Nat)

def CircuitOp.apply (path : PathState) : CircuitOp → PathState
  | .setCircuit key => path.setCircuit key
  | .markValidated => path.markValidated
  | .markProbing => path.markProbing
  | .markUnvalidated => path.markUnvalidated
  | .queueStatus status => (path.queueStatus status).toOption.getD path
  | .receiveStatus sequence status => path.receiveStatus sequence status
  | .beginProbe token nowUs intervalUs => path.beginProbe token nowUs intervalUs
  | .completeProbe token nowUs => path.completeProbe token nowUs

/-- A status that could not be sent keeps its intent and waits for the loss clock of the path it
would leave on. -/
def deferPathStatus (pathId egressPath : Nat) : EndpointState P :=
  let retryAt := satAdd (self.pathAt egressPath).sendClock (self.ptoTimeoutForPath egressPath)
  self.modifyPath pathId fun path =>
    if path.pendingLocalStatus.isSome then { path with statusRetryAtUs := some retryAt } else path

/-- Wakes for pacing are delivered once. -/
def onBearerTimeout : EndpointState P :=
  { self with
    paths := self.paths.map fun path =>
      if path.pacingDeadlineUs.any (· ≤ path.sendClock) then { path with pacingDeadlineUs := none }
      else path }

/-! ## Acknowledgement scheduling -/

def observePacketOnPath (packetNumber pathId : Nat) : EndpointState P :=
  match self.paths[pathId]? with
  | none => self
  | some path =>
    if packetNumber < self.receivePacketFloor then self
    else
      let self :=
        if self.receivedPackets.contains packetNumber then self
        else
          { self with
            highestReceivedPacket := some
              (max (self.highestReceivedPacket.getD packetNumber) packetNumber)
            largestReceivedAt :=
              if self.highestReceivedPacket.all fun highest => highest < packetNumber then
                path.sendClock
              else self.largestReceivedAt
            paths := self.paths.modify pathId fun path =>
              { path with
                largestReceivedPacket := some
                  (max (path.largestReceivedPacket.getD packetNumber) packetNumber)
                largestReceivedAt :=
                  if path.largestReceivedPacket.all fun highest => highest < packetNumber then
                    path.sendClock
                  else path.largestReceivedAt } }
      { self with receivedPackets := self.receivedPackets.insert packetNumber }

def scheduleAck (pathId : Nat) (immediate : Bool) : EndpointState P :=
  if self.paths.length ≤ pathId then self
  else
    { self with
      paths := self.paths.modify pathId fun path =>
        { path with
          ackStartedAt := if path.ackPending then path.ackStartedAt else path.sendClock
          ackPending := true
          ackPackets := min (path.ackPackets + 1) 255
          ackImmediate := path.ackImmediate || immediate }
      ackPending := true
      ackPackets := min (self.ackPackets + 1) 255 }

def scheduleApplicationAck (pathId : Nat) (immediate : Bool) : EndpointState P :=
  if self.paths.length ≤ pathId then self
  else
    { self with
      paths := self.paths.modify pathId fun path =>
        { path with
          ackStartedAt := if path.ackPending then path.ackStartedAt else path.sendClock
          largestReceivedAt := if path.ackPending then path.largestReceivedAt else path.sendClock
          ackPending := true
          ackImmediate := path.ackImmediate || immediate }
      ackPending := true }

/-- A bearer may know an earlier time of arrival than the one of dispatch; zero says that it does
not. -/
def recordBearerArrival (pathId receivedAtUs : Nat) : EndpointState P :=
  if receivedAtUs = 0 then self
  else
    match self.paths[pathId]? with
    | none => self
    | some path =>
      let at' := min receivedAtUs path.sendClock
      { self with
        paths := self.paths.modify pathId fun path => { path with largestReceivedAt := at' }
        largestReceivedAt :=
          if path.largestReceivedPacket = self.highestReceivedPacket then at'
          else self.largestReceivedAt }

def requestPathValidationAck (pathId : Nat) : EndpointState P :=
  { self with controlPending := true : EndpointState P }.scheduleApplicationAck pathId true

def requestAckFrequency (sequence packetThreshold maxAckDelayUs reorderingThreshold : Nat) :
    EndpointState P × Except Error Unit :=
  if ackRangeCapacity ≤ packetThreshold ∨ 16383000 < maxAckDelayUs ∨
    u32Max < reorderingThreshold then
    (self, .error .invalid)
  else
    ({ self with
      pendingAckFrequency := some (sequence, packetThreshold, maxAckDelayUs, reorderingThreshold) },
      .ok ())

/-- The path with a pending ACK and the latest arrival; the last one wins a tie, as `max_by_key`
does. -/
def pendingReceiveAckPath : Nat :=
  let pending := (self.paths.mapIdx fun id path => (id, path)).filter fun entry =>
    entry.2.ackPending
  match pending with
  | [] => 0
  | first :: rest =>
    (rest.foldl (fun best entry =>
      if best.2.largestReceivedAt ≤ entry.2.largestReceivedAt then entry else best) first).1

def refreshAckSummary : EndpointState P :=
  { self with
    ackPending := self.paths.any (·.ackPending)
    ackPackets := self.paths.foldl (fun count path => min (count + path.ackPackets) 255) 0 }

/-- When an unacknowledged credit publication is due again. -/
def creditRetryAfter : Nat :=
  if self.creditPacketNumber.isSome then
    satMul (self.ptoTimeoutForPath 0) (2 ^ min self.creditRetryBackoff maxPtoBackoffExponent)
  else self.maxAckDelayUs

/-- Path selected for the next ACK/control packet. -/
def pendingControlPath : Option Nat :=
  if self.controlPending then
    -- `rposition`
    match self.paths.reverse.findIdx? (·.ackImmediate) with
    | some index => some (self.paths.length - 1 - index)
    | none => some 0
  else if self.pendingAckFrequency.isSome then some 0
  else
    match self.paths.findIdx? fun path =>
        path.ackPending && (self.ackFrequency ≤ path.ackPackets || path.ackImmediate
          || self.maxAckDelayUs ≤ path.sendClock - path.ackStartedAt) with
    | some pathId => some pathId
    | none =>
      match self.paths.head? with
      | none => none
      | some path0 =>
        if self.creditPending && self.creditRetryAfter ≤ path0.sendClock - self.lastAckTime then
          some 0 else none

/-! ## Outcomes of a submission -/

def packetSubmissionBlocked (packetNumber : Nat) : EndpointState P × Bool :=
  match self.findSent packetNumber with
  | none => (self, false)
  | some (index, sent) =>
    let self :=
      if sent.accepted then
        self.modifyPath sent.pathId fun path =>
          { path with congestion := path.congestion.removeInFlight sent.bytes }
      else self
    let self := self.modifyPath sent.pathId fun path =>
      if path.largestSentPacket = some packetNumber then
        { path with
          largestSentPacket := (path.congestionHistory.reverse.find? (·.accepted)).map
            (·.packetNumber) }
      else path
    let self := self.setSent index (some { sent with accepted := false })
    (self.modifyPath sent.pathId fun path =>
      path.modifyEvent packetNumber fun event => { event with accepted := false }, true)

/-- The budget an accepted packet earns for, or spends on, proactive copies. -/
def commitDuplicationBudget (sent : SentPacket) : EndpointState P :=
  if sent.duplicationCharge ≠ 0 then
    { self with
      duplicationReservedBytes := self.duplicationReservedBytes - sent.duplicationCharge
      duplicationCreditBytes := self.duplicationCreditBytes - sent.duplicationCharge }
  else if sent.logicalPacketNumber = sent.packetNumber ∧ sent.probeToken = none ∧
    sent.pathProbe = false then
    { self with
      duplicationCreditRemainder := (sent.bytes + self.duplicationCreditRemainder) % 10
      duplicationCreditBytes :=
        min (satAdd self.duplicationCreditBytes
          ((sent.bytes + self.duplicationCreditRemainder) / 10))
          self.duplicationBudgetCapacity }
  else self

/-- What an accepted submission does to its path, besides the charge. -/
def noteAccepted (packetNumber nowUs : Nat) (probeToken : Option Nat) (path : PathState) :
    PathState :=
  let path :=
    match probeToken with
    | some token => path.updateProbeSubmissionTime token nowUs
    | none => path
  { path with largestSentPacket := some packetNumber }.modifyEvent packetNumber fun event =>
    { event with sentAt := nowUs, accepted := true, hadRttSample := path.rtt.latestRtt.isSome }

def packetSubmissionAccepted (packetNumber nowUs : Nat) : EndpointState P × Bool :=
  match self.findSent packetNumber with
  | none => (self, false)
  | some (index, sent) =>
    let congestion := (self.pathAt sent.pathId).congestion
    let windowLimited := if sent.accepted then
      sent.windowLimited else congestion.windowLimited sent.bytes
    let self :=
      if sent.accepted then self
      else
        self.modifyPath sent.pathId fun path =>
          { path with congestion := path.congestion.onRetransmissionSent sent.bytes }
    let self := if sent.duplicationBudgetCommitted then self else self.commitDuplicationBudget sent
    let self := self.setSent index (some { sent with
      accepted := true
      windowLimited := windowLimited
      sentAt := nowUs
      duplicationBudgetCommitted := true })
    (self.modifyPath sent.pathId (noteAccepted packetNumber nowUs sent.probeToken), true)

def packetSubmissionFailed (packetNumber : Nat) : EndpointState P × Bool :=
  match self.findSent packetNumber with
  | none => (self, false)
  | some (index, sent) =>
    if !sent.accepted || sent.lost then (self, false)
    else
      let self :=
        if !sent.duplicationBudgetCommitted && sent.duplicationCharge != 0 then
          { self with
            duplicationReservedBytes := self.duplicationReservedBytes - sent.duplicationCharge }
        else self
      let self := self.modifyPath sent.pathId fun path =>
        { path with congestion := path.congestion.removeInFlight sent.bytes }.modifyEvent
          packetNumber fun event =>
          { event with excluded := true }
      let sent := { sent with lost := true }
      let keep := !sent.dataDelivered || self.sentPacketHasPendingFin sent
      (self.setSent index (if keep then some sent else none), true)

/-! ## Loss detection -/

/-- The packet- or time-threshold declares this record lost. -/
def isNewlyLost (pathId largestAcked packetThreshold timeThreshold clock : Nat)
    (packet : SentPacket) : Bool :=
  packet.accepted && !packet.lost && packet.pathId == pathId && packet.sendOrder < largestAcked
    && (satAdd packet.sendOrder packetThreshold ≤ largestAcked ||
      timeThreshold ≤ clock - packet.sentAt)

/-- A lost record that has nothing left to repair. -/
def isSpent (pathId : Nat) (packet : SentPacket) : Bool :=
  packet.pathId == pathId && packet.lost && packet.dataDelivered &&
    !self.sentPacketHasPendingFin packet

/-- What the declared losses do to their path: outcomes, history and one congestion response. -/
def declareLosses (path : PathState) (nextPacketNumber : Nat) (lost : List SentPacket) :
    PathState :=
  let clock := path.sendClock
  let path := lost.foldl (fun path packet =>
    (path.recordDeliveryOutcome false clock).modifyEvent packet.packetNumber fun event =>
      { event with lost := true }) path
  match (lost.map (·.logicalPacketNumber)).max? with
  | none => path
  | some largestLost =>
    let lostBytes := lost.foldl (fun bytes packet => satAdd bytes packet.bytes) 0
    let largestSent := path.largestSentPacket.getD (nextPacketNumber - 1)
    { path with congestion := path.congestion.onPacketLost lostBytes largestLost largestSent }

/-- The first loop of `detect_ack_losses`, on the ledger. -/
def markNewlyLost (newlyLost : SentPacket → Bool) : EndpointState P :=
  { self with
    sentPackets := self.sentPackets.map (Option.map fun packet =>
      if newlyLost packet then { packet with lost := true, inferredLost := true } else packet) }

/-- Its second loop. -/
def clearSpent (pathId : Nat) : EndpointState P :=
  { self with
    sentPackets := self.sentPackets.map fun slot => slot.filter fun packet =>
      !self.isSpent pathId packet }

def detectAckLosses (pathId : Nat) (largestAcked : Option Nat) : EndpointState P :=
  match largestAcked, self.paths[pathId]? with
  | some largestAcked, some path =>
    let newlyLost := isNewlyLost pathId largestAcked path.packetReorderingThreshold
      (path.lossDelayUs self.peerMaxAckDelayUs) path.sendClock
    ((self.markNewlyLost newlyLost).clearSpent pathId).modifyPath pathId fun path =>
      declareLosses path self.nextPacketNumber (self.records.filter newlyLost)
  | _, _ => self

def markLost (packetNumber : Nat) : EndpointState P × Bool :=
  match self.findSent packetNumber with
  | none => (self, false)
  | some (index, packet) =>
    if !packet.accepted || packet.lost then (self, false)
    else
      let packet := { packet with lost := true, inferredLost := true }
      let keep := !packet.dataDelivered || self.sentPacketHasPendingFin packet
      let self := self.modifyPath packet.pathId fun path =>
        declareLosses path self.nextPacketNumber [packet]
      (self.setSent index (if keep then some packet else none), true)

end EndpointState

end QuicLite
