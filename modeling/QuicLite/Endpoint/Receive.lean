import QuicLite.Endpoint.Send

/-!
# Receiving

An ACK retires transmissions, settles the ranges they carried and declares losses; a packet is
parsed whole before any of it is applied. The long ACK handler is cut into its phases, each a
function of the state or of one of its tables, in the order in which the source runs them.
-/

namespace QuicLite

namespace EndpointState

variable {P : Nat}

/-! ## Acknowledgements -/

/-- What the walk over the ledger gathers. The arrays indexed by path have `maxPathStates`
entries. -/
structure AckScan where
  paths : List PathState
  rttCandidate : Option (Nat × Option Nat)
  progress : List Bool
  growth : List Nat
  fins : List (Nat × Nat)
  data : List (Nat × Nat × Nat)
  status : List (CircuitKey × Nat)
  newlyAcked : Bool
  floor : Nat

/-- What an acknowledged record does to its path. -/
def ackPath (sent : SentPacket) (path : PathState) : PathState :=
  let path := if sent.inferredLost then
    path.recordSpuriousLossAck sent.sendOrder sent.sentAt else path
  let path := path.recordDeliveryOutcome true path.sendClock
  let path := { path with
    largestAckedSendOrder := some
      (max (path.largestAckedSendOrder.getD sent.sendOrder) sent.sendOrder) }
  if sent.lost then path else { path with
    congestion := path.congestion.onAckWithGrowth sent.bytes false }

/-- One acknowledged record. -/
def ackRecord (ingressPath : Nat) (scan : AckScan) (sent : SentPacket) : AckScan :=
  let path := scan.paths.getD sent.pathId (PathState.new 1)
  let grows := !sent.lost && sent.windowLimited
    && path.congestion.recoveryStartPacket.all fun start => start < sent.packetNumber
  { paths := scan.paths.modify sent.pathId (ackPath sent)
    rttCandidate :=
      if sent.rttEligible && sent.pathId == ingressPath
          && scan.rttCandidate.all fun candidate => candidate.1 < sent.packetNumber then
        some (sent.packetNumber, if sent.lost then none else some (path.sendClock - sent.sentAt))
      else scan.rttCandidate
    progress := scan.progress.set sent.pathId true
    growth := if grows then scan.growth.modify sent.pathId (satAdd · sent.bytes) else scan.growth
    fins :=
      if sent.sendBufferSlot.isSome && sent.fin then
        scan.fins ++ [(sent.streamId, sent.offset + sent.dataLen)]
      else scan.fins
    data :=
      if sent.sendBufferSlot.isSome then scan.data ++ [(sent.streamId, sent.offset, sent.dataLen)]
      else scan.data
    status := scan.status ++ sent.pathStatus.toList
    newlyAcked := true
    floor := max scan.floor (sent.ackLargestReceived.getD scan.floor) }

/-- A record the ACK names. Prepared packets are not network flight and stay. -/
def isAcked (acknowledged : AckRangeSet) (sent : SentPacket) : Bool :=
  sent.accepted && acknowledged.contains sent.packetNumber

variable (self : EndpointState P)

section

variable (acknowledged : AckRangeSet)

def ackScan (ingressPath : Nat) : AckScan :=
  (self.records.filter (isAcked acknowledged)).foldl (ackRecord ingressPath)
    ⟨self.paths, none, List.replicate maxPathStates false,
      List.replicate maxPathStates 0, [], [], [], false, self.receivePacketFloor⟩

/-- The ledger after the walk. -/
def retireAcked (slots : List (Option SentPacket)) : List (Option SentPacket) :=
  slots.map fun slot => slot.filter fun sent => !isAcked acknowledged sent

def markHistoryAcked (path : PathState) : PathState :=
  { path with
    congestionHistory := path.congestionHistory.map fun event =>
      if event.accepted && acknowledged.contains event.packetNumber then
        { event with acked := true } else event }

/-- The ACK names the tracked publication, or a copy of it. -/
def creditAcked : Bool :=
  self.creditPacketNumber.any fun packetNumber =>
    acknowledged.contains packetNumber || self.records.any fun sent =>
      sent.accepted && sent.sendBufferSlot.isNone && sent.duplicationCharge != 0
        && sent.logicalPacketNumber == packetNumber && acknowledged.contains sent.packetNumber

/-- Retire the publication. Newer values that were raised meanwhile stay pending. -/
def retireCredit : EndpointState P :=
  if self.creditDirty then
    { self with
      creditPacketNumber := none
      creditRetryBackoff := 0
      creditPending := true
      controlPending := self.controlPending || self.receiveGrowthLimits.maxStreamData ≤ satMul P 2
      creditInflightStreamCount := 0
      creditInflightMaxStreamsBidi := false }
  else
    let pendingStreamIds :=
      self.pendingStreamIds.drop (min self.creditInflightStreamCount self.pendingStreamIds.length)
    let maxStreamsBidiPending := self.maxStreamsBidiPending && !self.creditInflightMaxStreamsBidi
    let creditPending := !pendingStreamIds.isEmpty || maxStreamsBidiPending
    { self with
      creditPacketNumber := none
      creditRetryBackoff := 0
      pendingStreamIds := pendingStreamIds
      maxStreamsBidiPending := maxStreamsBidiPending
      creditInflightStreamCount := 0
      creditInflightMaxStreamsBidi := false
      creditPending := creditPending
      controlPending := self.controlPending || creditPending }

/-- Batch retirement of received numbers once fragmented ranges use half the wire budget. -/
def raiseReceiveFloor (confirmed : Nat) : EndpointState P :=
  if ackRangeCapacity / 2 ≤ self.receivedPackets.len then
    let floor := max (confirmed - ackRangeCapacity * 2) self.receivePacketFloor
    { self with
      receivePacketFloor := floor, receivedPackets := self.receivedPackets.discardBelow floor }
  else self

def acknowledgeStatuses (paths : List PathState) (status : List (CircuitKey × Nat)) :
    List PathState :=
  status.foldl (fun paths entry =>
    FirstMatch.modifyFirst (fun path => path.circuitKey == some entry.1)
      (·.acknowledgeStatus entry.2) paths) paths

/-- The prior transmissions of a range that the ACK names. -/
def ackedPriors (range : RetainedSendRange) : List PriorPacketLineage :=
  range.priorPackets.filter fun prior => acknowledged.contains prior.packetNumber

def priorData : List (Nat × Nat × Nat) :=
  self.ranges.flatMap fun range =>
    (ackedPriors acknowledged range).map fun prior => (range.streamId, prior.offset, prior.dataLen)

def priorFins : List (Nat × Nat) :=
  self.ranges.flatMap fun range =>
    ((ackedPriors acknowledged range).filter (·.fin)).map fun prior =>
      (range.streamId, prior.offset + prior.dataLen)

def markData (buffer : List (Option RetainedSendRange)) (data : List (Nat × Nat × Nat)) :
    List (Option RetainedSendRange) :=
  data.foldl (fun buffer entry => buffer.map (Option.map fun range =>
    if range.streamId = entry.1 then range.markAcknowledged entry.2.1 entry.2.2 else range)) buffer

def markFins (buffer : List (Option RetainedSendRange)) (fins : List (Nat × Nat)) :
    List (Option RetainedSendRange) :=
  fins.foldl (fun buffer entry => buffer.map (Option.map fun range =>
    if range.streamId = entry.1 ∧ range.fin ∧ range.offset + range.dataLen = entry.2 then
      { range with finAcked := true }
    else range)) buffer

def releasePayload (range : RetainedSendRange) : RetainedSendRange :=
  if range.allDataAcknowledged then { range with payload := none, poolPayload := none } else range

/-- Nothing of the range is owed any more. -/
def isSettled (range : RetainedSendRange) : Bool :=
  range.allDataAcknowledged && (!range.fin || range.finAcked)

/-- Bring a record in line with its range. -/
def settleRecord (rangeAt : Nat → Option RetainedSendRange) (sent : SentPacket) :
    Option SentPacket :=
  match sent.sendBufferSlot with
  | none => some sent
  | some slot =>
    if !((rangeAt slot).all (·.allDataAcknowledged)) then some sent
    else if !((rangeAt slot).all fun range => !range.fin || range.finAcked) then
      some { sent with dataDelivered := true }
    else if sent.lost then none
    else some { sent with dataDelivered := true, sendBufferSlot := none }

/-- Ranges, then records, then the retired ranges' slots. -/
def settle (data : List (Nat × Nat × Nat)) (fins : List (Nat × Nat)) : EndpointState P :=
  let buffer := (markFins (markData self.sendBuffer data) fins).map (Option.map releasePayload)
  { self with
    sentPackets := self.sentPackets.map
      (Option.bind · (settleRecord fun slot => buffer[slot]?.join))
    sendBuffer := buffer.map (Option.filter fun range => !isSettled range) }

/-- `sort_unstable` and `dedup`. -/
def sortFins (fins : List (Nat × Nat)) : List (Nat × Nat) :=
  (fins.insertionSort fun a b => a.1 < b.1 ∨ (a.1 = b.1 ∧ a.2 ≤ b.2)).dedup

def resetPto (newlyAcked : Bool) (progress : List Bool) (paths : List PathState) : List PathState :=
  if newlyAcked then
    paths.mapIdx fun pathId path =>
      if progress.getD pathId false then { path with lastPtoProbeAt := none, ptoBackoff := 0 }
      else path
  else paths

def takeRttSample (candidate : Option (Nat × Option Nat)) (reportedAckDelay ingressPath : Nat) :
    EndpointState P :=
  match candidate with
  | some (_, some sample) =>
    let ackDelay := min reportedAckDelay self.peerMaxAckDelayUs
    self.modifyPath ingressPath fun path =>
      let adjusted :=
        match path.rtt.minimumAt path.sendClock with
        | some minimum => if satAdd minimum ackDelay < sample then sample - ackDelay else sample
        | none => sample
      path.updateRtt adjusted path.sendClock
  | _ => self

/-- Losses and persistent congestion, path by path. -/
def detectLosses : EndpointState P :=
  (List.range self.paths.length).foldl (fun self pathId =>
    (self.detectAckLosses pathId (self.pathAt pathId).largestAckedSendOrder).modifyPath
      pathId fun path =>
      path.detectPersistentCongestion self.peerMaxAckDelayUs self.nextPacketNumber) self

/-- The ledger walk with what follows it up to the growth of the windows. -/
def retireTransmissions (scan : AckScan) : EndpointState P :=
  let self := { self with
    paths := scan.paths
    sentPackets := retireAcked acknowledged self.sentPackets : EndpointState P }
  let self := self.raiseReceiveFloor scan.floor
  { self with
    paths := acknowledgeStatuses (applyAckCongestionGrowth self.paths scan.growth) scan.status }

/-- The part of `apply_ack_ranges_on_path` before its loss detection. -/
def acknowledge (reportedAckDelay ingressPath : Nat) : EndpointState P :=
  let self := { self with
    paths := self.paths.map (markHistoryAcked acknowledged) : EndpointState P }
  let self := if self.creditAcked acknowledged then self.retireCredit else self
  let self := { self with
    largestAckedByPeer := acknowledged.ranges.head?.map (·.stop) : EndpointState P }
  let scan := self.ackScan acknowledged ingressPath
  let data := scan.data ++ self.priorData acknowledged
  let fins := scan.fins ++ self.priorFins acknowledged
  let newlyAcked := scan.newlyAcked || self.ranges.any fun range =>
    !(ackedPriors acknowledged range).isEmpty
  let self := (self.retireTransmissions acknowledged scan).settle data fins
  let self := (sortFins fins).foldl (fun self fin => self.tryRetireStream fin.1) self
  let self := { self with paths := resetPto newlyAcked scan.progress self.paths : EndpointState P }
  self.takeRttSample scan.rttCandidate reportedAckDelay ingressPath

def applyAckRangesOnPath (reportedAckDelay ingressPath : Nat) :
    EndpointState P × Except Error Unit :=
  if acknowledged.len = 0 then (self, .error .invalid)
  else ((self.acknowledge acknowledged reportedAckDelay ingressPath).detectLosses, .ok ())

end

/-! ## Flow-control frames -/

/-- `receive_flow_control_packet`: the limits a packet raises, frame by frame. -/
def receiveFlowControl : List Frame → EndpointState P → EndpointState P × Except Error Unit
  | [], self => (self, .ok ())
  | frame :: frames, self =>
    match frame with
    | .maxData max => receiveFlowControl frames { self with send := self.send.extendConnection max }
    | .maxStreamData id max =>
      if self.receive.isRetired id then receiveFlowControl frames self
      else
        match self.send.extendStream id max with
        | .error e => (self, .error e)
        | .ok send => receiveFlowControl frames { self with send := send }
    | .maxStreamsBidi max =>
      receiveFlowControl frames { self with
        peerMaxStreamsBidi := Nat.max self.peerMaxStreamsBidi max }
    | .maxStreamsUni max =>
      receiveFlowControl frames { self with
        peerMaxStreamsUni := Nat.max self.peerMaxStreamsUni max }
    | _ => receiveFlowControl frames self

def applyAckFrequency (request : Nat × Nat × Nat × Nat) : EndpointState P × Except Error Unit :=
  let (sequence, packetThreshold, maxAckDelayUs, reorderingThreshold) := request
  if self.largestAckFrequencySequence.any fun previous => sequence ≤ previous then (self, .ok ())
  else if ackRangeCapacity ≤ packetThreshold ∨ 16383000 < maxAckDelayUs ∨
    u32Max < reorderingThreshold then
    (self, .error .invalid)
  else
    ({ self with
       ackFrequency := packetThreshold + 1
       maxAckDelayUs := maxAckDelayUs
       ackReorderingThreshold := reorderingThreshold
       largestAckFrequencySequence := some sequence }, .ok ())

/-! ## Parsing a packet -/

structure ParsedFrames where
  frames : List Frame
  streams : List StreamFrame
  hasAck : Bool
  acknowledged : AckRangeSet
  reportedAckDelay : Nat
  hasFlowControl : Bool
  ackEliciting : Bool
  pathStatus : Bool
  ackFrequency : Option (Nat × Nat × Nat × Nat)
  closeCode : Option Nat

inductive ParseFailure where
  | malformed (e : Error)
  /-- A DATAGRAM beyond the receive limit closes the association. -/
  | datagramViolation

def maxStreamsPerPacket : Nat := 8

/-- One turn of the parsing loop. -/
def noteFrame (maxDatagramFrameSize used : Nat) (parsed : ParsedFrames) (frame : Frame) :
    Except ParseFailure ParsedFrames :=
  let parsed := { parsed with frames := parsed.frames ++ [frame] }
  match frame with
  | .ack largest delay =>
    .ok { parsed with
      hasAck := true, acknowledged := parsed.acknowledged.insert largest,
        reportedAckDelay := delay }
  | .ackRanges _ delay ranges =>
    .ok { parsed with
      hasAck := true
      acknowledged := ranges.ranges.foldl AckRangeSet.insertRange parsed.acknowledged
      reportedAckDelay := delay }
  | .maxData _ | .maxStreamData _ _ =>
    .ok { parsed with hasFlowControl := true, ackEliciting := true }
  | .maxStreamsBidi _ | .maxStreamsUni _ => .ok { parsed with hasFlowControl := true }
  | .ping | .pathJoin .. | .pathJoinAck .. | .pathChallenge _ | .pathResponse _ =>
    .ok { parsed with ackEliciting := true }
  | .pathStatus .. => .ok { parsed with ackEliciting := true, pathStatus := true }
  | .ackFrequency sequence packetThreshold maxAckDelayUs reorderingThreshold =>
    if parsed.ackFrequency.isSome then .error (.malformed .invalid)
    else
      .ok { parsed with
        ackEliciting := true
        ackFrequency := some (sequence, packetThreshold, maxAckDelayUs, reorderingThreshold) }
  | .stream value =>
    if maxStreamsPerPacket ≤ parsed.streams.length then .error (.malformed .invalid)
    else .ok { parsed with ackEliciting := true, streams := parsed.streams ++ [value] }
  | .datagram _ _ =>
    if maxDatagramFrameSize = 0 ∨ maxDatagramFrameSize < used then .error .datagramViolation
    else .ok { parsed with ackEliciting := true }
  | .close code =>
    if parsed.closeCode.isSome then .error (.malformed .invalid)
    else .ok { parsed with closeCode := some code }
  | .padding => .ok parsed

/-- The parsing loop. Every frame takes at least one byte, so the length of the input is fuel
enough. -/
def parseFrames (maxDatagramFrameSize : Nat) :
    Nat → Bytes → ParsedFrames → Except ParseFailure ParsedFrames
  | _, [], parsed => .ok parsed
  | 0, _ :: _, _ => .error (.malformed .invalid)
  | fuel + 1, input, parsed =>
    match decodeFrame input with
    | .error e => .error (.malformed e)
    | .ok (frame, used) =>
      if used = 0 then .error (.malformed .invalid)
      else
        match noteFrame maxDatagramFrameSize used parsed frame with
        | .error failure => .error failure
        | .ok parsed => parseFrames maxDatagramFrameSize fuel (input.drop used) parsed

def emptyParse : ParsedFrames :=
  ⟨[], [], false, AckRangeSet.new, 0, false, false, false, none, none⟩

/-! ## Receiving a packet -/

structure TransportFrames where
  header : ShortHeader
  streams : List StreamFrame
  duplicate : Bool

/-- Admit the STREAM frames in order; the first refusal ends the packet. -/
def acceptStreams : List StreamFrame → ConnectionState → ConnectionState × Except Error Unit
  | [], receive => (receive, .ok ())
  | frame :: frames, receive =>
    match receive.accept frame.id frame.offset frame.data.length frame.fin with
    | (receive, .error e) => (receive, .error e)
    | (receive, .ok ()) => acceptStreams frames receive

def commitStreamPacketReceive (packetNumber ingressPath : Nat) : EndpointState P :=
  let reordered := self.ackReorderingThreshold ≠ 0 ∧ self.highestReceivedPacket.any fun highest =>
    self.ackReorderingThreshold ≤ if highest < packetNumber then
      packetNumber - min (highest + 1) u32Max
      else min (highest - packetNumber + 1) u32Max
  let self :=
    if reordered then
      { self.modifyPath ingressPath fun path => { path with ackImmediate := true } with
        controlPending := true }
    else self
  (self.observePacketOnPath packetNumber ingressPath).scheduleAck ingressPath false

/-- The control frames of a parsed packet: credit before ACKs, then the ACK policy. -/
def applyControl (parsed : ParsedFrames) (ingressPath : Nat) :
    EndpointState P × Except Error Unit :=
  match if parsed.hasFlowControl then receiveFlowControl parsed.frames self else (self, .ok ()) with
  | (self, .error e) => (self, .error e)
  | (self, .ok ()) =>
    match if parsed.hasAck then
      self.applyAckRangesOnPath parsed.acknowledged parsed.reportedAckDelay ingressPath
        else (self, .ok ()) with
    | (self, .error e) => (self, .error e)
    | (self, .ok ()) =>
      match parsed.ackFrequency with
      | some request => self.applyAckFrequency request
      | none => (self, .ok ())

/-- The STREAM frames of a parsed packet. -/
def receiveStreams (header : ShortHeader) (streams : List StreamFrame)
    (ingressPath : Nat) (deferStreamAck : Bool) : EndpointState P × Except Error TransportFrames :=
  let live := streams.filter fun frame => !self.receive.isRetired frame.id
  match acceptStreams live self.receive with
  | (receive, .error e) => ({ self with receive := receive }, .error e)
  | (receive, .ok ()) =>
    let self := { self with receive := receive : EndpointState P }
    let self := (live.filter (·.fin)).foldl (fun self frame => self.tryRetireStream frame.id) self
    let self :=
      if deferStreamAck then self
      else self.commitStreamPacketReceive header.packetNumber ingressPath
    (self, .ok ⟨header, live, false⟩)

/-- A packet whose frames are all well formed. -/
def applyPacket (header : ShortHeader) (parsed : ParsedFrames) (duplicate : Bool)
    (ingressPath : Nat) (deferStreamAck : Bool) : EndpointState P × Except Error TransportFrames :=
  if parsed.closeCode.isSome ∧ parsed.streams ≠ [] then (self, .error .invalid)
  else
    match self.applyControl parsed ingressPath with
    | (self, .error e) => (self, .error e)
    | (self, .ok ()) =>
      let closes := parsed.closeCode.isSome
      let self :=
        if closes then { self with closeCode := parsed.closeCode, controlPending := true } else self
      if duplicate then
        -- Acknowledge again without delivering again.
        let self := { self with controlPending := true : EndpointState P }
        (self.scheduleAck ingressPath true, .ok ⟨header, [], true⟩)
      else if parsed.streams = [] then
        let self := self.observePacketOnPath header.packetNumber ingressPath
        let self :=
          if parsed.ackEliciting || closes then
            self.scheduleAck ingressPath (closes || parsed.pathStatus) else self
        (self, .ok ⟨header, [], false⟩)
      else self.receiveStreams header parsed.streams ingressPath deferStreamAck

/-- `receive_packet_batch_on_path`, and `receive_packet_before_stream_delivery` with
`deferStreamAck`. -/
def receivePacketBatchOnPath (input : Bytes) (ingressPath : Nat) (deferStreamAck : Bool) :
    EndpointState P × Except Error TransportFrames :=
  if self.paths.length ≤ ingressPath then (self, .error .pathLimit)
  else if self.isClosed then (self, .error .invalid)
  else
    match ShortHeader.decodeWithExpected input self.expectedPacketNumber with
    | .error e => (self, .error e)
    | .ok (header, headerLen) =>
      if header.flags &&& flagKeyPhase ≠ 0 then (self, .error .invalid)
      else
        let duplicate := self.receivedPackets.contains header.packetNumber
        match self.localConnectionIdOnPath ingressPath with
        | none => (self, .error .wrongConnectionId)
        | some localId =>
          if header.dcid ≠ localId then (self, .error .wrongConnectionId)
          else if header.packetNumber < self.receivePacketFloor then (self, .ok ⟨header, [], true⟩)
          else if headerLen = input.length then (self, .error .truncated)
          else
            match parseFrames self.receive.limits.maxDatagramFrameSize input.length
              (input.drop headerLen)
                emptyParse with
            | .error (.malformed e) => (self, .error e)
            | .error .datagramViolation =>
              ({ self with closeCode := some 0x0a, controlPending := true }, .error .invalid)
            | .ok parsed => self.applyPacket header parsed duplicate ingressPath deferStreamAck

/-- `open_packet_in_place`: the associated data has the endpoint's own id on the path. -/
def openPacketInPlace (aead : Aead) (protection : EndpointProtection) (self : EndpointState P)
    (pathId : Nat) (packet : Bytes) : Except Error Bytes :=
  match self.localConnectionIdOnPath pathId with
  | none => .error .wrongConnectionId
  | some localCid => openProtected aead protection.receive localCid self.expectedPacketNumber packet

/-- With keys, `receive_protected_packet_batch_on_path`. An opened packet is read like a plain one:
its mark says only that it was opened. -/
def receivePacketBatch (self : EndpointState P) (keys : Keys) (input : Bytes) (ingressPath : Nat)
    (deferStreamAck : Bool) : EndpointState P × Except Error TransportFrames :=
  match keys with
  | none => self.receivePacketBatchOnPath input ingressPath deferStreamAck
  | some (aead, protection) =>
    match self.openPacketInPlace aead protection ingressPath input with
    | .error e => (self, .error e)
    | .ok opened =>
      self.receivePacketBatchOnPath (opened.modifyHead (· &&& ~~~flagProtected)) ingressPath
        deferStreamAck

/-! ## What a packet does -/

section

variable {self : EndpointState P} {parsed : ParsedFrames} {path : Nat}
variable {R : EndpointState P → EndpointState P → Prop}

/-- A relation that each phase of the control frames keeps to is kept to by all of them. -/
theorem applyControl_along (hrefl : ∀ s, R s s) (htrans : ∀ {s t u}, R s t → R t u → R s u)
    (hflow : R self (receiveFlowControl parsed.frames self).1)
    (hack : ∀ t, t = self ∨ t = (receiveFlowControl parsed.frames self).1 → parsed.hasAck →
      R t (t.applyAckRangesOnPath parsed.acknowledged parsed.reportedAckDelay path).1)
    (hfrequency : ∀ t request, R t (applyAckFrequency t request).1) :
    R self (self.applyControl parsed path).1 := by
  have hfirst : ∃ t, (t = self ∨ t = (receiveFlowControl parsed.frames self).1) ∧
      (if parsed.hasFlowControl then receiveFlowControl parsed.frames self else (self, .ok ())).1 =
        t := by
    split
    · exact ⟨_, .inr rfl, rfl⟩
    · exact ⟨_, .inl rfl, rfl⟩
  obtain ⟨t, ht, hfirst⟩ := hfirst
  have hbefore : R self t := by
    rcases ht with rfl | rfl
    · exact hrefl t
    · exact hflow
  have hsecond : R t (if parsed.hasAck then
      t.applyAckRangesOnPath parsed.acknowledged parsed.reportedAckDelay path
      else (t, .ok ())).1 := by
    split
    · exact hack t ht ‹_›
    · exact hrefl t
  unfold applyControl
  split <;> rename_i heq <;> rw [heq] at hfirst <;> subst hfirst
  · exact hbefore
  split <;> rename_i heq <;> rw [heq] at hsecond <;> refine htrans hbefore (htrans hsecond ?_)
  · exact hrefl _
  split
  · exact hfrequency _ _
  · exact hrefl _

/-- What becomes of a packet whose frames are well formed. -/
theorem applyPacket_cases (self : EndpointState P) (header : ShortHeader) (parsed : ParsedFrames)
    (duplicate : Bool) (path : Nat) (deferAck : Bool) :
    (∃ t e, (t = self ∨ t = (self.applyControl parsed path).1) ∧
      self.applyPacket header parsed duplicate path deferAck = (t, .error e)) ∨
    ∃ s₁ t : EndpointState P, (self.applyControl parsed path).1 = s₁ ∧
      (∃ code pending, t = { s₁ with closeCode := code, controlPending := pending }) ∧
      (self.applyPacket header parsed duplicate path deferAck = (EndpointState.scheduleAck { t with
            controlPending := true } path true, .ok ⟨header, [], true⟩) ∨
        duplicate = false ∧
          ((∃ u, (u = t.observePacketOnPath header.packetNumber path ∨
              ∃ immediate, u = (t.observePacketOnPath header.packetNumber path).scheduleAck path
                immediate) ∧
            self.applyPacket header parsed duplicate path deferAck = (u, .ok ⟨header, [], false⟩)) ∨
          self.applyPacket header parsed duplicate path deferAck =
            t.receiveStreams header parsed.streams path deferAck)) := by
  unfold applyPacket
  split
  · exact .inl ⟨_, _, .inl rfl, rfl⟩
  split <;> rename_i heq
  · exact .inl ⟨_, _, .inr (by rw [heq]), rfl⟩
  rename_i s₁
  extract_lets closes s₂ s₃ s₄ s₅
  have hclose : ∃ code pending, s₂ = { s₁ with closeCode := code, controlPending := pending } := by
    unfold s₂
    split <;> exact ⟨_, _, rfl⟩
  refine .inr ⟨s₁, s₂, by rw [heq], hclose, ?_⟩
  split
  · exact .inl rfl
  rename_i hnew
  refine .inr ⟨eq_false_of_ne_true hnew, ?_⟩
  split
  · refine .inl ⟨s₅, ?_, rfl⟩
    unfold s₅
    split
    · exact .inr ⟨_, rfl⟩
    · exact .inl rfl
  · exact .inr rfl

/-- What becomes of a packet. -/
theorem receivePacketBatchOnPath_cases (self : EndpointState P) (input : Bytes) (path : Nat)
    (deferAck : Bool) :
    (∃ e, self.receivePacketBatchOnPath input path deferAck = (self, .error e)) ∨
    ∃ header headerLen, ShortHeader.decodeWithExpected input self.expectedPacketNumber =
      .ok (header, headerLen) ∧
      (self.receivePacketBatchOnPath input path deferAck = (self, .ok ⟨header, [], true⟩) ∨
        self.receivePacketBatchOnPath input path deferAck =
          ({ self with closeCode := some 0x0a, controlPending := true }, .error .invalid) ∨
        path < self.paths.length ∧ self.receivePacketFloor ≤ header.packetNumber ∧
          ∃ parsed, parseFrames self.receive.limits.maxDatagramFrameSize input.length
            (input.drop headerLen) emptyParse =
              .ok parsed ∧
            self.receivePacketBatchOnPath input path deferAck =
              self.applyPacket header parsed (self.receivedPackets.contains header.packetNumber)
                path deferAck) := by
  unfold receivePacketBatchOnPath
  split
  · exact .inl ⟨_, rfl⟩
  rename_i hpath
  split
  · exact .inl ⟨_, rfl⟩
  split
  · exact .inl ⟨_, rfl⟩
  rename_i header headerLen hheader
  split
  · exact .inl ⟨_, rfl⟩
  simp only
  split
  · exact .inl ⟨_, rfl⟩
  split
  · exact .inl ⟨_, rfl⟩
  split
  · exact .inr ⟨header, headerLen, hheader, .inl rfl⟩
  rename_i hfloor
  split
  · exact .inl ⟨_, rfl⟩
  split
  · exact .inl ⟨_, rfl⟩
  · exact .inr ⟨header, headerLen, hheader, .inr (.inl rfl)⟩
  · exact .inr ⟨header, headerLen, hheader,
      .inr (.inr ⟨not_le.mp hpath, not_lt.mp hfloor, _, ‹_›, rfl⟩)⟩

/-- The header and the frames of a packet that passes the checks before any of it is applied. -/
def admitted (self : EndpointState P) (input : Bytes) (path : Nat) :
    Option (ShortHeader × ParsedFrames) :=
  if self.paths.length ≤ path ∨ self.isClosed then none
  else
    match ShortHeader.decodeWithExpected input self.expectedPacketNumber with
    | .error _ => none
    | .ok (header, headerLen) =>
      if header.flags &&& flagKeyPhase ≠ 0 ∨ self.localConnectionIdOnPath path ≠ some header.dcid ∨
          header.packetNumber < self.receivePacketFloor ∨ headerLen = input.length then none
      else
        match parseFrames self.receive.limits.maxDatagramFrameSize input.length
          (input.drop headerLen) emptyParse with
        | .error _ => none
        | .ok parsed => some (header, parsed)

/-- An admitted packet is applied. Any other changes nothing but the closing, and is not reported as
new. -/
theorem receivePacketBatchOnPath_admitted (self : EndpointState P) (input : Bytes) (path : Nat)
    (deferAck : Bool) :
    (∃ header parsed, self.admitted input path = some (header, parsed) ∧ path < self.paths.length ∧
      self.receivePacketBatchOnPath input path deferAck =
        self.applyPacket header parsed (self.receivedPackets.contains header.packetNumber)
          path deferAck) ∨
    ∃ code pending result, self.receivePacketBatchOnPath input path deferAck =
        ({ self with closeCode := code, controlPending := pending }, result) ∧
      ∀ frames, result = .ok frames → frames.duplicate = true := by
  have hrefused : ∀ e : Error, ∃ code pending result,
      ((self, .error e) : EndpointState P × Except Error TransportFrames) =
      ({ self with closeCode := code, controlPending := pending }, result) ∧
        ∀ frames, result = .ok frames → frames.duplicate = true :=
    fun e => ⟨self.closeCode, self.controlPending, .error e, rfl, by simp⟩
  unfold receivePacketBatchOnPath admitted
  by_cases hpath : self.paths.length ≤ path
  · rw [if_pos hpath]
    exact .inr (hrefused _)
  by_cases hclosed : self.isClosed = true
  · rw [if_neg hpath, if_pos hclosed]
    exact .inr (hrefused _)
  rw [if_neg hpath, if_neg hclosed, if_neg (not_or.mpr ⟨hpath, hclosed⟩)]
  rcases hheader : ShortHeader.decodeWithExpected input self.expectedPacketNumber with e |
    ⟨header, headerLen⟩
  · exact .inr (hrefused _)
  simp only
  by_cases hphase : header.flags &&& flagKeyPhase ≠ 0
  · rw [if_pos hphase]
    exact .inr (hrefused _)
  rw [if_neg hphase]
  rcases hlocal : self.localConnectionIdOnPath path with _ | localId
  · exact .inr (hrefused _)
  simp only
  by_cases hdcid : header.dcid ≠ localId
  · rw [if_pos hdcid]
    exact .inr (hrefused _)
  rw [if_neg hdcid]
  by_cases hfloor : header.packetNumber < self.receivePacketFloor
  · rw [if_pos hfloor]
    refine .inr ⟨self.closeCode, self.controlPending, _, rfl, ?_⟩
    intro frames hok
    rw [← Except.ok.inj hok]
  rw [if_neg hfloor]
  by_cases hlength : headerLen = input.length
  · rw [if_pos hlength]
    exact .inr (hrefused _)
  have hpass : ¬(header.flags &&& flagKeyPhase ≠ 0 ∨ some localId ≠ some header.dcid ∨
      header.packetNumber < self.receivePacketFloor ∨ headerLen = input.length) := by
    rw [not_not.mp hdcid]
    simp [hphase, hfloor, hlength]
  rw [if_neg hlength, if_neg hpass]
  rcases parseFrames self.receive.limits.maxDatagramFrameSize input.length (input.drop headerLen)
    emptyParse with
    failure | parsed
  · cases failure with
    | malformed => exact .inr (hrefused _)
    | datagramViolation => exact .inr ⟨some 0x0a, true, .error .invalid, rfl, by simp⟩
  · exact .inl ⟨header, parsed, rfl, not_le.mp hpath, rfl⟩

/-- A relation that the control frames and each phase after them keep to is kept to by the
packet. -/
theorem receivePacketBatchOnPath_along (hrefl : ∀ s, R s s)
    (htrans : ∀ {s t u}, R s t → R t u → R s u)
    (hclose : ∀ s code pending, R s { s with closeCode := code, controlPending := pending })
    (hschedule : ∀ s path immediate, R s (scheduleAck s path immediate))
    (hobserve : ∀ s number path, R s (observePacketOnPath s number path))
    (hstreams : ∀ s header streams path deferAck,
      R s (receiveStreams s header streams path deferAck).1) {input : Bytes}
    (hcontrol : ∀ header parsed, self.admitted input path = some (header, parsed) →
      ¬(parsed.closeCode.isSome ∧ parsed.streams ≠ []) → R self (self.applyControl parsed path).1)
      (deferAck : Bool) :
    R self (self.receivePacketBatchOnPath input path deferAck).1 := by
  rcases self.receivePacketBatchOnPath_admitted input path deferAck with
    ⟨header, parsed, hadmitted, -, heq⟩ | ⟨code, pending, result, heq, -⟩ <;> rw [heq]
  · by_cases hclosing : parsed.closeCode.isSome ∧ parsed.streams ≠ []
    · unfold applyPacket
      rw [if_pos hclosing]
      exact hrefl self
    have hcontrol := hcontrol header parsed hadmitted hclosing
    rcases self.applyPacket_cases header parsed _ path deferAck with
      ⟨t, e, ht | ht, heq⟩ | ⟨s₁, t, rfl, ⟨code, pending, ht⟩, heq | ⟨-, ⟨u, hu, heq⟩ | heq⟩⟩ <;>
        rw [heq]
    · exact ht ▸ hrefl self
    · exact ht ▸ hcontrol
    all_goals refine htrans (htrans hcontrol (ht ▸ hclose _ code pending)) ?_
    · exact htrans (hclose t t.closeCode true) (hschedule _ path true)
    · rcases hu with rfl | ⟨immediate, rfl⟩
      · exact hobserve t _ path
      · exact htrans (hobserve t _ path) (hschedule _ path immediate)
    · exact hstreams t header _ path deferAck
  · exact hclose self code pending

end

end EndpointState

end QuicLite
