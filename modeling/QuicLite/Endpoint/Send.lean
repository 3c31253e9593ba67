import QuicLite.Endpoint.Control

/-!
# Sending

Fresh STREAM packets, path control, proactive copies of credit, and retransmissions. Each emission
plans its packet without touching the state, reserves pacing, credit and window in the source's
order, and then enters the transmission into the ledger. A reservation that fails late leaves the
earlier ones in place, so every exit returns the state it leaves.
-/

namespace QuicLite

namespace EndpointState

variable {P : Nat} (self : EndpointState P) (keys : Keys)

def setPath (pathId : Nat) (path : PathState) : EndpointState P :=
  { self with paths := self.paths.set pathId path }

/-- Enter a transmission into the ledger and its path's history. -/
def recordSent (slot : Nat) (sent : SentPacket) : EndpointState P :=
  { self with
    sentPackets := self.sentPackets.set slot (some sent)
    paths := self.paths.modify sent.pathId fun path =>
      path.recordCongestionPacket self.transmissionLimit sent.packetNumber path.sendClock }

/-- The fields a record starts with whatever it carries. -/
def freshRecord (packetNumber pathId sendOrder bytes sentAt : Nat) (windowLimited : Bool) :
    SentPacket where
  packetNumber := packetNumber
  ackLargestReceived := none
  pathId := pathId
  sendOrder := sendOrder
  bytes := bytes
  streamId := 0
  offset := 0
  dataLen := 0
  fin := false
  pathProbe := false
  sendBufferSlot := none
  probeToken := none
  pathStatus := none
  rttEligible := true
  logicalPacketNumber := packetNumber
  duplicationCharge := 0
  duplicationBudgetCommitted := false
  sentAt := sentAt
  accepted := true
  windowLimited := windowLimited
  lost := false
  inferredLost := false
  dataDelivered := false

/-! ## Fresh stream data -/

structure StreamPlan where
  packet : Packet
  control : Option EncodedControlFrames
  rangeSlot : Nat
  transmissionSlot : Nat

/-- The slots and the room that a written packet needs. -/
def admitStream (pathId : Nat) (frame : StreamFrame) (packet : Packet)
    (control : Option EncodedControlFrames) : Except Error StreamPlan :=
  match self.freeRangeSlot, self.freeTransmissionSlot with
  | some rangeSlot, some transmissionSlot =>
    if self.sendBufferLimitBytes < satAdd self.allocatedPayloadBytes frame.data.length then
      .error .historyFull
    else if !(self.pathAt pathId).congestion.canSend packet.bytes.length then .error .blocked
    else .ok ⟨packet, control, rangeSlot, transmissionSlot⟩
  | _, _ => .error .historyFull

/-- Everything `encode_stream_packet_on_path_inner` checks before it reserves anything. -/
def planStream (pathId : Nat) (dcid : ConnectionId) (frame : StreamFrame) (capacity : Nat) :
    Except Error StreamPlan :=
  if self.paths.length ≤ pathId then .error .pathLimit
  else if (self.peerConnectionIdOnPath pathId).any (· != dcid) then .error .wrongConnectionId
  else if P < frame.data.length then .error .retransmissionTooLarge
  else if self.peerMaxInFlightPackets ≤ self.inFlightPacketCount then .error .blocked
  else do
    let packet ← Packet.start ⟨flagFixed, dcid, self.nextPacketNumber, self.nextPacketNumberLen⟩
        capacity
    let streamPrefix ← encodeStreamPrefix frame (capacity - packet.bytes.length)
    let bytes := packet.bytes ++ streamPrefix ++ frame.data
    if capacity < bytes.length then .error .bufferTooSmall
    else do
      let control ← self.encodeControlFramesOnPath pathId (capacity - bytes.length) true
      let packet := Packet.withControl ⟨packet.header, [.stream frame], bytes⟩ control
      self.admitStream pathId frame packet control

/-- With keys the frame is written whole, since its data are sealed in place. -/
def planStreamProtected (aead : Aead) (protection : EndpointProtection) (pathId : Nat)
    (dcid : ConnectionId) (frame : StreamFrame) (capacity : Nat) : Except Error StreamPlan :=
  if self.paths.length ≤ pathId then .error .pathLimit
  else if (self.peerConnectionIdOnPath pathId).any (· != dcid) then .error .wrongConnectionId
  else if P < frame.data.length then .error .retransmissionTooLarge
  else if self.peerMaxInFlightPackets ≤ self.inFlightPacketCount then .error .blocked
  else do
    let packet ← Packet.start ⟨flagFixed, dcid, self.nextPacketNumber, self.nextPacketNumberLen⟩
        capacity
    let bodyEnd := controlBodyEnd (some (aead, protection)) capacity
    if bodyEnd < packet.bytes.length then .error .bufferTooSmall
    else do
      let packet ← packet.push (.stream frame) bodyEnd
      let control ← self.encodeControlFramesOnPath pathId (bodyEnd - packet.bytes.length) true
      let packet ← self.protectPacketInPlace aead protection pathId (packet.withControl control)
          capacity
      self.admitStream pathId frame packet control

/-- The range a fresh frame is kept in. A leased packet is attached afterwards. -/
def retainFrame (frame : StreamFrame) (packetNumber : Nat) (retainStreamBytes : Bool) :
    RetainedSendRange where
  streamId := frame.id
  offset := frame.offset
  dataLen := frame.data.length
  fin := frame.fin
  payload := if retainStreamBytes then some frame.data else none
  poolPayload := none
  payloadStart := 0
  payloadEnd := frame.data.length
  acknowledged := List.replicate ((frame.data.length + 63) / 64) 0
  finAcked := false
  logicalPacketNumber := packetNumber
  priorPackets := []

/-- Enter a planned stream packet: its range and its transmission. -/
def enterStream (pathId sendOrder : Nat) (windowLimited : Bool) (frame : StreamFrame)
    (plan : StreamPlan) (retainStreamBytes : Bool) : EndpointState P :=
  let packetNumber := self.nextPacketNumber
  let bytes := plan.packet.bytes.length
  let sent := { freshRecord packetNumber pathId sendOrder bytes (self.pathAt pathId).sendClock
    windowLimited with
    ackLargestReceived := if plan.control.any (·.ack) then self.largestReceived else none
    streamId := frame.id
    offset := frame.offset
    dataLen := frame.data.length
    fin := frame.fin
    sendBufferSlot := some plan.rangeSlot }
  let self := { self with
    nextPacketNumber := packetNumber + 1
    sendBuffer := self.sendBuffer.set plan.rangeSlot
      (some (retainFrame frame packetNumber retainStreamBytes))
    : EndpointState P }
  self.recordSent plan.transmissionSlot sent

/-- The control frames a stream packet carries, if any. -/
def commitPiggyback (pathId packetNumber : Nat) : Option EncodedControlFrames → EndpointState P
  | some control => self.commitControlFrames pathId packetNumber control
  | none => self

/-- After the packet is entered: FIN, then the control frames it carries. -/
def commitStream (pathId sendOrder : Nat) (windowLimited : Bool) (frame : StreamFrame)
    (plan : StreamPlan) (retainStreamBytes : Bool) :
    EndpointState P × Except Error (Packet × Nat) :=
  let packetNumber := self.nextPacketNumber
  let self := self.enterStream pathId sendOrder windowLimited frame plan retainStreamBytes
  match if frame.fin then self.send.finishStream frame.id else .ok self.send with
  | .error e => (self, .error e)
  | .ok send =>
    ({ self with send := send : EndpointState P }.commitPiggyback pathId packetNumber plan.control,
      .ok (plan.packet, packetNumber))

/-- Reserve what a planned packet needs, in the source's order, then commit it. -/
def reserveStream (pathId : Nat) (frame : StreamFrame) (plan : StreamPlan)
    (retainStreamBytes : Bool) : EndpointState P × Except Error (Packet × Nat) :=
  let bytes := plan.packet.bytes.length
  let clock := (self.pathAt pathId).sendClock
  match (self.pathAt pathId).canSendPaced bytes clock with
  | (path, false) => (self.setPath pathId path, .error .blocked)
  | (path, true) =>
    if u32Max ≤ self.nextPacketNumber then (self.setPath pathId path, .error .packetNumberExhausted)
    else
      match path.tryReservePacing bytes clock with
      | (path, false) => (self.setPath pathId path, .error .blocked)
      | (path, true) =>
        match self.send.reserved frame.id frame.offset frame.data.length with
        | .error e => (self.setPath pathId path, .error e)
        | .ok send =>
          let self := { self with send := send : EndpointState P }
          let windowLimited := path.congestion.windowLimited bytes
          match path.congestion.onPacketSent bytes with
          | none => (self.setPath pathId path, .error .blocked)
          | some congestion =>
            let path := { path with congestion := congestion }
            match path.assignSendOrder with
            | .error e => (self.setPath pathId path, .error e)
            | .ok (path, sendOrder) =>
              (self.setPath pathId path).commitStream pathId sendOrder windowLimited frame plan
                retainStreamBytes

def encodeStreamPacketProtected (aead : Aead) (protection : EndpointProtection) (pathId : Nat)
    (dcid : ConnectionId) (frame : StreamFrame) (capacity : Nat) (retainStreamBytes : Bool) :
    EndpointState P × Except Error (Packet × Nat) :=
  match self.planStreamProtected aead protection pathId dcid frame capacity with
  | .error e => (self, .error e)
  | .ok plan => self.reserveStream pathId frame plan retainStreamBytes

section

variable (pathId : Nat) (dcid : ConnectionId) (frame : StreamFrame) (capacity : Nat)

def encodeStreamPacketOnPathInner (retainStreamBytes : Bool) :
    EndpointState P × Except Error (Packet × Nat) :=
  match keys with
  | none =>
    match self.planStream pathId dcid frame capacity with
    | .error e => (self, .error e)
    | .ok plan => self.reserveStream pathId frame plan retainStreamBytes
  | some (aead, protection) =>
    self.encodeStreamPacketProtected aead protection pathId dcid frame capacity retainStreamBytes

def encodeStreamPacketOnPath : EndpointState P × Except Error (Packet × Nat) :=
  self.encodeStreamPacketOnPathInner none pathId dcid frame capacity true

/-- The source lease becomes the range's payload instead of a copy. -/
def encodeStreamPacketFromOwnedOnPath : EndpointState P × Except Error (Packet × Nat) :=
  match self.encodeStreamPacketOnPathInner keys pathId dcid frame capacity false with
  | (self, .error e) => (self, .error e)
  | (self, .ok (packet, packetNumber)) =>
    match self.sendBuffer.findIdx? fun slot => slot.any fun range =>
      range.logicalPacketNumber == packetNumber with
    | none => (self, .error .invalid)
    | some index =>
      ({ self with
         sendBuffer := self.sendBuffer.modify index (Option.map fun range =>
           { range with poolPayload := some frame.data }) }, .ok (packet, packetNumber))

end

/-! ## Path control -/

/-- Frames `encode_path_control_packet` sends. -/
def isPathControl : Frame → Bool
  | .pathJoin .. | .pathJoinAck .. | .pathChallenge .. | .pathResponse .. | .pathStatus ..
    | .ping => true
  | _ => false

/-- Frames whose packet enters the ledger. -/
def tracksFlight : Frame → Bool
  | .pathChallenge .. | .pathResponse .. | .pathStatus .. | .ping => true
  | _ => false

def isPathProbe : Frame → Bool
  | .pathChallenge .. | .pathResponse .. => true
  | _ => false

/-- A challenge is padded to the packet size of its path. (The source's slice panics when the path's
packet size is below the frame; nothing is padded here.) -/
def padChallenge (packet : Packet) (frame : Frame) (target : Nat) : Packet :=
  match frame with
  | .pathChallenge _ =>
    let padding := target - packet.bytes.length
    { packet with
      frames := packet.frames ++ List.replicate padding .padding
      bytes := packet.bytes ++ List.replicate padding (UInt8.ofNat framePadding) }
  | _ => packet

structure PathControlPlan where
  packet : Packet
  slot : Option Nat

def planPathControl (pathId : Nat) (destination : ConnectionId) (frame : Frame)
    (capacity : Nat) (ptoProbe : Bool) : Except Error PathControlPlan :=
  if self.paths.length ≤ pathId ∨ destination.value = 0 ∨ !isPathControl frame then .error .invalid
  else do
    let packet ← Packet.start ⟨flagFixed, destination, self.nextPacketNumber, 4⟩ capacity
    let packet ← packet.push frame capacity
    let packet ← self.protect keys pathId
      (padChallenge packet frame (min (self.pathAt pathId).congestion.maxPacketSize capacity))
        capacity
    if u32Max ≤ self.nextPacketNumber then .error .packetNumberExhausted
    else if !tracksFlight frame then .ok ⟨packet, none⟩
    else if !ptoProbe ∧ self.peerMaxInFlightPackets ≤ self.inFlightPacketCount then .error .blocked
    else
      match self.freeTransmissionSlot with
      | none => .error .historyFull
      | some slot =>
        if !ptoProbe ∧ !(self.pathAt pathId).congestion.canSend packet.bytes.length then
          .error .blocked
        else .ok ⟨packet, some slot⟩

/-- The budget a probe reserves when it can. -/
def probeCharge (frame : Frame) (bytes : Nat) : Nat :=
  if isPathProbe frame ∧ bytes ≤ self.duplicationBudgetAvailable then bytes else 0

/-- `status_sent`, on the circuit a PATH_STATUS frame names. -/
def noteStatusSent (pathId : Nat) (frame : Frame) : EndpointState P :=
  match frame with
  | .pathStatus key sequence _ =>
    let retryAt := satAdd (self.pathAt pathId).sendClock (self.ptoTimeoutForPath pathId)
    { self with
      paths := FirstMatch.modifyFirst (fun path => path.circuitKey == some key)
        (·.statusSent sequence retryAt)
        self.paths }
  | _ => self

/-- Enter a tracked path control packet. -/
def enterPathControl (pathId sendOrder : Nat) (windowLimited : Bool) (frame : Frame)
    (packet : Packet) (slot : Nat) : EndpointState P :=
  let bytes := packet.bytes.length
  let charge := self.probeCharge frame bytes
  let packetNumber := self.nextPacketNumber
  let sent := { freshRecord packetNumber pathId sendOrder bytes (self.pathAt pathId).sendClock
    windowLimited with
    pathProbe := isPathProbe frame
    probeToken := match frame with | .pathChallenge token => some token | _ => none
    pathStatus := match frame with | .pathStatus key sequence _ => some (key, sequence) | _ => none
    rttEligible := frame == .ping
    duplicationCharge := charge
    dataDelivered := true }
  let self := { self with
    duplicationReservedBytes := satAdd self.duplicationReservedBytes charge
    nextPacketNumber := packetNumber + 1 : EndpointState P }
  (self.recordSent slot sent).noteStatusSent pathId frame

/-- Path control that stays out of the ledger. -/
def passPathControl (pathId : Nat) (frame : Frame) (packet : Packet) : EndpointState P :=
  let charge := self.probeCharge frame packet.bytes.length
  let self := { self with
    duplicationReservedBytes := satAdd self.duplicationReservedBytes charge
    nextPacketNumber := self.nextPacketNumber + 1 : EndpointState P }
  self.noteStatusSent pathId frame

def encodePathControlPacketInner (pathId : Nat) (destination : ConnectionId)
    (frame : Frame) (capacity : Nat) (ptoProbe : Bool) : EndpointState P × Except Error Packet :=
  match self.planPathControl keys pathId destination frame capacity ptoProbe with
  | .error e => (self, .error e)
  | .ok ⟨packet, none⟩ => (self.passPathControl pathId frame packet, .ok packet)
  | .ok ⟨packet, some slot⟩ =>
    let bytes := packet.bytes.length
    let path := self.pathAt pathId
    let windowLimited := path.congestion.windowLimited bytes
    match path.assignSendOrder with
    | .error e => (self, .error e)
    | .ok (path, sendOrder) =>
      -- Every tracked frame is exempt from pacing.
      match if ptoProbe then some (path.congestion.onRetransmissionSent bytes)
          else path.congestion.onPacketSent bytes with
      | none => (self.setPath pathId path, .error .blocked)
      | some congestion =>
        ((self.setPath pathId { path with congestion := congestion }).enterPathControl pathId
          sendOrder windowLimited frame packet slot, .ok packet)

def encodePathControlPacket (pathId : Nat) (destination : ConnectionId) (frame : Frame)
    (capacity : Nat) : EndpointState P × Except Error Packet :=
  self.encodePathControlPacketInner keys pathId destination frame capacity false

/-! ## Datagrams -/

inductive DatagramPriority where
  | low
  | high
  deriving DecidableEq

/-- The storage that a payload lies in: its size, what the bearer needs before and after the packet,
and the largest packet that it takes. -/
structure DatagramStorage where
  len : Nat
  before : Nat
  after : Nat
  mtu : Nat

/-- `datagram_tag_len` -/
def datagramTagLen : Option EndpointProtection → Nat
  | none => 0
  | some _ => aeadTagLen

/-- `datagram_send_layout`: header and frame type go right before a payload that starts at `start`,
and the tag right behind it. The packet is still plain. -/
def datagramSendLayout (protection : Option EndpointProtection) (pathId start : Nat) (data : Bytes)
    (storage : DatagramStorage) (priority : DatagramPriority) : Except Error Packet :=
  if self.isClosed then .error .invalid
  else if self.paths.length ≤ pathId then .error .pathLimit
  else if self.peerMaxDatagramFrameSize = 0 then .error .datagramUnsupported
  else if self.peerMaxDatagramFrameSize < 1 + data.length then .error .datagramTooLarge
  else
    match self.peerConnectionIdOnPath pathId with
    | none => .error .wrongConnectionId
    | some dcid => do
        let packet ← Packet.start ⟨flagFixed, dcid, self.nextPacketNumber,
            self.nextPacketNumberLen⟩ 16
        let packet : Packet := ⟨packet.header, [.datagram data false],
          packet.bytes ++ (0x30 :: data)⟩
        let lead := packet.bytes.length - data.length
        let tag := datagramTagLen protection
        let size := packet.bytes.length + tag
        let path := self.pathAt pathId
        if start < lead then .error .bufferTooSmall
        else if storage.mtu < size ∨ path.congestion.maxPacketSize < size then
          .error .datagramTooLarge
        else if start - lead < storage.before ∨
          storage.len < start + data.length + tag + storage.after then .error .bufferTooSmall
        else if priority = .low ∧
          self.send.maxData - self.send.sentData ≤ path.congestion.maxPacketSize then
          .error .blocked
        else if u32Max ≤ self.nextPacketNumber then .error .packetNumberExhausted
        else if self.peerMaxInFlightPackets ≤ self.inFlightPacketCount ∨
          !path.congestion.canSend size then .error .blocked
        else if self.freeTransmissionSlot.isNone then .error .historyFull
        else if u64Max ≤ path.nextSendOrder then .error .packetNumberExhausted
        else .ok packet

/-- Only the transmission is entered: there is no payload to repair. The number is taken by a plain
`+= 1` on a `u32`, which goes around behind the last one. -/
def enterDatagram (pathId sendOrder bytes : Nat) (windowLimited : Bool) (slot : Nat) :
    EndpointState P :=
  let sent := { freshRecord self.nextPacketNumber pathId sendOrder bytes
    (self.pathAt pathId).sendClock windowLimited with
    dataDelivered := true }
  { self with
    nextPacketNumber := (self.nextPacketNumber + 1) % (u32Max + 1) :
      EndpointState P }.recordSent slot sent

/-- `commit_datagram_transmission`. It relies on the layout for a path that exists and for a number
that is left: of its own it checks a free slot, pacing, the send order and the window. -/
def commitDatagramTransmission (pathId bytes : Nat) : EndpointState P × Except Error Unit :=
  match self.freeTransmissionSlot with
  | none => (self, .error .historyFull)
  | some slot =>
    let windowLimited := (self.pathAt pathId).congestion.windowLimited bytes
    match (self.pathAt pathId).tryReservePacing bytes (self.pathAt pathId).sendClock with
    | (path, false) => (self.setPath pathId path, .error .blocked)
    | (path, true) =>
      match path.assignSendOrder with
      | .error e => (self.setPath pathId path, .error e)
      | .ok (path, sendOrder) =>
        match path.congestion.onPacketSent bytes with
        | none => (self.setPath pathId path, .error .blocked)
        | some congestion =>
          ((self.setPath pathId { path with congestion := congestion }).enterDatagram pathId
            sendOrder bytes windowLimited slot, .ok ())

/-- Layout, commit and sealing, as the node calls them. The number after the packet's is expected
while it is sealed; the node takes for granted that this succeeds. -/
def sendDatagram (pathId start : Nat) (data : Bytes) (storage : DatagramStorage)
    (priority : DatagramPriority) : EndpointState P × Except Error Packet :=
  let protection := keys.map (·.2)
  match self.datagramSendLayout protection pathId start data storage priority with
  | .error e => (self, .error e)
  | .ok packet =>
    match self.commitDatagramTransmission pathId
        (packet.bytes.length + datagramTagLen protection) with
    | (self, .error e) => (self, .error e)
    | (self, .ok ()) =>
      (self, self.protect keys pathId packet
        (storage.len - (start - (packet.bytes.length - data.length))))

/-! ## Copies of a credit publication -/

/-- The frames of `duplicate_credit_control_on_path`. -/
def creditCopyFrames (includeAck includeMaxData : Bool) (streamCreditCount : Nat)
    (includeMaxStreamsBidi : Bool) (largest : Nat) : List Frame :=
  (if includeAck then [.ackRanges largest 0 self.receivedPackets] else [])
    ++ (if includeMaxData then [.maxData self.receive.connection.maxData] else [])
    ++ (self.pendingStreamIds.take (min streamCreditCount self.pendingStreamIds.length)).map
        (fun id => .maxStreamData id (self.advertisedStreamLimit id))
    ++ (if includeMaxStreamsBidi then [.maxStreamsBidi self.receive.limits.maxStreamsBidi] else [])

def pushAll (packet : Packet) (capacity : Nat) : List Frame → Except Error Packet
  | [] => .ok packet
  | frame :: frames => do
      let packet ← packet.push frame capacity
      pushAll packet capacity frames

/-- What a copy of the publication needs: its packet and a ledger slot. `none` is the source's
`Ok(None)`. -/
def planCreditCopy (sourcePacketNumber pathId : Nat) (includeAck includeMaxData : Bool)
    (streamCreditCount : Nat) (includeMaxStreamsBidi : Bool) (capacity : Nat) :
    Except Error (Option (Packet × Nat)) :=
  if self.paths.length ≤ pathId ∨ !(self.pathAt pathId).isUsableForData
      ∨ self.creditPacketNumber ≠ some sourcePacketNumber ∨ !self.creditPending
      ∨ (!includeMaxData ∧ streamCreditCount = 0 ∧ !includeMaxStreamsBidi)
      ∨ self.peerMaxInFlightPackets ≤ self.inFlightPacketCount then .ok none
  else
    match self.peerConnectionIdOnPath pathId, self.freeTransmissionSlot with
    | none, _ => .error .wrongConnectionId
    | some _, none => .error .historyFull
    | some peerCid, some slot =>
      if u32Max ≤ self.nextPacketNumber then .error .packetNumberExhausted
      else do
        let packet ← Packet.start ⟨flagFixed, peerCid, self.nextPacketNumber,
            self.nextPacketNumberLen⟩ capacity
        if includeAck ∧ self.largestReceived = none then .ok none
        else do
          let packet ← pushAll packet capacity (self.creditCopyFrames includeAck includeMaxData
            streamCreditCount includeMaxStreamsBidi (self.largestReceived.getD 0))
          let packet ← self.protect keys pathId packet capacity
          .ok (some (packet, slot))

/-- Enter a copy of the publication `sourcePacketNumber`. -/
def enterCreditCopy (sourcePacketNumber pathId sendOrder : Nat)
    (windowLimited includeAck : Bool) (packet : Packet) (slot : Nat) : EndpointState P :=
  let bytes := packet.bytes.length
  let packetNumber := self.nextPacketNumber
  let sent := { freshRecord packetNumber pathId sendOrder bytes (self.pathAt pathId).sendClock
    windowLimited with
    ackLargestReceived := if includeAck then self.largestReceived else none
    rttEligible := false
    logicalPacketNumber := sourcePacketNumber
    duplicationCharge := bytes
    dataDelivered := true }
  let self := { self with
    nextPacketNumber := packetNumber + 1
    duplicationReservedBytes := satAdd self.duplicationReservedBytes bytes : EndpointState P }
  self.recordSent slot sent

def duplicateCreditControlOnPath (sourcePacketNumber pathId : Nat)
    (includeAck includeMaxData : Bool) (streamCreditCount : Nat) (includeMaxStreamsBidi : Bool)
    (capacity : Nat) : EndpointState P × Except Error (Option (Packet × Nat)) :=
  match self.planCreditCopy keys sourcePacketNumber pathId includeAck includeMaxData
    streamCreditCount
      includeMaxStreamsBidi capacity with
  | .error e => (self, .error e)
  | .ok none => (self, .ok none)
  | .ok (some (packet, slot)) =>
    let bytes := packet.bytes.length
    let path := self.pathAt pathId
    if self.duplicationBudgetAvailable < bytes ∨ !path.congestion.canSend bytes then
      (self, .ok none)
    else
      match path.tryReservePacing bytes path.sendClock with
      | (path, false) => (self.setPath pathId path, .ok none)
      | (path, true) =>
        let windowLimited := path.congestion.windowLimited bytes
        match path.congestion.onPacketSent bytes with
        | none => (self.setPath pathId path, .ok none)
        | some congestion =>
          let path := { path with congestion := congestion }
          match path.assignSendOrder with
          | .error e => (self.setPath pathId path, .error e)
          | .ok (path, sendOrder) =>
            ((self.setPath pathId path).enterCreditCopy sourcePacketNumber pathId sendOrder
              windowLimited includeAck packet slot, .ok (some (packet, self.nextPacketNumber)))

/-! ## Retransmission -/

/-- What a range still has to send: the first unacknowledged run, or a lone FIN. -/
def repairFrame (range : RetainedSendRange) : Except Error (Option StreamFrame) :=
  let lone : Option StreamFrame :=
    if range.fin && !range.finAcked then
      some ⟨range.streamId, range.offset + range.dataLen, true, []⟩ else none
  if !range.hasPayload then .ok lone
  else
    match range.firstUnacknowledgedRun with
    | none => .ok lone
    | some (start, stop) =>
      match range.payloadRange start stop with
      | none => .error .invalid
      | some data =>
        .ok (some ⟨range.streamId, range.offset + start, range.fin && !range.finAcked &&
          stop == range.dataLen, data⟩)

structure RepairPlan where
  frame : StreamFrame
  packet : Packet
  slot : Nat
  rangeSlot : Nat
  /-- The lost record the new one overwrites, when no slot is free. -/
  evicted : Option SentPacket
  logicalPacketNumber : Nat

/-- Everything `retransmit_stream_packet_with_probe` checks before it reserves anything. -/
def planRepair (packetNumber pathId capacity : Nat)
    (allowProbeOverrun budgetedDuplicate : Bool) : Except Error (Option RepairPlan) :=
  if self.paths.length ≤ pathId then .error .pathLimit
  else
    match self.findSent packetNumber with
    | none => .ok none
    | some (index, sent) =>
      match self.peerConnectionIdOnPath pathId with
      | none => .error .wrongConnectionId
      | some peerCid =>
        if !sent.accepted then .ok none
        else if budgetedDuplicate ∧
          (pathId = sent.pathId ∨ self.peerMaxInFlightPackets ≤ self.inFlightPacketCount
            ∨ !(self.pathAt pathId).isUsableForData) then .ok none
        else
          match sent.sendBufferSlot with
          | none => .ok none
          | some rangeSlot =>
            match self.rangeAt rangeSlot with
            | none => .error .invalid
            | some range =>
              if sent.dataDelivered ∧ (!sent.fin ∨ range.finAcked) then .ok none
              else do
                match ← repairFrame range with
                | none => .ok none
                | some frame =>
                  let slot :=
                    match self.freeTransmissionSlot with
                    | some slot => some (slot, none)
                    | none => if sent.lost then some (index, some sent) else none
                  match slot with
                  | none => .error .historyFull
                  | some (slot, evicted) =>
                    if u32Max ≤ self.nextPacketNumber then .error .packetNumberExhausted
                    else do
                      let packet ← Packet.start
                        ⟨flagFixed, peerCid, self.nextPacketNumber, self.nextPacketNumberLen⟩
                          capacity
                      let packet ← packet.push (.stream frame) capacity
                      let packet ← self.protect keys pathId packet capacity
                      if budgetedDuplicate ∧ self.duplicationBudgetAvailable <
                        packet.bytes.length then
                        .ok none
                      else if !allowProbeOverrun
                          ∧ !(self.pathAt pathId).congestion.canSend packet.bytes.length then
                            .ok none
                      else
                        .ok (some ⟨frame, packet, slot, rangeSlot, evicted,
                          range.logicalPacketNumber⟩)

/-- Enter a planned repair: the evicted record's lineage, the new transmission and its budget. -/
def commitRepair (pathId sendOrder : Nat) (windowLimited budgetedDuplicate : Bool)
    (plan : RepairPlan) : EndpointState P :=
  let packetNumber := self.nextPacketNumber
  let bytes := plan.packet.bytes.length
  let sent := { freshRecord packetNumber pathId sendOrder bytes (self.pathAt pathId).sendClock
    windowLimited with
    streamId := plan.frame.id
    offset := plan.frame.offset
    dataLen := plan.frame.data.length
    fin := plan.frame.fin
    sendBufferSlot := some plan.rangeSlot
    logicalPacketNumber := plan.logicalPacketNumber
    duplicationCharge := if budgetedDuplicate then bytes else 0 }
  let self := { self with
    nextPacketNumber := packetNumber + 1
    sendBuffer :=
      match plan.evicted with
      | some old => self.sendBuffer.modify plan.rangeSlot (Option.map fun range =>
        range.addPriorPacket ⟨old.packetNumber, old.offset, old.dataLen, old.fin⟩)
      | none => self.sendBuffer
    duplicationReservedBytes :=
      if budgetedDuplicate then satAdd self.duplicationReservedBytes bytes
      else self.duplicationReservedBytes
    : EndpointState P }
  self.recordSent plan.slot sent

def retransmitStreamPacketWithProbe (packetNumber pathId capacity : Nat)
    (allowProbeOverrun budgetedDuplicate : Bool) :
    EndpointState P × Except Error (Option (Packet × Nat)) :=
  match self.planRepair keys packetNumber pathId capacity allowProbeOverrun budgetedDuplicate with
  | .error e => (self, .error e)
  | .ok none => (self, .ok none)
  | .ok (some plan) =>
    let bytes := plan.packet.bytes.length
    let path := self.pathAt pathId
    match if allowProbeOverrun then
      (path, true) else path.tryReservePacing bytes path.sendClock with
    | (path, false) => (self.setPath pathId path, .ok none)
    | (path, true) =>
      match if allowProbeOverrun then some (path.congestion.onRetransmissionSent bytes)
          else path.congestion.onPacketSent bytes with
      | none => (self.setPath pathId path, .ok none)
      | some congestion =>
        let path := { path with congestion := congestion }
        -- The window test follows the charge here.
        let windowLimited := path.congestion.windowLimited bytes
        match path.assignSendOrder with
        | .error e => (self.setPath pathId path, .error e)
        | .ok (path, sendOrder) =>
          ((self.setPath pathId path).commitRepair pathId sendOrder windowLimited
            budgetedDuplicate plan,
            .ok (some (plan.packet, self.nextPacketNumber)))

def retransmitStreamPacket (packetNumber capacity : Nat) :
    EndpointState P × Except Error (Option (Packet × Nat)) :=
  match self.findSent packetNumber with
  | none => (self, .ok none)
  | some (_, sent) =>
    self.retransmitStreamPacketWithProbe keys packetNumber sent.pathId capacity true false

def retransmitStreamPacketOnPath (packetNumber pathId capacity : Nat) :
    EndpointState P × Except Error (Option (Packet × Nat)) :=
  self.retransmitStreamPacketWithProbe keys packetNumber pathId capacity false false

def duplicateStreamPacketOnPath (packetNumber pathId capacity : Nat) :
    EndpointState P × Except Error (Option (Packet × Nat)) :=
  self.retransmitStreamPacketWithProbe keys packetNumber pathId capacity false true

/-! ## Repair of declared losses and probes -/

/-- `min_by_key`: the first element with the least key. -/
def minByKey {α : Type} (key : α → Nat) : List α → Option α
  | [] => none
  | a :: l => some (l.foldl (fun best b => if key b < key best then b else best) a)

def newerTransmissionCoversRetransmissionHead (packet : SentPacket) : Bool :=
  match packet.sendBufferSlot with
  | none => false
  | some rangeSlot =>
    match self.rangeAt rangeSlot with
    | none => false
    | some range =>
      let newer := self.records.filter fun newer =>
        newer.sendBufferSlot == some rangeSlot && packet.packetNumber < newer.packetNumber
          && newer.accepted && !newer.lost
      match range.firstUnacknowledgedRun with
      | none =>
        let finOffset := satAdd range.offset range.dataLen
        range.fin && !range.finAcked
          && newer.any fun newer => newer.fin && satAdd newer.offset newer.dataLen == finOffset
      | some (start, _) =>
        let headOffset := satAdd range.offset start
        newer.any fun newer =>
          newer.offset ≤ headOffset && headOffset < satAdd newer.offset newer.dataLen

/-- The range of a record has something left to send. -/
def isRepairable (packet : SentPacket) : Bool :=
  (packet.sendBufferSlot.bind self.rangeAt).any fun range =>
    range.hasPayload || (range.fin && !range.finAcked)

def markedLossCandidate : Option SentPacket :=
  minByKey (·.sentAt) (self.records.filter fun packet =>
    packet.lost && packet.accepted && (!packet.dataDelivered || packet.fin)
      && !self.newerTransmissionCoversRetransmissionHead packet && self.isRepairable packet)

/-- Usable paths, other paths first, then by round-trip time. -/
def repairPaths (sourcePath : Nat) : List Nat :=
  let keys := (List.range self.paths.length).filterMap fun pathId =>
    let path := self.pathAt pathId
    if !path.isUsableForData || (self.peerConnectionIdOnPath pathId).isNone then none
    else some ((pathId == sourcePath).toNat, min (path.rtt.smoothedRtt.getD 500000) u32Max, pathId)
  let le := fun a b : Nat × Nat × Nat =>
    a.1 < b.1 ∨ (a.1 = b.1 ∧ (a.2.1 < b.2.1 ∨ (a.2.1 = b.2.1 ∧ a.2.2 ≤ b.2.2)))
  (keys.insertionSort le).map (·.2.2)

/-- Try the paths in order until one sends. -/
def retransmitOnFirst (keys : Keys) (packetNumber capacity : Nat) :
    List Nat → EndpointState P → EndpointState P × Except Error (Option (Packet × Nat))
  | [], self => (self, .ok none)
  | pathId :: rest, self =>
    match self.retransmitStreamPacketWithProbe keys packetNumber pathId capacity false false with
    | (self, .ok none) => retransmitOnFirst keys packetNumber capacity rest self
    | outcome => outcome

variable (self : EndpointState P) (keys : Keys)

def retransmitMarkedLoss (capacity : Nat) :
    EndpointState P × Except Error (Option (Packet × Nat)) :=
  match self.markedLossCandidate with
  | none => (self, .ok none)
  | some packet =>
    retransmitOnFirst keys packet.packetNumber capacity (self.repairPaths packet.pathId) self

/-- A probe was sent for this path: its interval doubles. -/
def notePtoProbe (pathId now : Nat) : EndpointState P :=
  self.modifyPath pathId fun path =>
    { path with
      lastPtoProbeAt := some now, ptoBackoff := min (path.ptoBackoff + 1) maxPtoBackoffExponent }

def ptoInterval (pathId : Nat) (path : PathState) : Nat :=
  satMul (self.ptoTimeoutForPath pathId) (2 ^ min path.ptoBackoff maxPtoBackoffExponent)

/-- The first path whose flight is due for a probe. -/
def probePath (now : Nat) : Option Nat :=
  (List.range self.paths.length).find? fun pathId =>
    let path := self.pathAt pathId
    let flight := self.records.filter fun packet => packet.pathId == pathId && packet.accepted &&
      !packet.lost
    match (flight.map (·.sentAt)).min? with
    | none => false
    | some oldest => satAdd (path.lastPtoProbeAt.getD oldest) (self.ptoInterval pathId path) ≤ now

def probeDeliveredFlight (now capacity : Nat) :
    EndpointState P × Except Error (Option (Packet × Nat)) :=
  match self.probePath now with
  | none => (self, .ok none)
  | some pathId =>
    match self.peerConnectionIdOnPath pathId with
    | none => (self, .ok none)
    | some destination =>
      let packetNumber := self.nextPacketNumber
      match self.encodePathControlPacketInner keys pathId destination .ping capacity true with
      | (self, .error e) => (self, .error e)
      | (self, .ok packet) => (self.notePtoProbe pathId now, .ok (some (packet, packetNumber)))

def ptoCandidate (now : Nat) : Option SentPacket :=
  minByKey (·.sentAt) (self.records.filter fun packet =>
    let path := self.pathAt packet.pathId
    !packet.lost && packet.accepted && (!packet.dataDelivered || packet.fin)
      && self.ptoTimeoutForPath packet.pathId ≤ now - packet.sentAt
      && (path.lastPtoProbeAt.all fun last => self.ptoInterval packet.pathId path ≤ now - last)
      && self.isRepairable packet)

/-- The cheapest other path, or the packet's own. -/
def probeEgress (sourcePath : Nat) : Nat :=
  (minByKey (fun pathId => (self.pathAt pathId).measuredSendCostUs)
    ((List.range self.paths.length).filter fun pathId =>
      pathId != sourcePath && (self.pathAt pathId).isUsableForData
        && (self.peerConnectionIdOnPath pathId).isSome)).getD sourcePath

def retransmitPtoProbe (now capacity : Nat) :
    EndpointState P × Except Error (Option (Packet × Nat)) :=
  match self.ptoCandidate now with
  | none => self.probeDeliveredFlight keys now capacity
  | some packet =>
    let sourcePath := ((self.findSent packet.packetNumber).map (·.2.pathId)).getD 0
    match self.retransmitStreamPacketWithProbe keys packet.packetNumber
      (self.probeEgress sourcePath)
      capacity true false with
    | (self, .ok (some sent)) => (self.notePtoProbe sourcePath now, .ok (some sent))
    | outcome => outcome

/-- The loop of `retransmit_due` over the paths. -/
def detectDueLosses : EndpointState P :=
  (List.range self.paths.length).foldl (fun self pathId =>
    self.detectAckLosses pathId (self.pathAt pathId).largestAckedSendOrder) self

/-- Detect losses on every path, repair one of them, or probe. -/
def retransmitDue (now capacity : Nat) : EndpointState P × Except Error (Option (Packet × Nat)) :=
  let self := (self.setTime now).detectDueLosses
  match self.retransmitMarkedLoss keys capacity with
  | (self, .ok none) => self.retransmitPtoProbe keys now capacity
  | outcome => outcome

end EndpointState

end QuicLite
