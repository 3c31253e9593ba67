import QuicLite.Relay.Listener
import QuicLite.Relay.Router

/-!
# Two ways to forward a packet

A relay forwards a short packet in one of two ways. `receivePacket` copies it into a fresh slot of
the pool, with the new destination. `receiveOwnedPacket` rewrites the received slot itself where its
layout and uniqueness permit it, and else hands it to `receivePacket`. Lookup, lease, reserve, quota
and renewal are written out in both, in different orders. This module shows that a peer cannot tell
which one was taken.

What the node does with packets that are not forwarded is left to `Host`.
-/

namespace QuicLite

open List DcidRegistry Prod

/-! ## Control packets -/

variable {input : Bytes} {Endpoint NextHop : Type} {nowUs : Nat}

/-- Frames that a packet of control frames may also hold. -/
def Frame.isFiller : Frame → Bool
  | .padding | .ping => true
  | _ => false

/-- Frames that make it one. -/
def Frame.isPriorityControl : Frame → Bool
  | .ack .. | .ackRanges .. | .ackFrequency .. | .maxData _ | .maxStreamData .. | .maxStreamsBidi _
    | .maxStreamsUni _
  | .close _ | .pathJoin .. | .pathJoinAck .. | .pathChallenge _ | .pathResponse _
  | .pathStatus .. => true
  | _ => false

/-- The loop over the frames: no frame is empty, so there are at most as many as bytes. -/
def scanControl : Nat → Bytes → Bool → Bool
  | _, [], hasPriorityControl => hasPriorityControl
  | 0, _ :: _, _ => false
  | fuel + 1, first :: rest, hasPriorityControl =>
    match decodeFrame (first :: rest) with
    | .error _ => false
    | .ok (frame, used) =>
      if used = 0 then false
      else if frame.isFiller then scanControl fuel ((first :: rest).drop used) hasPriorityControl
      else if frame.isPriorityControl then scanControl fuel ((first :: rest).drop used) true
      else false

def isControlOnlyPacket (input : Bytes) : Bool :=
  match ShortHeader.decode input with
  | .error _ => false
  | .ok (_, headerLen) => scanControl input.length (input.drop headerLen) false

/-! ## The pool -/

def packetPrefixReserve : Nat := 80
def packetSuffixReserve : Nat := 24

/-- A slot that is being written: the room for the packet, and the lease on what was written. -/
structure PacketWriter (B : Type) [PacketBuffer B] where
  payloadLen : Nat
  commit : Bytes → Option (OwnedPacket B)

structure PacketPool (B : Type) [PacketBuffer B] where
  available : Nat
  acquireWriter : Nat → Nat → Option (PacketWriter B)

inductive QuicNodeEgressError where
  | transport (error : Error)
  | poolUnavailable
  | invalidPoolLayout

namespace OwnedPacket

variable {B : Type} [PacketBuffer B]

def prefixCapacity (packet : OwnedPacket B) : Nat := packet.start

def suffixCapacity (packet : OwnedPacket B) : Nat :=
  (PacketBuffer.asRef packet.buffer).length - packet.stop

end OwnedPacket

/-- `QuicNode::build_packet`; `serialize` is told how much room there is. -/
def buildPacket {B : Type} [PacketBuffer B] (pool : PacketPool B) (maxPacket : Nat)
    (serialize : Nat → Except Error Bytes) : Except QuicNodeEgressError (OwnedPacket B) :=
  match pool.acquireWriter packetPrefixReserve 0 with
  | none => .error .poolUnavailable
  | some writer =>
    if writer.payloadLen < maxPacket + packetSuffixReserve then .error (.transport .bufferTooSmall)
    else
      match serialize maxPacket with
      | .error error => .error (.transport error)
      | .ok bytes =>
        match writer.commit bytes with
        | none => .error .invalidPoolLayout
        | some packet =>
          if packet.prefixCapacity < packetPrefixReserve ∨
            packet.suffixCapacity < packetSuffixReserve then
            .error .invalidPoolLayout
          else .ok packet

/-- What the node relies on: a free slot can be acquired, it has room for the largest packet with
its reserves, and what is committed is what was written, behind the headroom asked for. -/
structure PacketPool.Serves {B : Type} [PacketBuffer B] (pool : PacketPool B)
    (maxPacket : Nat) : Prop where
  acquires : ∀ reserved < pool.available, ∃ writer,
    pool.acquireWriter packetPrefixReserve reserved = some writer
  room : ∀ reserved writer, pool.acquireWriter packetPrefixReserve reserved = some writer →
    maxPacket + packetSuffixReserve ≤ writer.payloadLen
  commits : ∀ reserved writer, pool.acquireWriter packetPrefixReserve reserved = some writer →
    ∀ bytes : Bytes, bytes.length ≤ writer.payloadLen →
      ∃ packet, writer.commit bytes = some packet ∧
      packet.bytes = bytes ∧ packet.prefixCapacity = packetPrefixReserve ∧
      packet.suffixCapacity = writer.payloadLen - bytes.length

/-! ## The node -/

structure ForwardNextHop where
  bearer : UInt16
  peerL2Address : UInt64
  deriving DecidableEq

structure BearerInfo where
  prefixRequired : Nat
  suffixRequired : Nat

structure PacketMeta where
  bearer : UInt16
  peerL2Address : UInt64
  receivedAtUs : Nat

/-- The part of a node that forwarding reads and writes; `rest` is what it does not look into. -/
structure RelayNode (Endpoint Rest : Type) where
  router : DcidRegistry Endpoint ForwardNextHop
  clockUs : Nat
  relayControlPacketReserve : Nat
  bearers : UInt16 → Option BearerInfo
  rest : Rest

/-- The outcomes of a received packet. `elsewhere` is any outcome of a packet that is not
forwarded. -/
inductive NodeIngress (B Other : Type) [PacketBuffer B] where
  | forward (nextHop : ForwardNextHop) (packet : OwnedPacket B)
  | unknown (destination : ConnectionId) (packet : OwnedPacket B)
  | nonQuic (error : Error) (packet : OwnedPacket B)
  | rejected (reason : QuicNodeEgressError) (packet : OwnedPacket B)
  | elsewhere (outcome : Other)

inductive RouterTarget (Endpoint NextHop : Type) where
  | endpoint (value : Endpoint)
  | forward (rule : ForwardRule NextHop)
  | missing
  deriving DecidableEq

def DcidRegistry.target {Endpoint NextHop : Type} (self : DcidRegistry Endpoint NextHop)
    (input : Bytes) : Except Error (RouterTarget Endpoint NextHop) := do
  let dcid ← routingDcid input
  match self.find dcid with
  | .error _ => .ok .missing
  | .ok index =>
    match self.entries[index]? with
    | some (_, .endpoint endpoint) => .ok (.endpoint endpoint)
    | some (_, .forward rule) => .ok (.forward rule)
    | none => .ok .missing

/-- The rest of the node: its endpoints, and what becomes of packets that are not forwarded. Setting
the time of all endpoints twice is setting it once, and does not move their ids. -/
structure Host (Endpoint Rest B Other : Type) [PacketBuffer B] where
  setTime : Nat → Rest → Rest
  slotPathIdForCid : Rest → Endpoint → ConnectionId → Option Nat
  receiveEndpointPacket : RelayNode Endpoint Rest → Endpoint → Nat → PacketMeta → OwnedPacket B →
    RelayNode Endpoint Rest × Other
  receiveOwnedEndpoint : RelayNode Endpoint Rest → Endpoint → Nat → PacketMeta → OwnedPacket B →
    RelayNode Endpoint Rest × Other
  receiveMissing : RelayNode Endpoint Rest → Bool → ConnectionId → PacketMeta → OwnedPacket B →
    RelayNode Endpoint Rest × Other
  receiveSetup : RelayNode Endpoint Rest → PacketMeta → OwnedPacket B →
    RelayNode Endpoint Rest × Other
  setTime_setTime : ∀ nowUs rest, setTime nowUs (setTime nowUs rest) = setTime nowUs rest
  slotPathIdForCid_setTime : ∀ nowUs rest endpoint cid,
    slotPathIdForCid (setTime nowUs rest) endpoint cid = slotPathIdForCid rest endpoint cid

namespace Host

variable {Endpoint Rest B Other : Type} [PacketBuffer B] (host : Host Endpoint Rest B Other)
  (pool : PacketPool B) (maxPacket : Nat)

variable (node : RelayNode Endpoint Rest)

def advanceClock (nowUs : Nat) : RelayNode Endpoint Rest :=
  let clockUs := max node.clockUs nowUs
  { node with clockUs := clockUs, rest := host.setTime clockUs node.rest }

/-- An outcome that has nothing to do with forwarding. -/
def elsewhere (result : RelayNode Endpoint Rest × Other) :
    RelayNode Endpoint Rest × NodeIngress B Other :=
  (result.1, .elsewhere result.2)

/-! ## Copying -/

/-- `Target::Forward` of the copying path. `established` is false for bootstrap answers, which renew
no lease. -/
def forwardCopy (packet : OwnedPacket B) (destination : ConnectionId)
    (established : Bool) (rule : ForwardRule ForwardNextHop) :
    RelayNode Endpoint Rest × NodeIngress B Other :=
  match node.router.forwardLeaseActive packet.bytes node.clockUs with
  | (router, .error error) => ({ node with router := router }, .rejected (.transport error) packet)
  | (router, .ok false) => ({ node with router := router }, .unknown destination packet)
  | (router, .ok true) =>
    let node := { node with router := router }
    let controlPacket := isControlOnlyPacket packet.bytes
    if !controlPacket && decide (pool.available ≤ node.relayControlPacketReserve) then
      (node, .unknown destination packet)
    else
      let forwarded := buildPacket pool maxPacket fun capacity =>
        match rule.destination with
        | .connection dcid => rewriteDcid packet.bytes dcid capacity
        | .bootstrap => rewriteBootstrapDestination packet.bytes capacity
      match forwarded with
      | .error reason => (node, .rejected reason packet)
      | .ok forwarded =>
        match node.router.consumeForwardQuota destination controlPacket node.clockUs with
        | (router, false) => ({ node with router := router }, .unknown destination packet)
        | (router, true) =>
          let node := { node with router := router }
          if established then
            match node.router.refreshForwardLease packet.bytes node.clockUs with
            | (router, .error error) =>
              ({ node with router := router }, .rejected (.transport error) packet)
            | (router, .ok false) => ({ node with router := router }, .unknown destination packet)
            | (router, .ok true) =>
              ({ node with router := router }, .forward rule.nextHop forwarded)
          else (node, .forward rule.nextHop forwarded)

section

variable (info : PacketMeta)

/-- The last branch of `receive_packet_slow`: packets with a destination. -/
def route (packet : OwnedPacket B) (destination : ConnectionId)
    (established : Bool) : RelayNode Endpoint Rest × NodeIngress B Other :=
  match node.router.forwardLeaseActive packet.bytes node.clockUs with
  | (router, .error error) => ({ node with router := router }, .nonQuic error packet)
  | (router, .ok false) => ({ node with router := router }, .unknown destination packet)
  | (router, .ok true) =>
    let node := { node with router := router }
    match node.router.target packet.bytes with
    | .error error => (node, .nonQuic error packet)
    | .ok (.endpoint endpoint) =>
      match host.slotPathIdForCid node.rest endpoint destination with
      | none => (node, .nonQuic .wrongConnectionId packet)
      | some pathId => elsewhere (host.receiveEndpointPacket node endpoint pathId info packet)
    | .ok (.forward rule) => forwardCopy pool maxPacket node packet destination established rule
    | .ok .missing => elsewhere (host.receiveMissing node established destination info packet)

def receivePacketSlow (packet : OwnedPacket B) : RelayNode Endpoint Rest × NodeIngress B Other :=
  let node := host.advanceClock node info.receivedAtUs
  match classifyServerPacket packet.bytes with
  | .ok (.bootstrapAck destination) => host.route pool maxPacket node info packet destination false
  | .ok (.established destination) => host.route pool maxPacket node info packet destination true
  | _ => elsewhere (host.receiveSetup node info packet)

/-- The endpoint and path that `receive_packet` serves without the slow path. -/
def endpointPath (packet : OwnedPacket B) : Option (Endpoint × Nat) :=
  match classifyServerPacket packet.bytes with
  | .ok (.bootstrapAck destination) | .ok (.established destination) =>
    match node.router.target packet.bytes with
    | .ok (.endpoint endpoint) =>
      (host.slotPathIdForCid node.rest endpoint destination).map fun path => (endpoint, path)
    | _ => none
  | _ => none

def receivePacket (packet : OwnedPacket B) : RelayNode Endpoint Rest × NodeIngress B Other :=
  match host.endpointPath node packet with
  | some (endpoint, pathId) =>
    elsewhere (host.receiveEndpointPacket (host.advanceClock node info.receivedAtUs) endpoint pathId
      info packet)
  | none => host.receivePacketSlow pool maxPacket node info packet

/-! ## In place -/

/-- After the preflight. -/
def forwardInPlace (packet : OwnedPacket B) (destination outbound : ConnectionId)
    (prefixRequired : Nat) (rule : ForwardRule ForwardNextHop) :
    RelayNode Endpoint Rest × NodeIngress B Other :=
  match node.router.forwardLeaseActive packet.bytes node.clockUs with
  | (router, .error error) => ({ node with router := router }, .rejected (.transport error) packet)
  | (router, .ok false) => ({ node with router := router }, .unknown destination packet)
  | (router, .ok true) =>
    let node := { node with router := router }
    let control := isControlOnlyPacket packet.bytes
    -- equality leaves the reserve intact: no second slot is taken
    if !control && decide (pool.available < node.relayControlPacketReserve) then
      (node, .unknown destination packet)
    else
      match node.router.consumeForwardQuota destination control node.clockUs with
      | (router, false) => ({ node with router := router }, .unknown destination packet)
      | (router, true) =>
        let node := { node with router := router }
        match node.router.refreshForwardLease packet.bytes node.clockUs with
        | (router, .error error) =>
          ({ node with router := router }, .rejected (.transport error) packet)
        | (router, .ok false) => ({ node with router := router }, .unknown destination packet)
        | (router, .ok true) =>
          let node := { node with router := router }
          match rewriteDcidInPlace packet outbound prefixRequired maxPacket with
          | .error (error, packet) => (node, .rejected (.transport error) packet)
          | .ok packet => (node, .forward rule.nextHop packet)

/-- The attempt to forward the slot itself: the node and an outcome, or the node and the packet as
they are handed to `receivePacket`. -/
def attemptInPlace (packet : OwnedPacket B) :
    RelayNode Endpoint Rest × (OwnedPacket B ⊕ NodeIngress B Other) :=
  let node := host.advanceClock node info.receivedAtUs
  match classifyServerPacket packet.bytes with
  | .ok (.established destination) =>
    match node.router.target packet.bytes with
    | .ok (.forward rule) =>
      match rule.destination with
      | .bootstrap => (node, .inl packet)
      | .connection outbound =>
        let bearer := node.bearers rule.nextHop.bearer
        let prefixRequired := (bearer.map BearerInfo.prefixRequired).getD packetPrefixReserve
        let suffixRequired := (bearer.map BearerInfo.suffixRequired).getD packetSuffixReserve
        if !(dcidRewriteLayout packet outbound prefixRequired maxPacket).isOk
            || decide (packet.suffixCapacity < suffixRequired)
            || (PacketBuffer.asMutUnique packet.buffer).isNone then (node, .inl packet)
        else
          let (node, outcome) := forwardInPlace pool maxPacket node packet destination outbound
            prefixRequired rule
          (node, .inr outcome)
    | .ok (.endpoint endpoint) =>
      match host.slotPathIdForCid node.rest endpoint destination with
      | some pathId =>
        let (node, outcome) := host.receiveOwnedEndpoint node endpoint pathId info packet
        (node, .inr (.elsewhere outcome))
      | none => (node, .inl packet)
    | _ => (node, .inl packet)
  | _ => (node, .inl packet)

def receiveOwnedPacket (packet : OwnedPacket B) : RelayNode Endpoint Rest × NodeIngress B Other :=
  match host.attemptInPlace pool maxPacket node info packet with
  | (node, .inl packet) => host.receivePacket pool maxPacket node info packet
  | (node, .inr outcome) => (node, outcome)

end

end Host

/-! ## Agreement -/

/-- Two outcomes that a peer cannot tell apart: the same bytes to the same next hop, or the same
refusal of the same packet. -/
inductive SameOutcome {B Other : Type} [PacketBuffer B] :
    NodeIngress B Other → NodeIngress B Other → Prop where
  | forward {nextHop : ForwardNextHop} {packet packet' : OwnedPacket B}
      (h : packet.bytes = packet'.bytes) :
      SameOutcome (.forward nextHop packet) (.forward nextHop packet')
  | same (outcome : NodeIngress B Other) : SameOutcome outcome outcome

theorem DcidRegistry.forwardLeaseActive_true {self after : DcidRegistry Endpoint NextHop}
    (h : self.forwardLeaseActive input nowUs = (after, .ok true)) : after = self := by
  unfold forwardLeaseActive at h
  split at h
  · cases h
  split at h
  · cases h
    rfl
  split at h
  · cases h
    rfl
  split at h
  · cases h
  · cases h

/-- A packet that is routed has a destination, so its lease can be looked up. -/
theorem DcidRegistry.forwardLeaseActive_of_target {self : DcidRegistry Endpoint NextHop}
    {target : RouterTarget Endpoint NextHop} (h : self.target input = .ok target) (nowUs : Nat) :
    ∃ after active, self.forwardLeaseActive input nowUs = (after, .ok active) := by
  obtain ⟨dcid, hdcid, -⟩ := bind_eq_ok.mp h
  unfold forwardLeaseActive
  rw [hdcid]
  simp only
  split
  · exact ⟨_, _, rfl⟩
  split
  · exact ⟨_, _, rfl⟩
  split
  · exact ⟨_, _, rfl⟩
  · exact ⟨_, _, rfl⟩

/-- With a slot to write to, the copy is the rewritten packet. -/
theorem buildPacket_eq_ok {B : Type} [PacketBuffer B] {pool : PacketPool B} {maxPacket : Nat}
    (hserves : pool.Serves maxPacket) (havailable : 0 < pool.available)
    {serialize : Nat → Except Error Bytes} {bytes : Bytes}
    (hserialize : serialize maxPacket = .ok bytes) (hlength : bytes.length ≤ maxPacket) :
    ∃ packet, buildPacket pool maxPacket serialize = .ok packet ∧ packet.bytes = bytes := by
  obtain ⟨writer, hwriter⟩ := hserves.acquires 0 havailable
  have hroom := hserves.room 0 writer hwriter
  obtain ⟨packet, hcommit, hbytes, hprefix, hsuffix⟩ :=
    hserves.commits 0 writer hwriter bytes (by omega)
  refine ⟨packet, ?_, hbytes⟩
  unfold buildPacket
  rw [hwriter]
  simp only [hserialize, hcommit]
  rw [if_neg (by omega), if_neg (by omega)]

namespace Host

variable {Endpoint Rest B Other : Type} [PacketBuffer B] (host : Host Endpoint Rest B Other)
  {pool : PacketPool B} {maxPacket : Nat}

theorem advanceClock_advanceClock (node : RelayNode Endpoint Rest) (nowUs : Nat) :
    host.advanceClock (host.advanceClock node nowUs) nowUs = host.advanceClock node nowUs := by
  have hclock : max (max node.clockUs nowUs) nowUs = max node.clockUs nowUs := by
    rw [max_assoc, max_self]
  simp only [advanceClock, hclock, host.setTime_setTime]

/-- The clock may be set before: the packet is received at the same time. -/
theorem receivePacket_advanceClock (node : RelayNode Endpoint Rest) (info : PacketMeta)
    (packet : OwnedPacket B) :
    host.receivePacket pool maxPacket (host.advanceClock node info.receivedAtUs) info packet =
      host.receivePacket pool maxPacket node info packet := by
  have hpath : host.endpointPath (host.advanceClock node info.receivedAtUs) packet =
      host.endpointPath node packet := by
    simp only [endpointPath, advanceClock, host.slotPathIdForCid_setTime]
  simp only [receivePacket, receivePacketSlow, hpath, host.advanceClock_advanceClock]

variable {node : RelayNode Endpoint Rest} {packet : OwnedPacket B}

section

variable {after : RelayNode Endpoint Rest} {info : PacketMeta} {back : OwnedPacket B}
  (h : host.attemptInPlace pool maxPacket node info packet = (after, .inl back))
include h

/-- An attempt that hands the packet back has set the clock, as the copying path does first, and
nothing else. -/
theorem attemptInPlace_fallback :
    after = host.advanceClock node info.receivedAtUs ∧ back = packet := by
  unfold attemptInPlace at h
  extract_lets advanced at h
  have hback : ∀ {result : RelayNode Endpoint Rest × (OwnedPacket B ⊕ NodeIngress B Other)},
      result = (advanced, .inl packet) → result = (after, .inl back) →
        after = advanced ∧ back = packet := by
    rintro _ rfl h
    obtain ⟨hnode, hpacket⟩ := Prod.mk.inj h
    exact ⟨hnode.symm, (Sum.inl.inj hpacket).symm⟩
  split at h
  · split at h
    · split at h
      · exact hback rfl h
      extract_lets bearer prefixRequired suffixRequired at h
      split at h
      · exact hback rfl h
      · cases h
    · split at h
      · cases h
      · exact hback rfl h
    · exact hback rfl h
  · exact hback rfl h

theorem receiveOwnedPacket_of_fallback :
    host.receiveOwnedPacket pool maxPacket node info packet = host.receivePacket pool maxPacket node
      info packet := by
  obtain ⟨rfl, rfl⟩ := host.attemptInPlace_fallback h
  unfold receiveOwnedPacket
  rw [h]
  exact host.receivePacket_advanceClock node info back

end

variable {rule : ForwardRule ForwardNextHop}

/-- The two forms of a packet that is rewritten, from the first lookup on. -/
theorem forwardInPlace_agrees (hserves : pool.Serves maxPacket) (info : PacketMeta)
    (destination : ConnectionId) {outbound : ConnectionId} {prefixRequired : Nat}
    (htarget : node.router.target packet.bytes = .ok (.forward rule))
    (houtbound : rule.destination = .connection outbound)
    (hfree : node.relayControlPacketReserve < pool.available) {short : ShortHeaderPrefix}
    (hlayout : Relocatable packet outbound prefixRequired maxPacket short) {write : Bytes → B}
    (hwrite : PacketBuffer.asMutUnique packet.buffer = some write) :
    let fast : RelayNode Endpoint Rest × NodeIngress B Other :=
      forwardInPlace pool maxPacket node packet destination outbound prefixRequired rule
    let slow := host.route pool maxPacket node info packet destination true
    fast.1 = slow.1 ∧ SameOutcome fast.2 slow.2 := by
  obtain ⟨rewritten, hrewritten, hstart, hstop, hcopy⟩ := rewriteDcidInPlace_accepts hlayout hwrite
  have hfits : rewritten.bytes.length ≤ maxPacket := by
    have hsize := hlayout.size
    have hshort := decodePrefix_length hlayout.decoded
    rw [OwnedPacket.length_bytes] at hsize hshort ⊢
    omega
  obtain ⟨forwarded, hbuilt, hbytes⟩ : ∃ forwarded, buildPacket pool maxPacket (fun capacity =>
      match rule.destination with
      | .connection dcid => rewriteDcid packet.bytes dcid capacity
      | .bootstrap => rewriteBootstrapDestination packet.bytes capacity) = .ok forwarded ∧
        forwarded.bytes = rewritten.bytes := by
    apply buildPacket_eq_ok hserves (by omega) _ hfits
    rw [houtbound]
    exact hcopy maxPacket hfits
  obtain ⟨router, active, hlease⟩ := forwardLeaseActive_of_target htarget node.clockUs
  intro fast slow
  simp only [fast, slow, forwardInPlace, route, hlease]
  cases active with
  | false => exact ⟨rfl, .same _⟩
  | true =>
  obtain rfl := forwardLeaseActive_true hlease
  simp only [htarget, forwardCopy, hlease, hbuilt]
  have hslow : ¬pool.available ≤ node.relayControlPacketReserve := by omega
  have hfast : ¬pool.available < node.relayControlPacketReserve := by omega
  simp only [hslow, hfast, decide_false, Bool.and_false, Bool.false_eq_true, if_false]
  obtain ⟨charged, granted, hquota⟩ : ∃ charged granted,
      node.router.consumeForwardQuota destination
      (isControlOnlyPacket packet.bytes) node.clockUs = (charged, granted) := ⟨_, _, rfl⟩
  simp only [hquota]
  cases granted with
  | false => exact ⟨rfl, .same _⟩
  | true =>
    simp only
    split
    · exact ⟨rfl, .same _⟩
    · exact ⟨rfl, .same _⟩
    · rw [hrewritten]
      exact ⟨rfl, .forward hbytes.symm⟩

variable (info : PacketMeta)

/-- A packet for a forward rule does not reach an endpoint. -/
theorem receivePacket_of_forward (htarget : node.router.target packet.bytes = .ok (.forward rule)) :
    host.receivePacket pool maxPacket node info packet = host.receivePacketSlow pool maxPacket node
      info packet := by
  have hpath : host.endpointPath node packet = none := by
    unfold endpointPath
    split
    · simp only [htarget]
    · simp only [htarget]
    · rfl
  rw [receivePacket, hpath]

/-- Either the attempt falls back, or it forwards a packet that it can rewrite. -/
theorem attemptInPlace_cases {info : PacketMeta}
    (htarget : node.router.target packet.bytes = .ok (.forward rule)) :
    (∃ after back, host.attemptInPlace pool maxPacket node info packet = (after, .inl back)) ∨
      ∃ destination outbound prefixRequired short write,
        classifyServerPacket packet.bytes = .ok (.established destination) ∧
          rule.destination = .connection outbound ∧
        Relocatable packet outbound prefixRequired maxPacket short ∧
        PacketBuffer.asMutUnique packet.buffer = some write ∧
        host.receiveOwnedPacket pool maxPacket node info packet =
          forwardInPlace pool maxPacket (host.advanceClock node info.receivedAtUs)
            packet destination outbound
            prefixRequired rule := by
  cases hattempt : host.attemptInPlace pool maxPacket node info packet with
  | mk after result =>
  cases result with
  | inl back => exact .inl ⟨after, back, rfl⟩
  | inr outcome =>
  right
  have howned : host.receiveOwnedPacket pool maxPacket node info packet = (after, outcome) := by
    rw [receiveOwnedPacket, hattempt]
  have hadvanced : (host.advanceClock node info.receivedAtUs).router.target packet.bytes =
      .ok (.forward rule) :=
    htarget
  unfold attemptInPlace at hattempt
  generalize host.advanceClock node info.receivedAtUs = advanced at hattempt hadvanced ⊢
  split at hattempt
  · rename_i destination hclass
    simp only [hadvanced] at hattempt
    split at hattempt
    · cases hattempt
    rename_i outbound houtbound
    generalize ((advanced.bearers rule.nextHop.bearer).map BearerInfo.prefixRequired).getD
      packetPrefixReserve =
      prefixRequired at hattempt
    split at hattempt
    · cases hattempt
    rename_i hpreflight
    simp only [Bool.or_eq_true, not_or, Bool.not_eq_true, Option.isNone_eq_false_iff]
      at hpreflight
    obtain ⟨⟨hlayout, -⟩, hunique⟩ := hpreflight
    obtain ⟨write, hwrite⟩ := Option.isSome_iff_exists.mp hunique
    cases hok : dcidRewriteLayout packet outbound prefixRequired maxPacket with
    | error e =>
      rw [hok] at hlayout
      cases hlayout
    | ok layout =>
      obtain ⟨short, hrelocatable, -⟩ := dcidRewriteLayout_eq_ok.mp hok
      refine ⟨destination, outbound, prefixRequired, short, write, hclass, houtbound,
        hrelocatable, hwrite, ?_⟩
      rw [howned]
      obtain ⟨hnode, houtcome⟩ := Prod.mk.inj hattempt
      exact Prod.ext hnode.symm (Sum.inr.inj houtcome).symm
  · cases hattempt

theorem receivePaths_agree (hserves : pool.Serves maxPacket) (info : PacketMeta)
    (htarget : node.router.target packet.bytes = .ok (.forward rule))
    (hfree : node.relayControlPacketReserve < pool.available) :
    (host.receiveOwnedPacket pool maxPacket node info packet).1 =
      (host.receivePacket pool maxPacket node info packet).1 ∧
      SameOutcome (host.receiveOwnedPacket pool maxPacket node info packet).2
        (host.receivePacket pool maxPacket node info packet).2 := by
  rcases host.attemptInPlace_cases htarget with
    ⟨after, back, hback⟩ | ⟨destination, outbound, prefixRequired, short, write, hclass, houtbound,
      hlayout, hwrite, howned⟩
  · rw [host.receiveOwnedPacket_of_fallback hback]
    exact ⟨rfl, .same _⟩
  · rw [howned, host.receivePacket_of_forward info htarget, receivePacketSlow, hclass]
    exact host.forwardInPlace_agrees hserves info destination htarget houtbound hfree hlayout hwrite

/-! ## One charge -/

/-- What may happen to the router: the lease is looked up, and at most one packet is charged and
renews it. -/
def ChargedOnce (router after : DcidRegistry Endpoint ForwardNextHop) (destination : ConnectionId)
    (input : Bytes) (nowUs : Nat) : Prop :=
  let charged := (router.consumeForwardQuota destination (isControlOnlyPacket input) nowUs).1
  after = (router.forwardLeaseActive input nowUs).1 ∨ after = charged ∨
    after = (charged.refreshForwardLease input nowUs).1

theorem forwardInPlace_charges (node : RelayNode Endpoint Rest) (packet : OwnedPacket B)
    (destination outbound : ConnectionId) (prefixRequired : Nat)
    (rule : ForwardRule ForwardNextHop) :
    ChargedOnce node.router (forwardInPlace pool maxPacket node packet destination outbound
      prefixRequired rule :
      RelayNode Endpoint Rest × NodeIngress B Other).1.router destination packet.bytes
        node.clockUs := by
  unfold forwardInPlace ChargedOnce
  extract_lets charged
  split
  · rename_i hlease
    exact .inl (by rw [hlease])
  · rename_i hlease
    exact .inl (by rw [hlease])
  rename_i router hlease
  obtain rfl := forwardLeaseActive_true hlease
  simp only
  split
  · exact .inl (by rw [hlease])
  split
  · rename_i hquota
    exact .inr (.inl (congrArg fst hquota).symm)
  rename_i router hquota
  have hcharged : charged = router := congrArg fst hquota
  rw [hcharged]
  split
  · rename_i hrefresh
    exact .inr (.inr (by simp only [hrefresh]))
  · rename_i hrefresh
    exact .inr (.inr (by simp only [hrefresh]))
  rename_i hrefresh
  right
  right
  split
  · simp only [hrefresh]
  · simp only [hrefresh]

theorem forwardCopy_charges (node : RelayNode Endpoint Rest) (packet : OwnedPacket B)
    (destination : ConnectionId) (established : Bool) (rule : ForwardRule ForwardNextHop) :
    ChargedOnce node.router (forwardCopy pool maxPacket node packet destination established rule :
      RelayNode Endpoint Rest × NodeIngress B Other).1.router destination packet.bytes
        node.clockUs := by
  unfold forwardCopy ChargedOnce
  extract_lets charged
  split
  · rename_i hlease
    exact .inl (by rw [hlease])
  · rename_i hlease
    exact .inl (by rw [hlease])
  rename_i router hlease
  obtain rfl := forwardLeaseActive_true hlease
  simp only
  split
  · exact .inl (by rw [hlease])
  rename_i controlPacket forwarded _ _
  cases forwarded with
  | error reason => exact .inl (by rw [hlease])
  | ok forwarded =>
  simp only
  split
  · rename_i hquota
    exact .inr (.inl (congrArg fst hquota).symm)
  rename_i router hquota
  have hcharged : charged = router := congrArg fst hquota
  rw [hcharged]
  split
  · right
    right
    split
    · rename_i hrefresh
      simp only [hrefresh]
    · rename_i hrefresh
      simp only [hrefresh]
    · rename_i hrefresh
      simp only [hrefresh]
  · exact .inr (.inl rfl)

section

variable (htarget : node.router.target packet.bytes = .ok (.forward rule))
    {destination : ConnectionId}
    (hclass : classifyServerPacket packet.bytes = .ok (.established destination))
include htarget hclass

theorem receivePacket_charges :
    ChargedOnce node.router (host.receivePacket pool maxPacket node info packet).1.router
      destination packet.bytes
      (max node.clockUs info.receivedAtUs) := by
  rw [host.receivePacket_of_forward info htarget, receivePacketSlow, hclass]
  obtain ⟨router, active, hlease⟩ :=
    forwardLeaseActive_of_target htarget (max node.clockUs info.receivedAtUs)
  simp only [route, advanceClock, hlease]
  cases active with
  | false => exact .inl (by rw [hlease])
  | true =>
    obtain rfl := forwardLeaseActive_true hlease
    simp only [htarget]
    exact forwardCopy_charges (host.advanceClock node info.receivedAtUs) packet destination
      true rule

theorem receiveOwnedPacket_charges :
    ChargedOnce node.router (host.receiveOwnedPacket pool maxPacket node info packet).1.router
      destination packet.bytes
      (max node.clockUs info.receivedAtUs) := by
  rcases host.attemptInPlace_cases htarget with
    ⟨after, back, hback⟩ | ⟨destination', outbound, prefixRequired, short, write,
      hclass', -, -, -, howned⟩
  · rw [host.receiveOwnedPacket_of_fallback hback]
    exact host.receivePacket_charges info htarget hclass
  obtain rfl : destination = destination' := by
    rw [hclass] at hclass'
    cases hclass'
    rfl
  rw [howned]
  exact forwardInPlace_charges (host.advanceClock node info.receivedAtUs) packet destination
    outbound prefixRequired rule

end

/-! ## Short of the reserve -/

/-- The lease of the rule that a packet is routed to. -/
theorem forwardLeaseActive_of_lease {router : DcidRegistry Endpoint ForwardNextHop}
    (htarget : router.target input = .ok (.forward rule)) (hlease : nowUs < rule.leaseExpiresAtUs) :
    router.forwardLeaseActive input nowUs = (router, .ok true) := by
  obtain ⟨dcid, hdcid, htarget⟩ := bind_eq_ok.mp htarget
  have hat : ∃ index, router.forwardAt dcid = some (index, rule) := by
    unfold forwardAt
    cases hfind : router.find dcid with
    | error index =>
      rw [hfind] at htarget
      cases htarget
    | ok index =>
    rw [hfind] at htarget
    simp only at htarget ⊢
    split at htarget
    · cases htarget
    · rename_i hentry
      cases htarget
      exact ⟨index, by simp only [hentry]⟩
    · cases htarget
  obtain ⟨index, hat⟩ := hat
  unfold forwardLeaseActive
  simp only [hdcid, hat]
  rw [if_pos hlease]

/-- A data packet that finds too few free slots is dropped by either way with nothing but the clock
changed. -/
theorem receiveOwnedPacket_short_of_reserve
    (htarget : node.router.target packet.bytes = .ok (.forward rule)) {destination : ConnectionId}
    (hclass : classifyServerPacket packet.bytes = .ok (.established destination))
    (hdata : isControlOnlyPacket packet.bytes = false)
    (hshort : pool.available < node.relayControlPacketReserve)
    (hlease : max node.clockUs info.receivedAtUs < rule.leaseExpiresAtUs) :
    host.receiveOwnedPacket pool maxPacket node info packet =
      (host.advanceClock node info.receivedAtUs, .unknown destination packet) := by
  have hactive := forwardLeaseActive_of_lease htarget hlease
  have hle : pool.available ≤ node.relayControlPacketReserve := Nat.le_of_lt hshort
  rcases host.attemptInPlace_cases htarget with
    ⟨after, back, hback⟩ | ⟨destination', outbound, prefixRequired, short, write,
      hclass', -, -, -, howned⟩
  · rw [host.receiveOwnedPacket_of_fallback hback, host.receivePacket_of_forward info htarget,
      receivePacketSlow, hclass]
    simp [route, forwardCopy, advanceClock, hactive, htarget, hdata, hle]
  obtain rfl : destination = destination' := by
    rw [hclass] at hclass'
    cases hclass'
    rfl
  rw [howned]
  simp [forwardInPlace, advanceClock, hactive, hdata, hshort]

/-! ## The two ways are one -/

/-- With buffers for both, the two ways leave the same node and the same outcome. An attempt that
falls back has changed nothing but the clock, which is set again to the same time, so that the
packet is received as if there had been no attempt. One short of the reserve changes nothing else
either, and no packet is charged twice. -/
theorem relaying_in_place_agrees (host : Host Endpoint Rest B Other) (pool : PacketPool B)
    (maxPacket : Nat) (node : RelayNode Endpoint Rest) (info : PacketMeta)
    (packet : OwnedPacket B) :
    (pool.Serves maxPacket → node.relayControlPacketReserve < pool.available →
      ∀ rule, node.router.target packet.bytes = .ok (.forward rule) →
        (host.receiveOwnedPacket pool maxPacket node info packet).1 =
            (host.receivePacket pool maxPacket node info packet).1 ∧
          SameOutcome (host.receiveOwnedPacket pool maxPacket node info packet).2
            (host.receivePacket pool maxPacket node info packet).2) ∧
    (∀ after back, host.attemptInPlace pool maxPacket node info packet = (after, .inl back) →
      back = packet ∧ after = host.advanceClock node info.receivedAtUs ∧
        host.receiveOwnedPacket pool maxPacket node info packet = host.receivePacket pool maxPacket
          node info packet) ∧
    ∀ rule destination, node.router.target packet.bytes = .ok (.forward rule) →
      classifyServerPacket packet.bytes = .ok (.established destination) →
      (isControlOnlyPacket packet.bytes = false → pool.available < node.relayControlPacketReserve →
        max node.clockUs info.receivedAtUs < rule.leaseExpiresAtUs →
          host.receiveOwnedPacket pool maxPacket node info packet =
            (host.advanceClock node info.receivedAtUs, .unknown destination packet)) ∧
      ChargedOnce node.router (host.receiveOwnedPacket pool maxPacket node info packet).1.router
        destination packet.bytes
        (max node.clockUs info.receivedAtUs) := by
  refine ⟨?_, ?_, ?_⟩
  · intro hserves hfree rule htarget
    exact host.receivePaths_agree hserves info htarget hfree
  · intro after back hattempt
    obtain ⟨hnode, hpacket⟩ := host.attemptInPlace_fallback hattempt
    exact ⟨hpacket, hnode, host.receiveOwnedPacket_of_fallback hattempt⟩
  intro rule destination htarget hclass
  refine ⟨?_, host.receiveOwnedPacket_charges info htarget hclass⟩
  intro hdata hshort hlease
  exact host.receiveOwnedPacket_short_of_reserve info htarget hclass hdata hshort hlease

/-! ## One relay -/

/-- A pool with one free slot. -/
def lonePool (size : Nat) : PacketPool Bytes where
  available := 1
  acquireWriter headroom reserved :=
    if reserved < 1 ∧ headroom ≤ size then
      some {
        payloadLen := size - headroom
        commit bytes := OwnedPacket.new
          (replicate headroom 0 ++ (bytes ++ replicate (size - headroom - bytes.length) 0))
          headroom (headroom + bytes.length) }
    else none

theorem lonePool_serves {size maxPacket : Nat}
    (h : packetPrefixReserve + maxPacket + packetSuffixReserve ≤ size) :
    (lonePool size).Serves maxPacket := by
  have hwriter : ∀ {reserved : Nat} {writer : PacketWriter Bytes},
      (lonePool size).acquireWriter packetPrefixReserve reserved = some writer →
      writer.payloadLen = size - packetPrefixReserve ∧ writer.commit = fun bytes => OwnedPacket.new
        (.replicate packetPrefixReserve 0 ++
          (bytes ++ replicate (size - packetPrefixReserve - bytes.length) 0))
        packetPrefixReserve (packetPrefixReserve + bytes.length) := by
    intro reserved writer hsome
    simp only [lonePool] at hsome
    split at hsome
    · cases hsome
      exact ⟨rfl, rfl⟩
    · cases hsome
  refine ⟨?_, ?_, ?_⟩
  · intro reserved hreserved
    simp only [lonePool] at hreserved ⊢
    rw [if_pos ⟨hreserved, by omega⟩]
    exact ⟨_, rfl⟩
  · intro reserved writer hsome
    rw [(hwriter hsome).1]
    omega
  intro reserved writer hsome bytes hlength
  obtain ⟨hroom, hcommit⟩ := hwriter hsome
  rw [hcommit]
  have hinside : packetPrefixReserve + bytes.length ≤ (PacketBuffer.asRef
      (.replicate packetPrefixReserve 0 ++
        (bytes ++ replicate (size - packetPrefixReserve - bytes.length) 0))).length := by
    simp only [PacketBuffer.asRef, id, length_append, length_replicate]
    omega
  refine ⟨_, dif_pos ⟨Nat.le_add_right _ _, hinside⟩, ?_, rfl, ?_⟩
  · simp only [OwnedPacket.bytes, PacketBuffer.asRef, id]
    rw [drop_left' (length_replicate ..), Nat.add_sub_cancel_left, take_left' rfl]
  · simp only [OwnedPacket.suffixCapacity, PacketBuffer.asRef, id, length_append, length_replicate]
    omega

/-- A node that only relays. -/
def relayOnly : Host Unit Unit Bytes Unit where
  setTime _ rest := rest
  slotPathIdForCid _ _ _ := none
  receiveEndpointPacket node _ _ _ _ := (node, ())
  receiveOwnedEndpoint node _ _ _ _ := (node, ())
  receiveMissing node _ _ _ _ := (node, ())
  receiveSetup node _ _ := (node, ())
  setTime_setTime _ _ := rfl
  slotPathIdForCid_setTime _ _ _ _ := rfl

/-- Id 5 is forwarded under a wider id, with a quota of two packets. -/
def wideningRule : ForwardRule ForwardNextHop where
  nextHop := ⟨1, 1⟩
  destination := .connection ⟨70000, by decide⟩
  leaseDurationUs := 100
  leaseExpiresAtUs := 100
  leaseGroupId := 0
  packetQuota := 2
  forwardedPackets := 0
  forwardedControlPackets := 0
  quotaWindowStartedUs := 0

/-- A short id. -/
def shortCid (value : Fin 128) : ConnectionId := ⟨value, by omega⟩

def wideningRelay : RelayNode Unit Unit where
  router := ⟨[(shortCid 5, .forward wideningRule)], 4⟩
  clockUs := 0
  relayControlPacketReserve := 0
  bearers _ := none
  rest := ()

/-- A packet for id 5 with room before and after it. -/
def receivedPacket : OwnedPacket Bytes where
  buffer := replicate 90 0 ++ ([0x40, 5, 9, 0x01] ++ replicate 26 0)
  start := 90
  stop := 94
  ordered := by decide
  inside := by decide

theorem widened_packet_agrees :
    wideningRelay.router.target receivedPacket.bytes = .ok (.forward wideningRule) ∧
      (relayOnly.receiveOwnedPacket (lonePool 120) 16 wideningRelay ⟨1, 1, 7⟩ receivedPacket).1 =
        (relayOnly.receivePacket (lonePool 120) 16 wideningRelay ⟨1, 1, 7⟩ receivedPacket).1 ∧
      SameOutcome (relayOnly.receiveOwnedPacket (lonePool 120) 16 wideningRelay ⟨1, 1, 7⟩
        receivedPacket).2
        (relayOnly.receivePacket (lonePool 120) 16 wideningRelay ⟨1, 1, 7⟩ receivedPacket).2 := by
  have htarget : wideningRelay.router.target receivedPacket.bytes =
      .ok (.forward wideningRule) := by decide +kernel
  exact ⟨htarget, (relaying_in_place_agrees relayOnly (lonePool 120) 16 wideningRelay ⟨1, 1, 7⟩
    receivedPacket).1 (lonePool_serves (by decide)) (by decide) wideningRule htarget⟩

end Host

end QuicLite
