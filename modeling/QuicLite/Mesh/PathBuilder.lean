import Mathlib.Data.List.Sort
import Mathlib.Algebra.Order.Ring.Nat

/-!
# Route selection from discovery

Discovery supplies candidate routes. The path builder keeps the fresh ones, opens circuits over the
cheapest, follows what becomes of the routes it opened, and holds a record of how often paths
through a relay succeeded or failed.

The runtime that performs a setup is a parameter: what it answers to the calls of one operation may
depend on how many calls came before. Two fields of the model are not in the code, and nothing but
the theorems looks at them: every tracked use has a serial number, and `counted` is the history of
the reputation table.
-/

namespace QuicLite.Mesh

def maxRelayPathHints : Nat := 64

def maxRelaysPerHint : Nat := 8

def maxRelayReputationEntries : Nat := 256

def maxTrackedRouteUses : Nat := 64

def defaultRelayHintTtlUs : Nat := 30000000

def maxRelayFailurePenaltyUs : Nat := 250000

def u32Max : Nat := 2 ^ 32 - 1

def u64Max : Nat := 2 ^ 64 - 1

/-- Eight bytes, as the big-endian number they are. -/
abbrev RelayId := UInt64

abbrev DestinationVip := UInt64

structure QuicAssociation where
  slot : Nat
  generation : Nat
  deriving DecidableEq, Repr

structure CircuitId where
  association : QuicAssociation
  localId : Nat
  deriving DecidableEq, Repr

inductive HintSource where
  | localDiscovery
  | directory
  | peerSupplied

inductive RouteMode where
  | layered
  | telescoping
  | vipRouted
  deriving DecidableEq, Repr

inductive RouteOwnership where
  | selfBuilt
  | peerBuilt
  | gatewayBuilt
  deriving DecidableEq, Repr

inductive CircuitStatus where
  | opening
  | probing
  | active
  | standby
  | suspended
  | failed
  | closed

structure RelayHop where
  addressKind : UInt8
  addressLen : UInt8
  address : List UInt8
  leaseUs : Nat
  packetQuota : Nat
  deriving DecidableEq, Repr

abbrev NearbyRelayHints := List (RelayId × RelayHop)

structure PacketMeta where
  bearer : Nat
  peerL2Address : Nat
  receivedAtUs : Nat

structure RouteEgress where
  bearer : Nat
  peerL2Address : Nat
  deriving DecidableEq, Repr

def RouteEgress.apply (self : RouteEgress) (_address : PacketMeta) (nowUs : Nat) : PacketMeta :=
  ⟨self.bearer, self.peerL2Address, nowUs⟩

structure RelayPathHint where
  destination : DestinationVip
  routeId : Nat
  observedAtUs : Nat
  ttlUs : Nat
  estimatedRttUs : Nat
  mode : RouteMode
  ownership : RouteOwnership
  source : HintSource
  egress : Option RouteEgress
  relayIds : List RelayId
  hops : List RelayHop

def RelayPathHint.isFreshAt (self : RelayPathHint) (nowUs : Nat) : Bool :=
  nowUs ≥ self.observedAtUs && nowUs - self.observedAtUs ≤ self.ttlUs

def RelayPathHint.sameRoute (self other : RelayPathHint) : Bool :=
  self.destination == other.destination && self.routeId == other.routeId &&
    self.mode == other.mode &&
    self.ownership == other.ownership && self.egress == other.egress &&
      self.relayIds == other.relayIds &&
      self.hops == other.hops

inductive HintError where
  | emptyRoute
  | tooManyHops
  | relayHopCountMismatch
  | duplicateRelay
  | invalidHopAddress
  | futureObservation
  | routeIdConflict
  | capacity

def validateHint (hint : RelayPathHint) : Except HintError Unit :=
  if hint.hops.isEmpty || hint.relayIds.isEmpty then .error .emptyRoute
  else if hint.hops.length > maxRelaysPerHint || hint.relayIds.length > maxRelaysPerHint then
    .error .tooManyHops
  else if hint.hops.length ≠ hint.relayIds.length then .error .relayHopCountMismatch
  else if ¬ hint.relayIds.Nodup then .error .duplicateRelay
  else if hint.hops.any fun hop =>
    hop.addressLen == 0 || hop.addressLen.toNat > hop.address.length then
    .error .invalidHopAddress
  else .ok ()

/-! ## Reputation -/

def satAdd (max a b : Nat) : Nat := min (a + b) max

def satMul (max a b : Nat) : Nat := min (a * b) max

structure RelayReputation where
  relayId : RelayId
  successfulPaths : Nat
  failedPaths : Nat
  deriving DecidableEq, Repr

def RelayReputation.failurePenaltyUs (self : RelayReputation) : Nat :=
  if self.failedPaths = 0 then 0
  else
    let attempts := satAdd u64Max self.successfulPaths self.failedPaths
    satMul u64Max self.failedPaths maxRelayFailurePenaltyUs / max attempts 1

/-- One more path through the relay. -/
def RelayReputation.count (self : RelayReputation) (succeeded : Bool) : RelayReputation :=
  if succeeded then { self with successfulPaths := satAdd u32Max self.successfulPaths 1 }
  else { self with failedPaths := satAdd u32Max self.failedPaths 1 }

/-! ## Requests and answers -/

structure RouteRequest where
  destination : DestinationVip
  preferredRouteId : Option Nat
  allowFallback : Bool
  avoidRouteId : Option Nat
  nowUs : Nat

inductive SelectionError where
  | noFreshRoute
  | preferredRouteUnavailable

structure SelectedRoute where
  routeId : Nat
  estimatedCostUs : Nat
  mode : RouteMode
  ownership : RouteOwnership

inductive CircuitBuildError (E : Type) where
  | selection (source : SelectionError)
  | unsupportedMode (route : SelectedRoute)
  | trackingCapacity
  | setup (route : SelectedRoute) (source : E)

/-- What a setup is asked for. -/
structure SetupCall where
  address : PacketMeta
  destinationVip : DestinationVip
  mode : RouteMode
  hops : List RelayHop
  nowUs : Nat

/-- The owner of the node, during one operation. -/
structure CircuitRuntime (A C E : Type) where
  quicAssociation : A → Option QuicAssociation
  quicCircuit : C → Option CircuitId
  createRelayed : Nat → SetupCall → NearbyRelayHints → Except E A
  joinRelayed : Nat → A → SetupCall → Except E C

structure RouteFailure where
  association : QuicAssociation
  circuit : Option CircuitId
  destination : DestinationVip
  associationRetired : Bool
  failedRoute : SelectedRoute
  replacement : Option SelectedRoute

inductive RouteEventOutcome where
  | ignored
  | circuitOpened
  | circuitHealthy (routeId : Nat)
  | circuitSuspended (routeId : Nat)
  | circuitClosed (routeId : Nat)
  | associationClosed (association : QuicAssociation)
  | failed (failure : RouteFailure)
  | ambiguousSetupFailure (association : QuicAssociation)
  | eventsDropped (count : Nat)

inductive RouteRecovery where
  | observed (outcome : RouteEventOutcome)
  | noReplacement (failure : RouteFailure)
  | created (failure : RouteFailure) (association : QuicAssociation) (route : SelectedRoute)
  | joined (failure : RouteFailure) (circuit : CircuitId) (route : SelectedRoute)

inductive AssociationEvent where
  | circuitOpened (association : QuicAssociation) (circuit : CircuitId)
  | circuitStatusChanged (association : QuicAssociation) (circuit : CircuitId)
      (status : CircuitStatus)
  | circuitClosed (association : QuicAssociation) (circuit : CircuitId)
  | closed (association : QuicAssociation) (code : Nat)
  | reset (association : QuicAssociation)
  | idleTimeout (association : QuicAssociation)
  | setupTimeout (association : QuicAssociation)
  | setupRejected (association : QuicAssociation) (circuit : Option CircuitId)
      (associationRetired : Bool) (code : Nat)
  | peerReturnPathHints (association : QuicAssociation) (hints : NearbyRelayHints)
  | eventsDropped (count : Nat)

/-- `serial` is not in the code. -/
structure RouteUse where
  serial : Nat
  association : QuicAssociation
  circuit : Option CircuitId
  associationCreate : Bool
  destination : DestinationVip
  routeId : Nat
  mode : RouteMode
  ownership : RouteOwnership
  estimatedCostUs : Nat
  relayIds : List RelayId
  healthy : Bool
  successRecorded : Bool
  failed : Bool

def RouteUse.selectedRoute (self : RouteUse) : SelectedRoute :=
  ⟨self.routeId, self.estimatedCostUs, self.mode, self.ownership⟩

def RouteUse.markHealthy (self : RouteUse) : RouteUse :=
  { self with healthy := true, successRecorded := true }

def RouteUse.markUnhealthy (self : RouteUse) : RouteUse := { self with healthy := false }

def RouteUse.markFailed (self : RouteUse) : RouteUse :=
  { self with healthy := false, failed := true }

/-- A path result that changed the reputation table: whose it was, and the tracked uses at that
moment. -/
structure Counted where
  use : RouteUse
  relayId : RelayId
  succeeded : Bool
  tracked : List RouteUse

/-- `nextSerial` and `counted` are not in the code. -/
structure PathBuilder where
  hints : List RelayPathHint
  reputation : List RelayReputation
  routeUses : List RouteUse
  hopCostUs : Nat
  nextSerial : Nat
  counted : List Counted

namespace PathBuilder

def new (hopCostUs : Nat) : PathBuilder := ⟨[], [], [], hopCostUs, 0, []⟩

/-! ## Hints -/

variable (self : PathBuilder)

def expireStale (nowUs : Nat) : PathBuilder :=
  { self with hints := self.hints.filter (·.isFreshAt nowUs) }

/-- The first hint that is the same route, replaced. -/
def replaceHint (hint : RelayPathHint) : List RelayPathHint → List RelayPathHint
  | [] => []
  | existing :: rest =>
    if existing.sameRoute hint then
      (if hint.observedAtUs ≥ existing.observedAtUs then hint else existing) :: rest
    else existing :: replaceHint hint rest

def mergeHint (hint : RelayPathHint) (nowUs : Nat) : PathBuilder × Except HintError Unit :=
  match validateHint hint with
  | .error e => (self, .error e)
  | .ok () =>
    if hint.observedAtUs > nowUs then (self, .error .futureObservation)
    else
      let self := self.expireStale nowUs
      let hint := { hint with ttlUs := min hint.ttlUs defaultRelayHintTtlUs }
      if self.hints.any fun entry =>
          entry.destination == hint.destination && entry.routeId == hint.routeId &&
            !entry.sameRoute hint then
        (self, .error .routeIdConflict)
      else if self.hints.any (·.sameRoute hint) then
        ({ self with hints := replaceHint hint self.hints }, .ok ())
      else if self.hints.length = maxRelayPathHints then (self, .error .capacity)
      else ({ self with hints := self.hints ++ [hint] }, .ok ())

def hint (destination : DestinationVip) (routeId : Nat) : Option RelayPathHint :=
  self.hints.find? fun hint => hint.destination == destination && hint.routeId == routeId

def findReputation (relayId : RelayId) : Option RelayReputation :=
  self.reputation.find? fun entry => entry.relayId == relayId

def estimatedCostUs (hint : RelayPathHint) : Nat :=
  let relayPenalty := hint.relayIds.foldl (fun total relayId =>
    satAdd u64Max total (((self.findReputation relayId).map RelayReputation.failurePenaltyUs).getD
      0)) 0
  satAdd u64Max (satAdd u64Max hint.estimatedRttUs (satMul u64Max self.hopCostUs hint.hops.length))
    relayPenalty

/-! ## Selection -/

/-- Cheaper routes first, and among equally cheap ones the lower number. -/
def notAfter (a b : SelectedRoute) : Prop :=
  a.estimatedCostUs < b.estimatedCostUs ∨
    (a.estimatedCostUs = b.estimatedCostUs ∧ a.routeId ≤ b.routeId)

instance : DecidableRel notAfter := fun _ _ => inferInstanceAs (Decidable (_ ∨ _))

/-- The preferred route moves to the front. -/
def prefer (candidates : List SelectedRoute) (preferred : Nat) : Option (List SelectedRoute) :=
  (candidates.find? (·.routeId == preferred)).map fun route =>
    route :: candidates.eraseP (·.routeId == preferred)

def candidateRoutes (request : RouteRequest) : Except SelectionError (List SelectedRoute) := do
  let usable := self.hints.filter fun hint =>
    hint.destination == request.destination && hint.isFreshAt request.nowUs &&
      request.avoidRouteId != some hint.routeId
  let candidates := (usable.map fun hint =>
    (⟨hint.routeId, self.estimatedCostUs hint, hint.mode, hint.ownership⟩ :
      SelectedRoute)).insertionSort notAfter
  let candidates ← match request.preferredRouteId with
    | none => pure candidates
    | some preferred =>
      match prefer candidates preferred with
      | some candidates => pure candidates
      | none => if request.allowFallback then pure candidates else throw .preferredRouteUnavailable
  let candidates := if request.allowFallback then candidates else candidates.take 1
  if candidates = [] then throw .noFreshRoute
  return candidates

def select (request : RouteRequest) :
    Except SelectionError SelectedRoute := do match ← self.candidateRoutes request with
  | [] => throw .noFreshRoute
  | first :: _ => return first

/-! ## Opening circuits -/

section Setup

variable {A C E α : Type}

/-- The address a candidate's setup leaves by. -/
def egressAddress (hint : RelayPathHint) (address : PacketMeta) (nowUs : Nat) : PacketMeta :=
  hint.egress.elim address fun egress => egress.apply address nowUs

/-- The candidates in order, until a setup succeeds. A candidate was read from the table, so its
hint is there. -/
def firstSetup (self : PathBuilder) (request : RouteRequest)
    (setup : Nat → RelayPathHint → SelectedRoute → Except E α) :
    Nat → List SelectedRoute → Option (SelectedRoute × E) → Option SelectedRoute →
      Except (CircuitBuildError E) (α × RelayPathHint × SelectedRoute)
  | _, [], some (route, source), _ => .error (.setup route source)
  | _, [], none, some route => .error (.unsupportedMode route)
  | _, [], none, none => .error (.selection .noFreshRoute)
  | calls, candidate :: rest, lastSetupError, unsupportedRoute =>
    match self.hint request.destination candidate.routeId with
    | none => firstSetup self request setup calls rest lastSetupError unsupportedRoute
    | some hint =>
      if candidate.mode == .telescoping && hint.hops.length != 1 then
        firstSetup self request setup calls rest lastSetupError (some candidate)
      else
        match setup calls hint candidate with
        | .ok handle => .ok (handle, hint, candidate)
        | .error source =>
          firstSetup self request setup (calls + 1) rest (some (candidate, source)) unsupportedRoute

def makeRouteUse (serial : Nat) (association : QuicAssociation) (circuit : Option CircuitId)
    (associationCreate : Bool) (hint : RelayPathHint) (selected : SelectedRoute) : RouteUse where
  serial := serial
  association := association
  circuit := circuit
  associationCreate := associationCreate
  destination := hint.destination
  routeId := hint.routeId
  mode := selected.mode
  ownership := hint.ownership
  estimatedCostUs := selected.estimatedCostUs
  relayIds := hint.relayIds
  healthy := false
  successRecorded := false
  failed := false

def track (self : PathBuilder) (association : QuicAssociation) (circuit : Option CircuitId)
    (associationCreate : Bool) (hint : RelayPathHint) (selected : SelectedRoute) : PathBuilder :=
  { self with
    routeUses := self.routeUses ++
      [makeRouteUse self.nextSerial association circuit associationCreate hint selected]
    nextSerial := self.nextSerial + 1 }

section

variable (self : PathBuilder) (runtime : CircuitRuntime A C E) (request : RouteRequest)

def create (address : PacketMeta)
    (returnHints : NearbyRelayHints) : PathBuilder × Except (CircuitBuildError E)
    (A × SelectedRoute) :=
  match self.candidateRoutes request with
  | .error e => (self, .error (.selection e))
  | .ok candidates =>
    if self.routeUses.length = maxTrackedRouteUses then (self, .error .trackingCapacity)
    else
      let setup calls (hint : RelayPathHint) (candidate : SelectedRoute) :=
        runtime.createRelayed calls
          ⟨egressAddress hint address request.nowUs, request.destination, candidate.mode, hint.hops,
            request.nowUs⟩
          returnHints
      match self.firstSetup request setup 0 candidates none none with
      | .error e => (self, .error e)
      | .ok (association, hint, candidate) =>
        (match runtime.quicAssociation association with
          | some handle => self.track handle none true hint candidate
          | none => self,
        .ok (association, candidate))

def join (association : A)
    (address : PacketMeta) : PathBuilder × Except (CircuitBuildError E) (C × SelectedRoute) :=
  match self.candidateRoutes request with
  | .error e => (self, .error (.selection e))
  | .ok candidates =>
    if self.routeUses.length = maxTrackedRouteUses then (self, .error .trackingCapacity)
    else
      let setup calls (hint : RelayPathHint) (candidate : SelectedRoute) :=
        runtime.joinRelayed calls association
          ⟨egressAddress hint address request.nowUs, request.destination, candidate.mode, hint.hops,
            request.nowUs⟩
      match self.firstSetup request setup 0 candidates none none with
      | .error e => (self, .error e)
      | .ok (circuit, hint, candidate) =>
        (match runtime.quicAssociation association, runtime.quicCircuit circuit with
          | some associationHandle, some circuitHandle =>
            self.track associationHandle (some circuitHandle) false hint candidate
          | _, _ => self,
        .ok (circuit, candidate))

end

end Setup

/-! ## Path results -/

variable (self : PathBuilder)

/-- Another use to the same destination is healthy and runs through the relay. -/
def sharedWithHealthyRoute (routeUse : RouteUse) (relayId : RelayId) : Bool :=
  self.routeUses.any fun other =>
    other.destination == routeUse.destination && other.ownership == .selfBuilt && other.healthy &&
      (other.association != routeUse.association || other.circuit != routeUse.circuit) &&
        other.relayIds.contains relayId

/-- The first entry of the relay, counted up. -/
def countIn (relayId : RelayId) (succeeded : Bool) : List RelayReputation → List RelayReputation
  | [] => []
  | entry :: rest =>
    if entry.relayId == relayId then entry.count succeeded :: rest
    else entry :: countIn relayId succeeded rest

def recordRelayResult (routeUse : RouteUse) (succeeded : Bool) (self : PathBuilder)
    (relayId : RelayId) : PathBuilder :=
  let counted := self.counted ++ [⟨routeUse, relayId, succeeded, self.routeUses⟩]
  if !succeeded && self.sharedWithHealthyRoute routeUse relayId then self
  else if self.reputation.any (·.relayId == relayId) then
    { self with reputation := countIn relayId succeeded self.reputation, counted := counted }
  else if self.reputation.length < maxRelayReputationEntries then
    { self with
      reputation := self.reputation ++
        [⟨relayId, if succeeded then 1 else 0, if succeeded then 0 else 1⟩]
      counted := counted }
  else self

def recordRouteUseResult (routeUse : RouteUse) (succeeded : Bool) : PathBuilder :=
  if routeUse.ownership ≠ .selfBuilt then self
  else routeUse.relayIds.foldl (recordRelayResult routeUse succeeded) self

/-! ## Events -/

/-- The table with `f` of the first use that `p` picks in its place. -/
def modifyFirst (p : RouteUse → Bool) (f : RouteUse → RouteUse) : List RouteUse → List RouteUse
  | [] => []
  | routeUse :: rest => if p routeUse then f routeUse :: rest else routeUse :: modifyFirst p f rest

def modifyUse (p : RouteUse → Bool) (f : RouteUse → RouteUse) : PathBuilder :=
  { self with routeUses := modifyFirst p f self.routeUses }

/-- `fail_route_use_with_lifecycle`, for the first use that `p` picks. -/
def failRouteUseWithLifecycle (p : RouteUse → Bool) (routeUse : RouteUse) (nowUs : Nat)
    (associationRetired : Bool) : PathBuilder × RouteEventOutcome :=
  if routeUse.failed then (self, .ignored)
  else
    let self := self.modifyUse p RouteUse.markFailed
    let self := self.recordRouteUseResult routeUse false
    let replacement := self.select ⟨routeUse.destination, none, true, some routeUse.routeId, nowUs⟩
    (self, .failed ⟨routeUse.association, routeUse.circuit, routeUse.destination,
      associationRetired, routeUse.selectedRoute, replacement.toOption⟩)

/-- A status of the circuit of a tracked use. -/
def circuitStatusChanged (circuit : CircuitId) (routeUse : RouteUse) (nowUs : Nat) :
    CircuitStatus → PathBuilder × RouteEventOutcome
  | .active | .standby =>
    let marked := self.modifyUse (·.circuit == some circuit) RouteUse.markHealthy
    (if !routeUse.successRecorded then
      marked.recordRouteUseResult routeUse.markHealthy true else marked,
      .circuitHealthy routeUse.routeId)
  | .suspended | .probing =>
    (self.modifyUse (·.circuit == some circuit) RouteUse.markUnhealthy,
      .circuitSuspended routeUse.routeId)
  | .failed => self.failRouteUseWithLifecycle (·.circuit == some circuit) routeUse nowUs false
  | .opening | .closed =>
    (self.modifyUse (·.circuit == some circuit) RouteUse.markUnhealthy, .ignored)

/-- A CREATE that is still pending. -/
def pendingCreate (association : QuicAssociation) (routeUse : RouteUse) : Bool :=
  routeUse.association == association && routeUse.associationCreate && !routeUse.failed

def observeEvent (event : AssociationEvent) (nowUs : Nat) : PathBuilder × RouteEventOutcome :=
  match event with
  | .circuitOpened association circuit =>
    let unopened (routeUse : RouteUse) : Bool :=
      routeUse.association == association && routeUse.circuit.isNone
    if self.routeUses.any unopened then
      (self.modifyUse unopened fun entry => { entry with circuit := some circuit }, .circuitOpened)
    else (self, .ignored)
  | .circuitStatusChanged _ circuit status =>
    match self.routeUses.find? (·.circuit == some circuit) with
    | none => (self, .ignored)
    | some routeUse => self.circuitStatusChanged circuit routeUse nowUs status
  | .circuitClosed _ circuit =>
    match self.routeUses.find? (·.circuit == some circuit) with
    | none => (self, .ignored)
    | some routeUse =>
      ({ self with routeUses := self.routeUses.eraseP (·.circuit == some circuit) },
        .circuitClosed routeUse.routeId)
  | .closed association _ | .reset association | .idleTimeout association =>
    ({ self with routeUses := self.routeUses.filter (·.association != association) },
      .associationClosed association)
  | .setupTimeout association =>
    match self.routeUses.filter (pendingCreate association) with
    | [] => (self, .ignored)
    | [routeUse] => self.failRouteUseWithLifecycle (pendingCreate association) routeUse nowUs true
    | _ => (self, .ambiguousSetupFailure association)
  | .setupRejected association circuit associationRetired _ =>
    let rejected : RouteUse → Bool :=
      circuit.elim (pendingCreate association) fun circuit routeUse =>
      routeUse.circuit == some circuit && !routeUse.failed
    match self.routeUses.find? rejected with
    | none => (self, .ignored)
    | some routeUse => self.failRouteUseWithLifecycle rejected routeUse nowUs associationRetired
  | .eventsDropped count => (self, .eventsDropped count)
  | .peerReturnPathHints _ _ => (self, .ignored)

/-- The event is observed, and a failed path replaced at once. -/
def recoverEvent {E : Type} (self : PathBuilder)
    (runtime : CircuitRuntime QuicAssociation CircuitId E) (event : AssociationEvent)
    (address : PacketMeta) (returnHints : NearbyRelayHints) (nowUs : Nat) :
    PathBuilder × Except (CircuitBuildError E) RouteRecovery :=
  let (self, outcome) := self.observeEvent event nowUs
  match outcome with
  | .failed failure =>
    match failure.replacement with
    | none => (self, .ok (.noReplacement failure))
    | some replacement =>
      let request : RouteRequest :=
        ⟨failure.destination, some replacement.routeId, true,
          some failure.failedRoute.routeId, nowUs⟩
      if failure.associationRetired then
        let (self, result) := self.create runtime request address returnHints
        (self, result.map fun (association, route) => .created failure association route)
      else
        let (self, result) := self.join runtime request failure.association address
        (self, result.map fun (circuit, route) => .joined failure circuit route)
  | outcome => (self, .ok (.observed outcome))

end PathBuilder

end QuicLite.Mesh
