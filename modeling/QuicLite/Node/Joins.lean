import QuicLite.Endpoint.State
import QuicLite.Relay.Router

/-!
# Circuits of an association

An association starts with one path and gains others by joins: direct ones, announced to the peer by
PATH_JOIN and answered by PATH_JOIN_ACK, and relayed ones, set up through relays. Each path receives
under a connection id of its own, so every join touches three places: the path list of the endpoint,
the slot's array of receive ids and the route table of the node. `close_circuit`, rejected setups
and setup timeouts undo all three.

Of an endpoint the model keeps what these functions read: its paths and the two ids it was installed
with. What the transport decides about a path on its own (whether it is validated, whether its
abandon status is still pending, whether a transmission record names it) is kept in `PathFlags`,
which a step of the transport may change in any way. Whether a packet could be built, memory
reserved or a setup transaction completed is an argument.
-/

namespace QuicLite

def maxPathJoinAttempts : Nat := 5

def defaultInitialPtoUs : Nat := 250000

def defaultSetupPendingTimeoutUs : Nat := 10000000

abbrev Address := Nat × Nat

/-- What the transport decides about a path. -/
structure PathFlags where
  validated : Bool
  locallyAbandoned : Bool
  /-- `pending_local_status.is_some()` -/
  statusPending : Bool
  /-- Some entry of `sent_packets` names the path. -/
  recorded : Bool
  ackPending : Bool
  knownAddresses : List Address
  activeAddress : Option Address

structure CircuitPath where
  localCid : Option ConnectionId
  peerCid : Option ConnectionId
  circuitKey : Option CircuitKey
  transactionId : Option Nat
  localCircuitId : Nat
  joinAttempts : Nat
  flags : PathFlags

namespace CircuitPath

def new (validated : Bool) : CircuitPath :=
  ⟨none, none, none, none, 0, 0, ⟨validated, false, false, false, false, [], none⟩⟩

variable (self : CircuitPath)

def setCircuit (key : CircuitKey) (transactionId localCircuitId : Nat) : CircuitPath :=
  { self with
    circuitKey := some key
    transactionId := some transactionId
    localCircuitId := localCircuitId
    joinAttempts := 1
    flags := { self.flags with validated := false } }

def rememberAddress (address : Address) : CircuitPath :=
  { self with
    flags := { self.flags with
      knownAddresses :=
        if self.flags.knownAddresses.head? = some address then self.flags.knownAddresses
        else (address :: self.flags.knownAddresses.erase address).take 4
      activeAddress := some address } }

def markValidated : CircuitPath := { self with flags := { self.flags with validated := true } }

def markUnvalidated : CircuitPath := { self with flags := { self.flags with validated := false } }

def recordJoinRetry : CircuitPath :=
  if maxPathJoinAttempts ≤ self.joinAttempts then self
  else { self with joinAttempts := self.joinAttempts + 1 }

def localAbandonComplete : Bool := self.flags.locallyAbandoned && !self.flags.statusPending

def localAbandonPending : Bool := self.flags.locallyAbandoned && self.flags.statusPending

/-- `queue_status(Abandon)`, while status sequences last. -/
def queueAbandon (sequenceLeft : Bool) : Except Error CircuitPath :=
  if self.circuitKey.isNone then .error .invalid
  else if !sequenceLeft then .error .packetNumberExhausted
  else .ok { self with
    flags := { self.flags with
      locallyAbandoned := true, validated := false, statusPending := true } }

end CircuitPath

/-! ## The paths of an endpoint -/

structure PathTable where
  paths : List CircuitPath
  localCid : Option ConnectionId
  peerCid : Option ConnectionId

namespace PathTable

/-- A new endpoint after `install_connection_ids` and `set_base_circuit_key`. -/
def install (localId peerId : ConnectionId) : PathTable where
  paths := [{ CircuitPath.new true with
    localCid := some localId, peerCid := some peerId, circuitKey := some ⟨.client, 0⟩ }]
  localCid := some localId
  peerCid := some peerId

variable (self : PathTable)

def localConnectionIdOnPath (pathId : Nat) : Option ConnectionId :=
  (self.paths[pathId]?.bind (·.localCid)).or self.localCid

def peerConnectionIdOnPath (pathId : Nat) : Option ConnectionId :=
  (self.paths[pathId]?.bind (·.peerCid)).or self.peerCid

def modifyPath (pathId : Nat) (f : CircuitPath → CircuitPath) : PathTable :=
  { self with paths := self.paths.modify pathId f }

def addPathState (reserved : Bool) (path : CircuitPath) : Except Error (PathTable × Nat) :=
  if maxPathStates ≤ self.paths.length then .error .pathLimit
  else if !reserved then .error .historyFull
  else .ok ({ self with paths := self.paths ++ [path] }, self.paths.length)

/-- `add_path_state_with_ids` -/
def addPathStateWithIds (localId peerId : ConnectionId) (reserved : Bool) :
    Except Error (PathTable × Nat) :=
  if localId.value = 0 ∨ peerId.value = 0 then .error .wrongConnectionId
  else if self.paths.any fun path =>
    path.localCid == some localId || path.peerCid == some peerId then
    .error .wrongConnectionId
  else self.addPathState reserved { CircuitPath.new false with
    localCid := some localId, peerCid := some peerId }

def addPathStateWithLocalId (localId : ConnectionId) (reserved : Bool) :
    Except Error (PathTable × Nat) :=
  if localId.value = 0 ∨ self.paths.any fun path => path.localCid == some localId then
    .error .wrongConnectionId
  else self.addPathState reserved { CircuitPath.new false with localCid := some localId }

/-- `set_peer_connection_id_on_path` -/
def setPeerConnectionIdOnPath (pathId : Nat) (peer : ConnectionId) : Except Error PathTable :=
  if peer.value = 0 ∨ ∃ id < self.paths.length, id ≠ pathId ∧ (self.paths[id]?.bind (·.peerCid)) =
    some peer then
    .error .wrongConnectionId
  else if self.paths.length ≤ pathId then .error .pathLimit
  else .ok (self.modifyPath pathId fun path => { path with peerCid := some peer })

def removePathState (pathId : Nat) : Except Error PathTable :=
  if pathId = 0 ∨ self.paths.length ≤ pathId then .error .pathLimit
  else if self.paths[pathId]?.any (·.flags.recorded) then .error .blocked
  else .ok { self with paths := self.paths.eraseIdx pathId }

/-- `path_has_outstanding_packets` -/
def hasOutstandingPackets (path : CircuitPath) : Bool :=
  path.flags.recorded || path.flags.ackPending

end PathTable

/-! ## Slots -/

inductive JoinError where
  | missingAssociation
  | associationTableFull
  | routing
  | circuitBusy
  | missingEgressAddress
  | pathSetupAttemptsExhausted
  | egress
  | transport (error : Error)

/-- A relayed join whose reply is awaited. -/
structure RelayedJoin where
  attempts : Nat
  retryAtUs : Nat
  deadlineUs : Nat

structure Slot where
  role : Role
  /-- A client has no endpoint before the answer to its Initial. -/
  endpoint : Option PathTable
  peerJoinCid : Option ConnectionId
  receiveCids : List (Option ConnectionId)
  relayedJoins : List (Option RelayedJoin)
  nextCircuitSequence : Role → Nat
  highestRemoteCircuitSequence : Role → Nat
  nextTransactionId : Nat
  nextCircuitId : Nat

namespace Slot

def new (role : Role) (receiveCid : ConnectionId) (endpoint : Option PathTable) : Slot where
  role := role
  endpoint := endpoint
  peerJoinCid := none
  receiveCids := some receiveCid :: List.replicate (maxPathStates - 1) none
  relayedJoins := List.replicate maxPathStates none
  nextCircuitSequence := fun _ => 1
  highestRemoteCircuitSequence := fun _ => 0
  nextTransactionId := 1
  nextCircuitId := 1

variable (self : Slot)

def receiveCid (pathId : Nat) : Option ConnectionId := self.receiveCids[pathId]?.join

/-- The entries behind the index move down and the last one is cleared. -/
def shiftOut {α : Type} (entries : List (Option α)) (pathId : Nat) : List (Option α) :=
  entries.eraseIdx pathId ++ [none]

/-- `remove_slot_path_state` -/
def removePathState (pathId : Nat) : Except Error Slot :=
  match self.endpoint with
  | none => .error .invalid
  | some endpoint =>
    match endpoint.removePathState pathId with
    | .error e => .error e
    | .ok endpoint => .ok { self with
        endpoint := some endpoint
        receiveCids := shiftOut self.receiveCids pathId
        relayedJoins := shiftOut self.relayedJoins pathId }

section

variable (endpoint : PathTable) (pathId : Nat) (localCid : ConnectionId) (key : CircuitKey)

/-- The slot after a path of its own was added for a join that it opens. -/
def opened (address : Address) : Slot :=
  { self with
    endpoint := some (endpoint.modifyPath pathId fun path =>
      (path.setCircuit key self.nextTransactionId self.nextCircuitId).rememberAddress address)
    receiveCids := self.receiveCids.set pathId (some localCid)
    nextCircuitSequence := Function.update self.nextCircuitSequence self.role
      (satAdd key.sequence 1)
    nextTransactionId := satAdd self.nextTransactionId 1
    nextCircuitId := self.nextCircuitId + 1 }

/-- The slot after a path was added for a join of the peer. -/
def admitted (transactionId : Nat) (address : Address) : Slot :=
  { self with
    endpoint := some (endpoint.modifyPath pathId fun path =>
      (path.setCircuit key transactionId self.nextCircuitId).rememberAddress address)
    receiveCids := self.receiveCids.set pathId (some localCid)
    nextCircuitId := satAdd self.nextCircuitId 1
    highestRemoteCircuitSequence := Function.update self.highestRemoteCircuitSequence key.openerRole
      key.sequence }

end

/-- What a join that this side opens would carry, or why it cannot be opened. -/
def nextJoin (slot : Slot) :
    Except JoinError (PathTable × CircuitKey × ConnectionId × ConnectionId) :=
  match slot.endpoint with
  | none => .error (.transport .invalid)
  | some endpoint =>
    match slot.peerJoinCid.or (endpoint.peerConnectionIdOnPath 0),
      endpoint.peerConnectionIdOnPath 0 with
    | some joinCid, some peerCid =>
      let sequence := slot.nextCircuitSequence slot.role
      if sequence = 0 ∨ varintBound ≤ sequence ∨ slot.nextTransactionId = 0 ∨
        varintBound ≤ slot.nextTransactionId ∨
          slot.nextCircuitId = u64Max then .error (.transport .packetNumberExhausted)
      else if maxPathStates ≤ endpoint.paths.length then .error (.transport .pathLimit)
      else .ok (endpoint, ⟨slot.role, sequence⟩, joinCid, peerCid)
    | _, _ => .error (.transport .wrongConnectionId)

end Slot

/-! ## The node -/

structure PathJoin where
  joinCid : ConnectionId
  key : CircuitKey
  transactionId : Nat
  receiveCid : ConnectionId
  deriving DecidableEq

/-- The answer, sent to the id that the join asked for. -/
structure PathJoinAck where
  destination : ConnectionId
  key : CircuitKey
  transactionId : Nat
  receiveCid : ConnectionId
  deriving DecidableEq

/-- Associations are named by handles that are not used again. -/
structure JoinNode (NextHop : Type) where
  associations : Nat → Option Slot
  nextAssociation : Nat
  router : DcidRegistry Nat NextHop
  nextLocalCid : Nat
  maxAssociations : Nat

namespace JoinNode

variable {NextHop : Type}

def new (maxEntries maxAssociations : Nat) : JoinNode NextHop :=
  ⟨fun _ => none, 0, .new maxEntries, 1, maxAssociations⟩

def setSlot (node : JoinNode NextHop) (association : Nat) (slot : Slot) : JoinNode NextHop :=
  { node with associations := Function.update node.associations association (some slot) }

/-- `self.router.contains(cid)` -/
def contains (router : DcidRegistry Nat NextHop) (cid : ConnectionId) : Bool :=
  (router.find cid).toBool

/-- `allocate_local_cid` after some candidates were taken; a counter out of range ends the
process. -/
def allocateFrom (router : DcidRegistry Nat NextHop) : Nat → Nat → Nat × Option ConnectionId
  | 0, next => (next, none)
  | tries + 1, next =>
    match ConnectionId.new next with
    | none => (next, none)
    | some cid =>
      if contains router cid then allocateFrom router tries (max (satAdd next 1) 1)
      else (max (satAdd next 1) 1, some cid)

def allocateLocalCid (node : JoinNode NextHop) : JoinNode NextHop × Option ConnectionId :=
  let (next, cid) := allocateFrom node.router (node.maxAssociations + 1) node.nextLocalCid
  ({ node with nextLocalCid := next }, cid)

/-- Allocate until the candidate is none of `avoid`. Candidates grow, so one round for each of them
and one more is enough. -/
def allocateOther (node : JoinNode NextHop) (avoid : List ConnectionId) :
    Nat → JoinNode NextHop × Option ConnectionId
  | 0 => (node, none)
  | rounds + 1 =>
    match node.allocateLocalCid with
    | (node, none) => (node, none)
    | (node, some cid) => if cid ∈ avoid then allocateOther node avoid rounds else (node, some cid)

def removeRoute (node : JoinNode NextHop) (cid : ConnectionId) (association : Nat) :
    JoinNode NextHop :=
  { node with router := (node.router.removeEndpoint cid association).1 }

/-! ### Associations -/

/-- `insert`: the route first, then the slot under a new handle. -/
def insert (node : JoinNode NextHop) (role : Role) (receiveCid : ConnectionId)
    (endpoint : Option PathTable) (reserved : Bool) : JoinNode NextHop × Except JoinError Nat :=
  match node.router.insertEndpoint receiveCid node.nextAssociation reserved with
  | (_, .error _) => (node, .error .routing)
  | (router, .ok ()) =>
    ({ node with
       router := router
       associations := Function.update node.associations node.nextAssociation
         (some (.new role receiveCid endpoint))
       nextAssociation := node.nextAssociation + 1 }, .ok node.nextAssociation)

section

variable (node : JoinNode NextHop)

/-- `add_client`, before the answer to the Initial. -/
def addClient (receiveCid : ConnectionId) (reserved : Bool) :
    JoinNode NextHop × Except JoinError Nat :=
  node.insert .client receiveCid none reserved

/-- `add_server`; the endpoint was installed under the same id. -/
def addServer (receiveCid peerCid : ConnectionId) (reserved : Bool) :
    JoinNode NextHop × Except JoinError Nat :=
  node.insert .server receiveCid (some (.install receiveCid peerCid)) reserved

/-- The answer to the Initial gives a client its endpoint. -/
def establish (association : Nat) (peerCid : ConnectionId) : JoinNode NextHop :=
  match node.associations association with
  | none => node
  | some slot =>
    match slot.endpoint, slot.receiveCid 0 with
    | none, some receiveCid =>
      node.setSlot association { slot with endpoint := some (.install receiveCid peerCid) }
    | _, _ => node

/-- What a setup through relays keeps of the peer: its own receive id, and the alias that path zero
is reached by. -/
def setupRelayed (association : Nat) (joinCid : ConnectionId) (relayCid : Option ConnectionId) :
    JoinNode NextHop :=
  match node.associations association with
  | none => node
  | some slot =>
    match slot.endpoint, relayCid with
    | some endpoint, some relayCid =>
      match endpoint.setPeerConnectionIdOnPath 0 relayCid with
      | .error _ => node
      | .ok endpoint =>
        node.setSlot association { slot with
          endpoint := some endpoint, peerJoinCid := some joinCid }
    | _, _ => node.setSlot association { slot with peerJoinCid := some joinCid }

end

def removeRoutes (node : JoinNode NextHop) (association : Nat) :
    List (Option ConnectionId) → JoinNode NextHop
  | [] => node
  | none :: cids => removeRoutes node association cids
  | some cid :: cids => removeRoutes (node.removeRoute cid association) association cids

variable (node : JoinNode NextHop)

def remove (association : Nat) : JoinNode NextHop × Except JoinError Unit :=
  match node.associations association with
  | none => (node, .error .missingAssociation)
  | some slot =>
    ({ node with associations := Function.update node.associations association none }.removeRoutes
      association
      slot.receiveCids, .ok ())

/-! ### Direct joins -/

/-- `built` is whether the PATH_JOIN packet could be written. -/
def openDirectPath (association : Nat) (address : Address) (built reserved : Bool) :
    JoinNode NextHop × Except JoinError PathJoin :=
  match node.associations association with
  | none => (node, .error .missingAssociation)
  | some slot =>
    match slot.nextJoin with
    | .error e => (node, .error e)
    | .ok (endpoint, key, joinCid, peerCid) =>
      match node.allocateOther [peerCid] 2 with
      | (node, none) => (node, .error .associationTableFull)
      | (node, some localCid) =>
        if !built then (node, .error .egress)
        else
          match node.router.insertEndpoint localCid association reserved with
          | (_, .error _) => (node, .error .routing)
          | (router, .ok ()) =>
            let node := { node with router := router }
            match endpoint.addPathStateWithLocalId localCid reserved with
            | .error e => (node.removeRoute localCid association, .error (.transport e))
            | .ok (endpoint, pathId) =>
              (node.setSlot association (slot.opened endpoint pathId localCid key address),
               .ok ⟨joinCid, key, slot.nextTransactionId, localCid⟩)

def retryDirectPath (association : Nat) (key : CircuitKey) (built : Bool) :
    JoinNode NextHop × Except JoinError PathJoin :=
  match node.associations association with
  | none => (node, .error .missingAssociation)
  | some slot =>
    match slot.endpoint with
    | none => (node, .error (.transport .invalid))
    | some endpoint =>
      match endpoint.paths.findIdx? fun path => path.circuitKey == some key with
      | none => (node, .error (.transport .invalid))
      | some pathId =>
        match endpoint.paths[pathId]? with
        | none => (node, .error (.transport .invalid))
        | some path =>
          if path.flags.validated then (node, .error (.transport .invalid))
          else if maxPathJoinAttempts ≤ path.joinAttempts then
            (node, .error .pathSetupAttemptsExhausted)
          else
            match path.transactionId, endpoint.localConnectionIdOnPath pathId,
              endpoint.peerConnectionIdOnPath 0,
                path.flags.activeAddress with
            | some transactionId, some receiveCid, some peerCid, some _ =>
              if !built then (node, .error .egress)
              else
                (node.setSlot association { slot with
                   endpoint := some (endpoint.modifyPath pathId CircuitPath.recordJoinRetry) },
                 -- the join id is that of path zero here, not the one of the first join
                 .ok ⟨peerCid, key, transactionId, receiveCid⟩)
            | none, _, _, _ => (node, .error (.transport .invalid))
            | some _, some _, some _, none => (node, .error .missingEgressAddress)
            | _, _, _, _ => (node, .error (.transport .wrongConnectionId))

/-- A PATH_JOIN that the endpoint admitted on `ingressPath`. -/
def receivePathJoin (association ingressPath : Nat) (address : Address) (join : PathJoin)
    (built reserved : Bool) : JoinNode NextHop × Except JoinError PathJoinAck :=
  match node.associations association with
  | none => (node, .error (.transport .wrongConnectionId))
  | some slot =>
    match slot.endpoint with
    | none => (node, .error (.transport .invalid))
    | some endpoint =>
      if join.key.openerRole = slot.role ∨ ingressPath ≠ 0 then (node, .error (.transport .invalid))
      else if endpoint.localConnectionIdOnPath 0 ≠ some join.joinCid then
        (node, .error (.transport .wrongConnectionId))
      else
        match endpoint.paths.findIdx? fun path =>
            path.circuitKey == some join.key && path.transactionId == some join.transactionId with
        | some pathId =>
          -- a replay gets the result that it got before
          if endpoint.peerConnectionIdOnPath pathId ≠ some join.receiveCid ∨
              !(endpoint.paths[pathId]?.any fun path =>
                path.flags.knownAddresses.contains address) then
            (node, .error (.transport .bootstrapInvalid))
          else
            match endpoint.localConnectionIdOnPath pathId with
            | none => (node, .error (.transport .wrongConnectionId))
            | some localCid =>
              if !built then (node, .error .egress)
              else (node, .ok ⟨join.receiveCid, join.key, join.transactionId, localCid⟩)
        | none =>
          if (endpoint.paths.any fun path => path.circuitKey == some join.key) ∨
              join.key.sequence ≤ slot.highestRemoteCircuitSequence join.key.openerRole then
            (node, .error (.transport .bootstrapInvalid))
          else if slot.receiveCids.contains (some join.receiveCid) then
            (node, .error (.transport .wrongConnectionId))
          else
            match node.allocateOther [join.receiveCid] 2 with
            | (node, none) => (node, .error (.transport .historyFull))
            | (node, some localCid) =>
              match node.router.insertEndpoint localCid association reserved with
              | (_, .error _) => (node, .error (.transport .pathLimit))
              | (router, .ok ()) =>
                let node := { node with router := router }
                if slot.nextCircuitId = u64Max then
                  (node.removeRoute localCid association,
                    .error (.transport .packetNumberExhausted))
                else
                  match endpoint.addPathStateWithIds localCid join.receiveCid reserved with
                  | .error e => (node.removeRoute localCid association, .error (.transport e))
                  | .ok (endpoint, pathId) =>
                    let node := node.setSlot association
                      (slot.admitted endpoint pathId localCid join.key join.transactionId address)
                    -- the path stays when its answer cannot be built; a retry asks again
                    if !built then (node, .error .egress)
                    else (node, .ok ⟨join.receiveCid, join.key, join.transactionId, localCid⟩)

/-- A PATH_JOIN_ACK that the endpoint admitted on `ingressPath`. -/
def receivePathJoinAck (association ingressPath : Nat) (address : Address) (ack : PathJoinAck) :
    JoinNode NextHop × Except JoinError Unit :=
  match node.associations association with
  | none => (node, .error (.transport .wrongConnectionId))
  | some slot =>
    match slot.endpoint with
    | none => (node, .error (.transport .invalid))
    | some endpoint =>
      if ack.key.openerRole ≠ slot.role ∨ ingressPath = 0 then (node, .error (.transport .invalid))
      else
        match endpoint.paths[ingressPath]? with
        | none => (node, .error (.transport .pathLimit))
        | some path =>
          if path.circuitKey ≠ some ack.key ∨ path.transactionId ≠ some ack.transactionId then
            (node, .error (.transport .bootstrapInvalid))
          else
            match endpoint.setPeerConnectionIdOnPath ingressPath ack.receiveCid with
            | .error e => (node, .error (.transport e))
            | .ok endpoint =>
              (node.setSlot association { slot with
                 endpoint := some (endpoint.modifyPath ingressPath fun path =>
                   (path.rememberAddress address).markValidated) }, .ok ())

/-! ### Closing -/

/-- `sequenceLeft` is whether the path has a status sequence left. -/
def closeCircuit (association localId : Nat) (sequenceLeft : Bool) :
    JoinNode NextHop × Except JoinError Unit :=
  match node.associations association with
  | none => (node, .error .missingAssociation)
  | some slot =>
    match slot.endpoint with
    | none => (node, .error (.transport .invalid))
    | some endpoint =>
      match endpoint.paths.findIdx? fun path => path.localCircuitId == localId with
      | none => (node, .error (.transport .invalid))
      | some pathId =>
        if pathId = 0 then (node, .error (.transport .invalid))
        else
          match endpoint.paths[pathId]?, slot.receiveCid pathId with
          | some path, some receiveCid =>
            if (!path.flags.validated || PathTable.hasOutstandingPackets path) &&
              !path.localAbandonComplete then
              (node, .error .circuitBusy)
            else if !path.localAbandonComplete then
              if path.localAbandonPending then (node, .error .circuitBusy)
              else
                match path.queueAbandon sequenceLeft with
                | .error e => (node, .error (.transport e))
                | .ok path =>
                  (node.setSlot association { slot with
                     endpoint := some (endpoint.modifyPath pathId fun _ => path) },
                       .error .circuitBusy)
            else
              match node.router.removeEndpoint receiveCid association with
              | (_, false) => (node, .error .routing)
              | (router, true) =>
                -- the route is gone when the endpoint may still refuse
                let node := { node with router := router }
                match slot.removePathState pathId with
                | .error e => (node, .error (.transport e))
                | .ok slot => (node.setSlot association slot, .ok ())
          | none, _ => (node, .error (.transport .invalid))
          | some _, none => (node, .error (.transport .wrongConnectionId))

/-! ### Relayed joins -/

/-- `join_relayed_path_with_route_mode`, once its route description was accepted. `built` is whether
the request could be written; its submission comes last and changes nothing here. -/
def joinRelayedPath (association : Nat) (address : Address) (now : Nat) (built reserved : Bool) :
    JoinNode NextHop × Except JoinError CircuitKey :=
  match node.associations association with
  | none => (node, .error .missingAssociation)
  | some slot =>
    match slot.nextJoin with
    | .error e => (node, .error e)
    | .ok (endpoint, key, _, _) =>
      match node.allocateLocalCid with
      | (node, none) => (node, .error .associationTableFull)
      | (node, some localCid) =>
        if !built then (node, .error .egress)
        else
          match node.router.insertEndpoint localCid association reserved with
          | (_, .error _) => (node, .error .routing)
          | (router, .ok ()) =>
            let node := { node with router := router }
            match endpoint.addPathStateWithLocalId localCid reserved with
            | .error e => (node.removeRoute localCid association, .error (.transport e))
            | .ok (endpoint, pathId) =>
              let slot := slot.opened endpoint pathId localCid key address
              let join : RelayedJoin :=
                ⟨1, satAdd now defaultInitialPtoUs, satAdd now defaultSetupPendingTimeoutUs⟩
              (node.setSlot association { slot with
                 relayedJoins := slot.relayedJoins.set pathId (some join) }, .ok key)

/-- Undo the path that was just added for a setup request. -/
def withdrawJoin (association pathId : Nat) (localCid : ConnectionId) : JoinNode NextHop :=
  match node.associations association with
  | none => node
  | some slot =>
    let endpoint := slot.endpoint.map fun endpoint =>
      (endpoint.removePathState pathId).toOption.getD endpoint
    (node.setSlot association { slot with
      endpoint := endpoint, receiveCids := slot.receiveCids.set pathId none }).removeRoute localCid
        association

/-- A relayed join of the peer arrives as a setup request. `built` and `completed` are whether the
reply could be written and its transaction completed. -/
def receiveSetupJoin (joinCid openerReceiveCid : ConnectionId)
    (previousReverseCid : Option ConnectionId) (key : CircuitKey) (transactionId : Nat)
    (address : Address) (built completed reserved : Bool) :
    JoinNode NextHop × Except JoinError ConnectionId :=
  let association := match node.router.find joinCid with
    | .error _ => none
    | .ok index =>
      match node.router.entries[index]? with
      | some (_, .endpoint association) => some association
      | _ => none
  match association with
  | none => (node, .error .missingAssociation)
  | some association =>
    match node.associations association with
    | none => (node, .error .missingAssociation)
    | some slot =>
      match slot.endpoint with
      | none => (node, .error (.transport .invalid))
      | some endpoint =>
        if slot.role = key.openerRole ∨
          (endpoint.paths.any fun path => path.circuitKey == some key) ∨
            key.sequence ≤ slot.highestRemoteCircuitSequence key.openerRole then
          (node, .error (.transport .bootstrapInvalid))
        else if maxPathStates ≤ endpoint.paths.length then (node, .error (.transport .pathLimit))
        else
          let peerCid := previousReverseCid.getD openerReceiveCid
          match node.allocateOther [openerReceiveCid, peerCid] 3 with
          | (node, none) => (node, .error .associationTableFull)
          | (node, some localCid) =>
            match node.router.insertEndpoint localCid association reserved with
            | (_, .error _) => (node, .error .routing)
            | (router, .ok ()) =>
              let node := { node with router := router }
              match endpoint.addPathStateWithIds localCid peerCid reserved with
              | .error e => (node.removeRoute localCid association, .error (.transport e))
              | .ok (endpoint, pathId) =>
                let node := node.setSlot association
                  (slot.admitted endpoint pathId localCid key transactionId address)
                if !built then (node.withdrawJoin association pathId localCid, .error .egress)
                else if !completed then
                  (node.withdrawJoin association pathId localCid, .error (.transport .invalid))
                else (node, .ok localCid)

/-- The reply to a pending relayed join, found by its key, transaction and address. -/
def receiveSetupReply (association pathId : Nat) (address : Address)
    (accepted : Option ConnectionId) : JoinNode NextHop :=
  match node.associations association with
  | none => node
  | some slot =>
    match slot.endpoint, slot.relayedJoins[pathId]?.join with
    | some endpoint, some _ =>
      match accepted with
      | none =>
        -- the failure of the endpoint is dropped here, but not that of the route
        let node := match slot.removePathState pathId with
          | .error _ => node
          | .ok slot => node.setSlot association slot
        match slot.receiveCid pathId with
        | none => node
        | some localCid => node.removeRoute localCid association
      | some peerCid =>
        match endpoint.setPeerConnectionIdOnPath pathId peerCid with
        | .error _ => node
        | .ok endpoint =>
          node.setSlot association { slot with
            endpoint := some (endpoint.modifyPath pathId fun path =>
              (path.rememberAddress address).markUnvalidated)
            relayedJoins := slot.relayedJoins.set pathId none }
    | _, _ => node

/-- A relayed join that is due at `now`: it is given up, or asked for once more. -/
def relayedJoinDue (association pathId now : Nat) (built : Bool) :
    JoinNode NextHop × Except JoinError Unit :=
  match node.associations association with
  | none => (node, .ok ())
  | some slot =>
    match slot.relayedJoins[pathId]?.join, slot.receiveCid pathId,
        slot.endpoint.bind fun endpoint => endpoint.paths[pathId]?.bind (·.flags.activeAddress) with
    | some join, some localCid, some _ =>
      if now < join.retryAtUs ∧ now < join.deadlineUs then (node, .ok ())
      else if join.deadlineUs ≤ now ∨ maxPathJoinAttempts ≤ join.attempts then
        match slot.removePathState pathId with
        | .error e => (node, .error (.transport e))
        | .ok slot => ((node.setSlot association slot).removeRoute localCid association, .ok ())
      else if !built then (node, .error .egress)
      else
        let join := { join with
          attempts := join.attempts + 1
          retryAtUs := min (satAdd now defaultInitialPtoUs) join.deadlineUs }
        (node.setSlot association { slot with
          relayedJoins := slot.relayedJoins.set pathId (some join) }, .ok ())
    | _, _, _ => (node, .ok ())

/-- The transport moves the flags of a path. -/
def transport (association pathId : Nat) (flags : PathFlags) : JoinNode NextHop :=
  match node.associations association with
  | none => node
  | some slot =>
    node.setSlot association { slot with
      endpoint := slot.endpoint.map fun endpoint => endpoint.modifyPath pathId fun path =>
        { path with flags := flags } }

end JoinNode

end QuicLite
