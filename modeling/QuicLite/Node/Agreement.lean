import QuicLite.Node.Routes
import QuicLite.Node.Parties

/-!
# Direct joins of two nodes

Both sides of an association open circuits, retry their joins and close circuits, while PATH_JOIN
and PATH_JOIN_ACK packets are lost, repeated, delayed and overtaken. What was ever sent is kept in
`joins` and `acks`, from which a packet may be delivered at any time and any number of times; a
packet that is never delivered is lost. `seen` lists the keys a side admitted from its peer and
`closed` the keys of the circuits it closed.
-/

namespace QuicLite

open List Option Function Except Nat

namespace JoinPair

variable {NextHop : Type} {join : PathJoin}

structure State (NextHop : Type) where
  node : Role → JoinNode NextHop
  joins : List (Role × PathJoin)
  acks : List (Role × PathJoinAck)
  seen : List (Role × CircuitKey)
  closed : List (Role × CircuitKey)

inductive Step where
  | openPath (side : Role) (address : Address) (built reserved : Bool)
  | retryPath (side : Role) (key : CircuitKey) (built : Bool)
  /-- A PATH_JOIN that the peer sent comes in. -/
  | deliverJoin (side : Role) (join : PathJoin) (ingressPath : Nat) (address : Address)
      (built reserved : Bool)
  | deliverAck (side : Role) (ack : PathJoinAck) (ingressPath : Nat) (address : Address)
  | closeCircuit (side : Role) (localId : Nat) (sequenceLeft : Bool)
  | transport (side : Role) (pathId : Nat) (flags : PathFlags)

def paths (node : JoinNode NextHop) (association : Nat) : List CircuitPath :=
  ((node.associations association).bind (·.endpoint)).elim [] (·.paths)

/-- The circuit keys of the paths of an association. -/
def keys (node : JoinNode NextHop) (association : Nat) : List (Option CircuitKey) :=
  (paths node association).map (·.circuitKey)

/-- The key of the circuit with this local id. -/
def keyOf (node : JoinNode NextHop) (association localId : Nat) : Option CircuitKey :=
  ((node.associations association).bind (·.endpoint)).bind fun endpoint =>
    (endpoint.paths.find? fun path => path.localCircuitId == localId).bind (·.circuitKey)

/-- `association` is the handle of the association on each side. -/
def step (association : Role → Nat) (s : State NextHop) : Step → State NextHop
  | .openPath side address built reserved =>
    let (node, result) := (s.node side).openDirectPath (association side) address built reserved
    { s with
      node := update s.node side node
      joins := s.joins ++ (result.toOption.map fun join => (side, join)).toList }
  | .retryPath side key built =>
    let (node, result) := (s.node side).retryDirectPath (association side) key built
    { s with
      node := update s.node side node
      joins := s.joins ++ (result.toOption.map fun join => (side, join)).toList }
  | .deliverJoin side join ingressPath address built reserved =>
    if (side.peer, join) ∈ s.joins then
      let (node, result) := (s.node side).receivePathJoin (association side) ingressPath address
        join built reserved
      { s with
        node := update s.node side node
        acks := s.acks ++ (result.toOption.map fun ack => (side, ack)).toList
        seen := if some join.key ∈ keys node (association side) ∧
          some join.key ∉ keys (s.node side) (association side)
          then s.seen ++ [(side, join.key)] else s.seen }
    else s
  | .deliverAck side ack ingressPath address =>
    if (side.peer, ack) ∈ s.acks then
      { s with
        node := update s.node side
          ((s.node side).receivePathJoinAck (association side) ingressPath address ack).1 }
    else s
  | .closeCircuit side localId sequenceLeft =>
    let (node, result) := (s.node side).closeCircuit (association side) localId sequenceLeft
    { s with
      node := update s.node side node
      closed := match result, keyOf (s.node side) (association side) localId with
        | .ok (), some key => s.closed ++ [(side, key)]
        | _, _ => s.closed }
  | .transport side pathId flags =>
    { s with
      node := update s.node side ((s.node side).transport (association side) pathId flags)
        }

/-- A side of an association that was just established: one path, and nothing joined yet. -/
structure Fresh (side : Role) (slot : Slot) : Prop where
  role : slot.role = side
  base : ∃ endpoint path, slot.endpoint = some endpoint ∧ endpoint.paths = [path] ∧
    path.circuitKey = some baseKey ∧ path.transactionId = none
  sequence : slot.nextCircuitSequence side = 1
  highest : slot.highestRemoteCircuitSequence side.peer = 0

/-- Two nodes that share an established association, and nothing in flight. -/
structure Established (association : Role → Nat) (s : State NextHop) : Prop where
  fresh : ∀ side, ∃ slot, (s.node side).associations (association side) = some slot ∧
    Fresh side slot
  quiet : s.joins = [] ∧ s.acks = [] ∧ s.seen = [] ∧ s.closed = []

/-! ## The parties that the nodes are -/

def pathIds (path : CircuitPath) : PathIds :=
  ⟨path.circuitKey, path.transactionId, path.localCid, path.peerCid⟩

def slotParty (side : Role) (slot : Slot) : Party where
  paths := (slot.endpoint.elim [] (·.paths)).map pathIds
  nextSequence := slot.nextCircuitSequence side
  highest := slot.highestRemoteCircuitSequence side.peer
  peerJoinCid := slot.peerJoinCid
  peerCid := slot.endpoint.bind (·.peerCid)

def nodeParty (side : Role) (association : Nat) (node : JoinNode NextHop) : Party :=
  match node.associations association with
  | none => ⟨[], 0, 0, none, none⟩
  | some slot => slotParty side slot

def world (association : Role → Nat) (s : State NextHop) : World where
  party := fun side => nodeParty side (association side) (s.node side)
  joins := s.joins
  acks := s.acks
  seen := s.seen
  closed := s.closed

/-- The association is there, in its role and with an endpoint. -/
def Attached (side : Role) (association : Nat) (node : JoinNode NextHop) : Prop :=
  ∃ slot endpoint, node.associations association = some slot ∧ slot.role = side ∧
    slot.endpoint = some endpoint

/-- A call is a move of the party. -/
structure Moved (side : Role) (association : Nat) (node node' : JoinNode NextHop)
    (event : Event) : Prop where
  attached : Attached side association node'
  moves : (nodeParty side association node).Moves side event (nodeParty side association node')

open Event

section Calls

variable {side : Role} {association : Nat} {node node' : JoinNode NextHop} {slot slot' : Slot}
    {endpoint endpoint' : PathTable}
variable {key : CircuitKey}

theorem nodeParty_eq (hslot : node.associations association = some slot) :
    nodeParty side association node = slotParty side slot := by
  rw [nodeParty, hslot]

theorem slotParty_paths (hendpoint : slot.endpoint = some endpoint) :
    (slotParty side slot).paths = endpoint.paths.map pathIds := by
  rw [slotParty, hendpoint]
  rfl

theorem nodeParty_paths (side : Role) :
    (nodeParty side association node).paths = (paths node association).map pathIds := by
  unfold paths nodeParty
  cases node.associations association <;> rfl

theorem keys_eq (side : Role) :
    keys node association = (nodeParty side association node).paths.map (·.key) := by
  rw [nodeParty_paths side, List.map_map]
  rfl

theorem mem_keys (side : Role) :
    some key ∈ keys node association ↔ (nodeParty side association node).HasKey key := by
  rw [keys_eq side, List.mem_map]
  rfl

variable {path : CircuitPath} {pathId : Nat}

theorem mem_slotParty (hendpoint : slot.endpoint = some endpoint)
    (hpath : endpoint.paths[pathId]? = some path) : pathIds path ∈ (slotParty side slot).paths := by
  rw [slotParty_paths hendpoint]
  exact mem_map_of_mem (mem_of_getElem? hpath)

theorem basePeer_eq (hendpoint : slot.endpoint = some endpoint) :
    (slotParty side slot).basePeer = endpoint.peerConnectionIdOnPath 0 := by
  rw [Party.basePeer, slotParty_paths hendpoint, PathTable.peerConnectionIdOnPath, head?_map,
    head?_eq_getElem?]
  cases endpoint.paths[0]? <;> simp [slotParty, hendpoint, pathIds]

theorem names_localConnectionId {cid : ConnectionId} (hpath : endpoint.paths[pathId]? = some path)
    (hcid : endpoint.localConnectionIdOnPath pathId = some cid) :
    Party.Names (pathIds path) cid := by
  intro own hown
  have hlocal : path.localCid = some own := hown
  rw [PathTable.localConnectionIdOnPath, hpath, bind_some, hlocal] at hcid
  exact (some.inj hcid).symm

/-- The slot is replaced by another of the same role. -/
theorem moved_setSlot {event : Event} (hslot : node.associations association = some slot)
    (hset : node'.associations association = some slot') (hrole : slot'.role = side)
    (hendpoint : ∃ endpoint, slot'.endpoint = some endpoint)
    (hmoves : (slotParty side slot).Moves side event (slotParty side slot')) :
    Moved side association node node' event where
  attached := hendpoint.elim fun endpoint hendpoint => ⟨slot', endpoint, hset, hrole, hendpoint⟩
  moves := by
    rw [nodeParty_eq hslot, nodeParty_eq hset]
    exact hmoves

theorem moved_quiet (h : Attached side association node)
    (hsame : node'.associations association = node.associations association) :
    Moved side association node node' .quiet := by
  obtain ⟨slot, endpoint, hslot, hrole, hendpoint⟩ := h
  exact moved_setSlot hslot (hsame.trans hslot) hrole ⟨endpoint, hendpoint⟩ .quiet

theorem setSlot_associations :
    (node.setSlot association slot).associations association = some slot := update_self ..

theorem modifyPath_set (hpath : endpoint.paths[pathId]? = some path)
    (f : CircuitPath → CircuitPath) :
    (endpoint.modifyPath pathId f).paths.map pathIds = (endpoint.paths.map pathIds).set pathId
      (pathIds (f path)) := by
  show (endpoint.paths.modify pathId f).map pathIds = _
  apply ext_getElem?
  grind

/-- Flags, attempts and addresses of a path are not part of the party. -/
theorem modifyPath_ids {f : CircuitPath → CircuitPath}
    (hf : ∀ path, endpoint.paths[pathId]? = some path → pathIds (f path) = pathIds path) :
    (endpoint.modifyPath pathId f).paths.map pathIds = endpoint.paths.map pathIds := by
  cases hpath : endpoint.paths[pathId]? with
  | none =>
    show (endpoint.paths.modify pathId f).map pathIds = _
    rw [modify_eq_self (getElem?_eq_none_iff.mp hpath)]
  | some path =>
    rw [modifyPath_set hpath]
    apply ext_getElem?
    grind

theorem modifyPath_last (path : CircuitPath) (f : CircuitPath → CircuitPath) : ({ endpoint with
      paths := endpoint.paths ++ [path] }.modifyPath endpoint.paths.length f).paths.map pathIds =
      endpoint.paths.map pathIds ++ [pathIds (f path)] := by
  show ((endpoint.paths ++ [path]).modify endpoint.paths.length f).map pathIds = _
  apply ext_getElem?
  grind

theorem getElem?_of_findIdx? {α : Type} {entries : List α} {p : α → Bool} {i : Nat}
    (h : entries.findIdx? p = some i) :
    ∃ entry, entries[i]? = some entry ∧ p entry = true := by
  obtain ⟨hi, hp, -⟩ := findIdx?_eq_some_iff_getElem.mp h
  exact ⟨entries[i], getElem?_eq_getElem hi, hp⟩

theorem slotParty_withPaths (hendpoint : slot.endpoint = some endpoint)
    (hpaths : endpoint'.paths.map pathIds = endpoint.paths.map pathIds)
    (hpeer : endpoint'.peerCid = endpoint.peerCid) :
    slotParty side { slot with endpoint := some endpoint' } = slotParty side slot := by
  simp [slotParty, hendpoint, hpaths, hpeer]

theorem pathIds_recordJoinRetry (path : CircuitPath) :
    pathIds path.recordJoinRetry = pathIds path := by
  unfold CircuitPath.recordJoinRetry
  split <;> rfl

theorem pathIds_queueAbandon {path' : CircuitPath} {sequenceLeft : Bool}
    (h : path.queueAbandon sequenceLeft = .ok path') : pathIds path' = pathIds path := by
  unfold CircuitPath.queueAbandon at h
  split_ifs at h
  obtain rfl := ok.inj h
  rfl

theorem quiet_of_eq {p p' : Party} (h : p' = p) : p.Moves side .quiet p' := h ▸ .quiet

theorem slotParty_opened (hendpoint : slot.endpoint = some endpoint) {sequence : Nat}
    (hlt : sequence < varintBound) (localCid : ConnectionId) (address : Address) :
    slotParty slot.role (slot.opened
        { endpoint with
          paths := endpoint.paths ++ [{ CircuitPath.new false with localCid := some localCid }] }
        endpoint.paths.length localCid ⟨slot.role, sequence⟩ address) =
      { slotParty slot.role slot with
        paths := (slotParty slot.role slot).paths ++
          [⟨some ⟨slot.role, sequence⟩, some slot.nextTransactionId, some localCid, none⟩]
        nextSequence := sequence + 1 } := by
  refine Party.mk.injEq .. ▸ ⟨?_, ?_, rfl, rfl, ?_⟩
  · rw [slotParty_paths hendpoint]
    exact modifyPath_last _ _
  · show update _ _ _ _ = _
    rw [update_self, satAdd]
    unfold varintBound at hlt
    unfold usizeBound
    exact min_eq_left (show sequence + 1 ≤ _ by omega)
  show endpoint.peerCid = _
  rw [slotParty, hendpoint]
  rfl

theorem slotParty_admitted (hendpoint : slot.endpoint = some endpoint)
    (hrole : key.openerRole = slot.role.peer) (transactionId : Nat)
    (localCid peerCid : ConnectionId) (address : Address) : slotParty slot.role (slot.admitted
        { endpoint with
          paths := endpoint.paths ++ [{ CircuitPath.new false with
            localCid := some localCid, peerCid := some peerCid }] }
        endpoint.paths.length localCid key transactionId address) =
      { slotParty slot.role slot with
        paths := (slotParty slot.role slot).paths ++
          [⟨some key, some transactionId, some localCid, some peerCid⟩]
        highest := key.sequence } := by
  refine Party.mk.injEq .. ▸ ⟨?_, rfl, ?_, rfl, ?_⟩
  · rw [slotParty_paths hendpoint]
    exact modifyPath_last _ _
  · show update _ _ _ _ = _
    rw [hrole, update_self]
  show endpoint.peerCid = _
  rw [slotParty, hendpoint]
  rfl

open JoinNode

theorem openDirectPath_moves (h : Attached side association node) (address : Address)
    (built reserved : Bool) :
    ((node.openDirectPath association address built reserved).2.toOption = none ∧
        Moved side association node (node.openDirectPath association address built reserved).1
          .quiet) ∨
      ∃ join, (node.openDirectPath association address built reserved).2.toOption = some join ∧
        Moved side association node (node.openDirectPath association address built reserved).1
          (.opened join) := by
  obtain ⟨slot, endpoint, hslot, rfl, hendpoint⟩ := id h
  unfold openDirectPath
  simp only [hslot]
  split
  · exact .inl ⟨rfl, moved_quiet h rfl⟩
  rename_i endpoint₀ key joinCid peerCid hjoin
  obtain ⟨hendpoint₀, -, rfl, hjoinCid, hpeer, hpos, hlt⟩ := nextJoin_ok hjoin
  obtain rfl : endpoint = endpoint₀ := some.inj (hendpoint.symm.trans hendpoint₀)
  obtain ⟨next, allocated, halloc⟩ := allocateOther_eq [peerCid] 2 node
  rw [halloc]
  cases allocated with
  | none => exact .inl ⟨rfl, moved_quiet h rfl⟩
  | some localCid =>
  simp only
  split
  · exact .inl ⟨rfl, moved_quiet h rfl⟩
  split
  · exact .inl ⟨rfl, moved_quiet h rfl⟩
  split
  · exact .inl ⟨rfl, moved_quiet h rfl⟩
  rename_i endpoint' pathId hadd
  obtain ⟨rfl, -, rfl⟩ := addPathStateWithLocalId_ok hadd
  refine .inr ⟨_, rfl, moved_setSlot hslot setSlot_associations rfl ⟨_, rfl⟩ ?_⟩
  rw [slotParty_opened hendpoint hlt]
  refine .opened rfl hpos ?_
  rw [basePeer_eq hendpoint]
  exact hjoinCid

theorem retryDirectPath_moves (h : Attached side association node) (key : CircuitKey)
    (built : Bool) : ((node.retryDirectPath association key built).2.toOption = none ∧
        Moved side association node (node.retryDirectPath association key built).1 .quiet) ∨
      ∃ join, (node.retryDirectPath association key built).2.toOption = some join ∧
        Moved side association node (node.retryDirectPath association key built).1
          (.retried join) := by
  obtain ⟨slot, endpoint, hslot, rfl, hendpoint⟩ := id h
  unfold retryDirectPath
  simp only [hslot, hendpoint]
  split
  · exact .inl ⟨rfl, moved_quiet h rfl⟩
  rename_i pathId hfind
  split
  · exact .inl ⟨rfl, moved_quiet h rfl⟩
  rename_i path hpath
  have hkey : path.circuitKey = some key := by
    obtain ⟨found, hfound, hfoundKey⟩ := getElem?_of_findIdx? hfind
    obtain rfl : path = found := some.inj (hpath.symm.trans hfound)
    simpa using hfoundKey
  split
  · exact .inl ⟨rfl, moved_quiet h rfl⟩
  split
  · exact .inl ⟨rfl, moved_quiet h rfl⟩
  split
  · rename_i transactionId receiveCid peerCid _ htransaction hreceive hpeer _
    split
    · exact .inl ⟨rfl, moved_quiet h rfl⟩
    refine .inr ⟨_, rfl, moved_setSlot hslot setSlot_associations rfl ⟨_, rfl⟩ ?_⟩
    rw [slotParty_withPaths hendpoint (modifyPath_ids fun path _ =>
      pathIds_recordJoinRetry path) rfl]
    refine .retried (mem_slotParty hendpoint hpath) hkey htransaction
      (names_localConnectionId hpath hreceive) ?_
    rw [basePeer_eq hendpoint]
    exact hpeer
  · exact .inl ⟨rfl, moved_quiet h rfl⟩
  · exact .inl ⟨rfl, moved_quiet h rfl⟩
  · exact .inl ⟨rfl, moved_quiet h rfl⟩

/-- A join that is neither known nor overtaken. -/
theorem admitted_moves (hendpoint : slot.endpoint = some endpoint)
    (hforeign : join.key.openerRole ≠ slot.role)
    (hnew : ¬((endpoint.paths.any fun path => path.circuitKey == some join.key) = true ∨
      join.key.sequence ≤ slot.highestRemoteCircuitSequence join.key.openerRole))
    (localCid : ConnectionId) (answered : Bool) (address : Address) :
    (slotParty slot.role slot).Moves slot.role (.admitted join localCid answered)
      (slotParty slot.role (slot.admitted
        { endpoint with paths := endpoint.paths ++
            [{ CircuitPath.new false with
              localCid := some localCid, peerCid := some join.receiveCid }] }
        endpoint.paths.length localCid join.key join.transactionId address)) := by
  have hpeer := Role.eq_peer_of_ne hforeign
  rw [slotParty_admitted hendpoint hpeer]
  refine .admitted hforeign ?_ ?_
  · rintro ⟨ids, hids, hkey⟩
    rw [slotParty_paths hendpoint] at hids
    obtain ⟨path, hpath, rfl⟩ := mem_map.mp hids
    exact hnew (.inl (any_eq_true.mpr ⟨path, hpath, beq_iff_eq.mpr hkey⟩))
  · rw [hpeer] at hnew
    exact Nat.lt_of_not_le fun hle => hnew (.inr hle)

theorem receivePathJoin_moves (h : Attached side association node) (ingressPath : Nat)
    (address : Address) (join : PathJoin) (built reserved : Bool) :
    ((node.receivePathJoin association ingressPath address join built reserved).2.toOption = none ∧
        Moved side association node
          (node.receivePathJoin association ingressPath address join built reserved).1 .quiet) ∨
      (∃ ack, (node.receivePathJoin association ingressPath address join built
        reserved).2.toOption = some ack ∧
        Moved side association node
          (node.receivePathJoin association ingressPath address join built reserved).1
          (.replayed ack)) ∨
      ∃ localCid answered, (node.receivePathJoin association ingressPath address join built
        reserved).2.toOption =
          answer (.admitted join localCid answered) ∧
        Moved side association node
          (node.receivePathJoin association ingressPath address join built reserved).1
          (.admitted join localCid answered) := by
  obtain ⟨slot, endpoint, hslot, rfl, hendpoint⟩ := id h
  unfold receivePathJoin
  simp only [hslot, hendpoint]
  split
  · exact .inl ⟨rfl, moved_quiet h rfl⟩
  rename_i hrole
  split
  · exact .inl ⟨rfl, moved_quiet h rfl⟩
  split
  · rename_i pathId hfind
    split
    · exact .inl ⟨rfl, moved_quiet h rfl⟩
    split
    · exact .inl ⟨rfl, moved_quiet h rfl⟩
    rename_i localCid hlocal
    split
    · exact .inl ⟨rfl, moved_quiet h rfl⟩
    refine .inr (.inl ⟨_, rfl, moved_setSlot hslot hslot rfl ⟨endpoint, hendpoint⟩ ?_⟩)
    obtain ⟨path, hpath, hfound⟩ := getElem?_of_findIdx? hfind
    obtain ⟨hkey, htransaction⟩ : path.circuitKey = some join.key ∧
        path.transactionId = some join.transactionId := by simpa using hfound
    exact .replayed (mem_slotParty hendpoint hpath) (fun hown => hrole (.inl hown)) hkey
      htransaction
      (names_localConnectionId hpath hlocal)
  · split
    · exact .inl ⟨rfl, moved_quiet h rfl⟩
    rename_i hnew
    split
    · exact .inl ⟨rfl, moved_quiet h rfl⟩
    obtain ⟨next, allocated, halloc⟩ := allocateOther_eq [join.receiveCid] 2 node
    rw [halloc]
    cases allocated with
    | none => exact .inl ⟨rfl, moved_quiet h rfl⟩
    | some localCid =>
    simp only
    split
    · exact .inl ⟨rfl, moved_quiet h rfl⟩
    split
    · exact .inl ⟨rfl, moved_quiet h rfl⟩
    split
    · exact .inl ⟨rfl, moved_quiet h rfl⟩
    rename_i endpoint' pathId hadd
    obtain ⟨rfl, -, rfl⟩ := addPathStateWithIds_ok hadd
    have hmoves := admitted_moves hendpoint (fun hown => hrole (.inl hown)) hnew localCid
    split
    · exact .inr (.inr ⟨localCid, false, rfl,
        moved_setSlot hslot setSlot_associations rfl ⟨_, rfl⟩ (hmoves false address)⟩)
    · exact .inr (.inr ⟨localCid, true, rfl,
        moved_setSlot hslot setSlot_associations rfl ⟨_, rfl⟩ (hmoves true address)⟩)

theorem addPathStateWithIds_error {localId peerId : ConnectionId} {reserved : Bool} {e : Error}
    (h : endpoint.addPathStateWithIds localId peerId reserved = .error e) :
    e ≠ .bootstrapInvalid := by
  unfold PathTable.addPathStateWithIds PathTable.addPathState at h
  split_ifs at h <;> (obtain rfl := error.inj h; decide)

/-- A join for a key that has no path fails the sequence check, or nothing that gives its error. -/
theorem receivePathJoin_overtaken (hslot : node.associations association = some slot)
    (hendpoint : slot.endpoint = some endpoint) (hrole : join.key.openerRole ≠ slot.role)
    (hjoin : endpoint.localConnectionIdOnPath 0 = some join.joinCid)
    (hnew : ∀ path ∈ endpoint.paths, path.circuitKey ≠ some join.key) (address : Address)
    (built reserved : Bool) : (node.receivePathJoin association 0 address join built reserved).2 =
      .error (.transport .bootstrapInvalid) ↔
      join.key.sequence ≤ slot.highestRemoteCircuitSequence join.key.openerRole := by
  have hfind : (endpoint.paths.findIdx? fun path =>
      path.circuitKey == some join.key && path.transactionId == some join.transactionId) =
        none := by
    refine findIdx?_eq_none_iff.mpr fun path hpath => ?_
    rw [beq_false_of_ne (hnew path hpath), Bool.false_and]
  have hany : ¬(endpoint.paths.any fun path => path.circuitKey == some join.key) = true := by
    rw [List.any_eq_true]
    rintro ⟨path, hpath, hkey⟩
    exact hnew path hpath (eq_of_beq hkey)
  unfold receivePathJoin
  simp only [hslot, hendpoint, hrole, ne_eq, not_true_eq_false, if_false, hjoin, hfind, hany,
    Bool.false_eq_true, false_or]
  by_cases hle : join.key.sequence ≤ slot.highestRemoteCircuitSequence join.key.openerRole
  · simp [hle]
  simp only [hle, if_false, iff_false]
  split
  · nofun
  split
  · nofun
  split
  · nofun
  split
  · nofun
  split
  · rename_i e hadd
    intro h
    exact addPathStateWithIds_error hadd (JoinError.transport.inj (Except.error.inj h))
  · split <;> nofun

theorem slotParty_confirmed (hendpoint : slot.endpoint = some endpoint)
    (hpath : endpoint.paths[pathId]? = some path) (cid : ConnectionId) (address : Address) :
    slotParty side { slot with
        endpoint := some ((endpoint.modifyPath pathId fun path => { path with
          peerCid := some cid }).modifyPath pathId
          fun path => (path.rememberAddress address).markValidated) } =
      { slotParty side slot with
        paths := (slotParty side slot).paths.set pathId { pathIds path with
          peerCid := some cid } } := by
  refine Party.mk.injEq .. ▸ ⟨?_, rfl, rfl, rfl, ?_⟩
  · rw [slotParty_paths hendpoint, modifyPath_modifyPath]
    exact modifyPath_set hpath _
  show endpoint.peerCid = _
  rw [slotParty, hendpoint]
  rfl

theorem receivePathJoinAck_moves (h : Attached side association node) (ingressPath : Nat)
    (address : Address) (ack : PathJoinAck) :
    Moved side association node (node.receivePathJoinAck association ingressPath address ack).1
      .quiet ∨
      Moved side association node (node.receivePathJoinAck association ingressPath address ack).1
        (.confirmed ack) := by
  obtain ⟨slot, endpoint, hslot, rfl, hendpoint⟩ := id h
  unfold receivePathJoinAck
  simp only [hslot, hendpoint]
  split
  · exact .inl (moved_quiet h rfl)
  rename_i hrole
  split
  · exact .inl (moved_quiet h rfl)
  rename_i path hpath
  split
  · exact .inl (moved_quiet h rfl)
  rename_i hmatch
  split
  · exact .inl (moved_quiet h rfl)
  rename_i endpoint' hset
  obtain ⟨hlt, rfl⟩ := setPeerConnectionIdOnPath_ok hset
  refine .inr (moved_setSlot hslot setSlot_associations rfl ⟨_, rfl⟩ ?_)
  rw [slotParty_confirmed hendpoint hpath]
  obtain ⟨hkey, htransaction⟩ : path.circuitKey = some ack.key ∧
      path.transactionId = some ack.transactionId := by
    simpa using hmatch
  have hget : (slotParty slot.role slot).paths[ingressPath]? = some (pathIds path) := by
    rw [slotParty_paths hendpoint, getElem?_map, hpath]
    rfl
  exact .confirmed (fun hzero => hrole (.inr hzero)) hget (not_not.mp fun hother =>
    hrole (.inl hother)) hkey
    htransaction

theorem keyOf_eq (hslot : node.associations association = some slot)
    (hendpoint : slot.endpoint = some endpoint) {localId : Nat}
    (hfind : (endpoint.paths.findIdx? fun path => path.localCircuitId == localId) = some pathId)
    (hpath : endpoint.paths[pathId]? = some path) :
    keyOf node association localId = (pathIds path).key := by
  have hfound : (endpoint.paths.find? fun path => path.localCircuitId == localId) = some path := by
    rw [find?_eq_bind_findIdx?_getElem?, hfind]
    exact hpath
  rw [keyOf, hslot, bind_some, hendpoint, bind_some, hfound]
  rfl

theorem slotParty_closed (hendpoint : slot.endpoint = some endpoint) (pathId : Nat)
    {receiveCids : List (Option ConnectionId)} {relayedJoins : List (Option RelayedJoin)} :
    slotParty side { slot with
        endpoint := some { endpoint with paths := endpoint.paths.eraseIdx pathId }
        receiveCids := receiveCids
        relayedJoins := relayedJoins } =
      { slotParty side slot with paths := (slotParty side slot).paths.eraseIdx pathId } := by
  refine Party.mk.injEq .. ▸ ⟨?_, rfl, rfl, rfl, ?_⟩
  · rw [slotParty_paths hendpoint]
    exact eraseIdx_map .. |>.symm
  show endpoint.peerCid = _
  rw [slotParty, hendpoint]
  rfl

theorem closeCircuit_moves (h : Attached side association node) (localId : Nat)
    (sequenceLeft : Bool) :
    ((node.closeCircuit association localId sequenceLeft).2.toOption = none ∧
        Moved side association node (node.closeCircuit association localId sequenceLeft).1 .quiet) ∨
      ((node.closeCircuit association localId sequenceLeft).2 = .ok () ∧
        Moved side association node (node.closeCircuit association localId sequenceLeft).1
          (.closed (keyOf node association localId))) := by
  obtain ⟨slot, endpoint, hslot, rfl, hendpoint⟩ := id h
  unfold closeCircuit
  simp only [hslot, hendpoint]
  split
  · exact .inl ⟨rfl, moved_quiet h rfl⟩
  rename_i pathId hfind
  split
  · exact .inl ⟨rfl, moved_quiet h rfl⟩
  rename_i hpos
  split
  · rename_i path receiveCid hpath hreceive
    split
    · exact .inl ⟨rfl, moved_quiet h rfl⟩
    split
    · split
      · exact .inl ⟨rfl, moved_quiet h rfl⟩
      split
      · exact .inl ⟨rfl, moved_quiet h rfl⟩
      rename_i path' hqueue
      refine .inl ⟨rfl, moved_setSlot hslot setSlot_associations rfl ⟨_, rfl⟩ ?_⟩
      refine quiet_of_eq (slotParty_withPaths hendpoint (modifyPath_ids fun old hold => ?_) rfl)
      obtain rfl : path = old := some.inj (hpath.symm.trans hold)
      exact pathIds_queueAbandon hqueue
    · split
      · exact .inl ⟨rfl, moved_quiet h rfl⟩
      split
      · exact .inl ⟨rfl, moved_quiet h rfl⟩
      rename_i slot' hremove
      obtain ⟨endpoint₀, hendpoint₀, -, -, rfl⟩ := removePathState_ok hremove
      obtain rfl : endpoint = endpoint₀ := some.inj (hendpoint.symm.trans hendpoint₀)
      refine .inr ⟨rfl, moved_setSlot hslot setSlot_associations rfl ⟨_, rfl⟩ ?_⟩
      rw [keyOf_eq hslot hendpoint hfind hpath, slotParty_closed hendpoint]
      refine .closed hpos ?_
      rw [slotParty_paths hendpoint, getElem?_map, hpath]
      rfl
  · exact .inl ⟨rfl, moved_quiet h rfl⟩
  · exact .inl ⟨rfl, moved_quiet h rfl⟩

theorem transport_moves (h : Attached side association node) (pathId : Nat) (flags : PathFlags) :
    Moved side association node (node.transport association pathId flags) .quiet := by
  obtain ⟨slot, endpoint, hslot, rfl, hendpoint⟩ := id h
  unfold transport
  simp only [hslot, hendpoint]
  refine moved_setSlot hslot setSlot_associations rfl ⟨_, rfl⟩ ?_
  exact quiet_of_eq (slotParty_withPaths hendpoint (modifyPath_ids fun _ _ => rfl) rfl)

end Calls

/-! ## Steps of the two nodes -/

section Steps

variable {association : Role → Nat} {s s' : State NextHop} {side : Role} {node : JoinNode NextHop}
    {event : Event}

section

variable (hattached : ∀ side, Attached side (association side) (s.node side))
include hattached

theorem next_of_moved
    (hmoved : Moved side (association side) (s.node side) node event)
    (hdelivered : (world association s).Delivered side event)
    (hnode : s'.node = update s.node side node)
    (hjoins : s'.joins = s.joins ++ (event.sent.map fun join => (side, join)).toList)
    (hacks : s'.acks = s.acks ++ (event.answer.map fun ack => (side, ack)).toList)
    (hseen : s'.seen = s.seen ++ (event.admits.map fun key => (side, key)).toList)
    (hclosed : s'.closed = s.closed ++ (event.closes.map fun key => (side, key)).toList) :
    (∀ side, Attached side (association side) (s'.node side)) ∧
      ((world association s).Next (world association s') ∨ s' = s) := by
  have hworld : world association s' =
      (world association s).record side (nodeParty side (association side) node) event := by
    refine World.mk.injEq .. ▸ ⟨?_, hjoins, hacks, hseen, hclosed⟩
    funext other
    rw [hnode]
    by_cases hside : other = side
    · subst hside
      rw [update_self, update_self]
    · rw [update_of_ne hside, update_of_ne hside]
      rfl
  refine ⟨fun other => ?_, .inl (hworld ▸ .move hmoved.moves hdelivered)⟩
  rw [hnode]
  by_cases hside : other = side
  · subst hside
    rw [update_self]
    exact hmoved.attached
  · rw [update_of_ne hside]
    exact hattached other

/-- Every step of the two nodes is a move of one of the parties, or nothing. -/
theorem step_next (action : Step) :
    (∀ side, Attached side (association side) ((step association s action).node side)) ∧
      ((world association s).Next (world association (step association s action)) ∨
        step association s action = s) := by
  cases action with
  | openPath side address built reserved =>
    rcases openDirectPath_moves (hattached side) address built reserved with ⟨hresult, hmoved⟩ |
      ⟨join, hresult, hmoved⟩
    all_goals
      refine next_of_moved hattached hmoved trivial rfl ?_ ?_ ?_ ?_ <;>
        simp [step, hresult, sent, answer, admits, closes]
  | retryPath side key built =>
    rcases retryDirectPath_moves (hattached side) key built with ⟨hresult, hmoved⟩ |
      ⟨join, hresult, hmoved⟩
    all_goals
      refine next_of_moved hattached hmoved trivial rfl ?_ ?_ ?_ ?_ <;>
        simp [step, hresult, sent, answer, admits, closes]
  | deliverJoin side join ingressPath address built reserved =>
    by_cases hsent : (side.peer, join) ∈ s.joins
    · have hnode : (step association s
          (.deliverJoin side join ingressPath address built reserved)).node =
          update s.node side
            ((s.node side).receivePathJoin (association side) ingressPath address join built
              reserved).1 := by
        simp [step, hsent]
      have hkept (hsame : nodeParty side (association side)
            ((s.node side).receivePathJoin (association side) ingressPath address join built
              reserved).1 = nodeParty side (association side) (s.node side)) :
          (step association s (.deliverJoin side join ingressPath address built reserved)).seen =
            s.seen := by
        simp only [step, hsent]
        refine if_neg fun hboth => hboth.2 ?_
        rw [mem_keys side, ← hsame, ← mem_keys side]
        exact hboth.1
      rcases receivePathJoin_moves (hattached side) ingressPath address join built reserved with
        ⟨hresult, hmoved⟩ | ⟨ack, hresult, hmoved⟩ | ⟨localCid, answered, hresult, hmoved⟩
      · refine next_of_moved hattached hmoved trivial hnode ?_ ?_ ?_ ?_
        · simp [step, hsent, sent]
        · simp [step, hsent, hresult, answer]
        · simp [hkept hmoved.moves.quiet_eq, admits]
        · simp [step, hsent, closes]
      · refine next_of_moved hattached hmoved trivial hnode ?_ ?_ ?_ ?_
        · simp [step, hsent, sent]
        · simp [step, hsent, hresult, answer]
        · simp [hkept hmoved.moves.replayed_eq, admits]
        · simp [step, hsent, closes]
      · refine next_of_moved hattached hmoved hsent hnode ?_ ?_ ?_ ?_
        · simp [step, hsent, sent]
        · simp [step, hsent, hresult]
        · obtain ⟨hafter, hbefore⟩ := hmoved.moves.admitted_new
          rw [← mem_keys] at hafter hbefore
          simp [step, hsent, hafter, hbefore, admits]
        · simp [step, hsent, closes]
    · exact ⟨by simpa [step, hsent] using hattached, .inr (by simp [step, hsent])⟩
  | deliverAck side ack ingressPath address =>
    by_cases hsent : (side.peer, ack) ∈ s.acks
    · have hnode : (step association s (.deliverAck side ack ingressPath address)).node =
          update s.node side
            ((s.node side).receivePathJoinAck (association side) ingressPath address ack).1 := by
        simp [step, hsent]
      rcases receivePathJoinAck_moves (hattached side) ingressPath address ack with hmoved | hmoved
      · refine next_of_moved hattached hmoved trivial hnode ?_ ?_ ?_ ?_ <;>
          simp [step, hsent, sent, answer, admits, closes]
      · refine next_of_moved hattached hmoved hsent hnode ?_ ?_ ?_ ?_ <;>
          simp [step, hsent, sent, answer, admits, closes]
    · exact ⟨by simpa [step, hsent] using hattached, .inr (by simp [step, hsent])⟩
  | closeCircuit side localId sequenceLeft =>
    rcases closeCircuit_moves (hattached side) localId sequenceLeft with ⟨hresult, hmoved⟩ |
      ⟨hresult, hmoved⟩
    · refine next_of_moved hattached hmoved trivial rfl ?_ ?_ ?_ ?_
      · simp [step, sent]
      · simp [step, answer]
      · simp [step, admits]
      cases hcall : (s.node side).closeCircuit (association side) localId sequenceLeft with
      | mk after result =>
        rw [hcall] at hresult
        cases result with
        | ok => cases hresult
        | error => simp [step, hcall, closes]
    · refine next_of_moved hattached hmoved trivial rfl ?_ ?_ ?_ ?_
      · simp [step, sent]
      · simp [step, answer]
      · simp [step, admits]
      cases hkey : keyOf (s.node side) (association side) localId with
      | none => simp [step, closes, hkey]
      | some key => simp [step, hresult, closes, hkey]
  | transport side pathId flags =>
    refine next_of_moved hattached (transport_moves (hattached side) pathId flags) trivial rfl ?_ ?_
      ?_ ?_ <;>
      simp [step, sent, answer, admits, closes]

end

end Steps

/-! ## Agreement -/

/-- The ids of path zero on the two sides. -/
def BasesMatch (association : Role → Nat) (s : State NextHop) : Prop :=
  ∀ near ∈ paths (s.node .client) (association .client),
    ∀ far ∈ paths (s.node .server) (association .server),
    near.circuitKey = some baseKey → far.circuitKey = some baseKey →
      near.localCid = far.peerCid ∧ near.peerCid = far.localCid

/-- Path zero sends to the id that first joins name. -/
def ReachedDirectly (association : Nat) (node : JoinNode NextHop) : Prop :=
  ∀ slot endpoint, node.associations association = some slot → slot.endpoint = some endpoint →
    slot.peerJoinCid.or (endpoint.peerConnectionIdOnPath 0) = endpoint.peerConnectionIdOnPath 0

structure JoinsAgree (association : Role → Nat) (start s : State NextHop) : Prop where
  onePath : ∀ side, (keys (s.node side) (association side)).Nodup
  agree : ∀ key : CircuitKey, ∀ near ∈ paths (s.node key.openerRole) (association key.openerRole),
    ∀ far ∈ paths (s.node key.openerRole.peer) (association key.openerRole.peer),
    near.circuitKey = some key → far.circuitKey = some key → near.peerCid.isSome →
      far.peerCid.isSome →
    (key = baseKey → BasesMatch association start) →
      near.localCid = far.peerCid ∧ near.peerCid = far.localCid
  /-- Of the joins that the opener sends. -/
  sameJoin : ∀ side first second, (side, first) ∈ s.joins → (side, second) ∈ s.joins →
    first.key.openerRole = side →
    first.key = second.key → first.transactionId = second.transactionId ∧
      first.receiveCid = second.receiveCid ∧
      (ReachedDirectly (association side) (start.node side) → first.joinCid = second.joinCid)
  notRecreated : ∀ side key, (side, key) ∈ s.closed →
    some key ∉ keys (s.node side) (association side)
  /-- A join for a key that was never admitted, with the right join id. -/
  overtaken : ∀ side join, (side.peer, join) ∈ s.joins → join.key.openerRole = side.peer →
    (side, join.key) ∉ s.seen →
    (∃ slot endpoint, (s.node side).associations (association side) = some slot ∧
      slot.endpoint = some endpoint ∧
      endpoint.localConnectionIdOnPath 0 = some join.joinCid) →
    ∀ address built reserved,
      ((s.node side).receivePathJoin (association side) 0 address join built reserved).2 =
          .error (.transport .bootstrapInvalid) ↔
        ∃ later, (side, later) ∈ s.seen ∧ later.openerRole = join.key.openerRole ∧
          join.key.sequence < later.sequence

section Runs

variable {association : Role → Nat} {start s : State NextHop} {side : Role} {path : CircuitPath}

theorem Established.attached (h : Established association s) (side : Role) :
    Attached side (association side) (s.node side) := by
  obtain ⟨slot, hslot, hfresh⟩ := h.fresh side
  obtain ⟨endpoint, path, hendpoint, -⟩ := hfresh.base
  exact ⟨slot, endpoint, hslot, hfresh.role, hendpoint⟩

theorem Established.inv (h : Established association s) : World.Inv (world association s)
    (world association s) := by
  have hjoins : (world association s).joins = [] := h.quiet.1
  have hacks : (world association s).acks = [] := h.quiet.2.1
  have hseen : (world association s).seen = [] := h.quiet.2.2.1
  have hclosed : (world association s).closed = [] := h.quiet.2.2.2
  refine ⟨fun side => ?_, fun side => ⟨rfl, rfl, rfl⟩, fun side join hjoin => ?_⟩
  · obtain ⟨slot, hslot, hfresh⟩ := h.fresh side
    obtain ⟨endpoint, path, hendpoint, hpaths, hkey, htransaction⟩ := hfresh.base
    have hparty : (world association s).party side = slotParty side slot := nodeParty_eq hslot
    have hids : ((world association s).party side).paths = [pathIds path] := by
      rw [hparty, slotParty_paths hendpoint, hpaths]
      rfl
    refine ⟨⟨pathIds path, by rw [hids]; rfl, hkey⟩, by rw [hids]; exact nodup_singleton _, ?_, ?_,
      ?_, ?_, ?_, ?_, ?_⟩
    · intro other hother
      rw [hids] at hother
      obtain rfl := mem_singleton.mp hother
      exact .base hkey htransaction
    · intro join hjoin
      exact absurd (hjoins ▸ hjoin) not_mem_nil
    · intro first second hfirst
      exact absurd (hjoins ▸ hfirst) not_mem_nil
    · intro ack hack
      exact absurd (hacks ▸ hack) not_mem_nil
    · intro key hkey
      exact absurd (hseen ▸ hkey) not_mem_nil
    · left
      rw [hparty]
      exact hfresh.highest
    · intro key hkey
      exact absurd (hclosed ▸ hkey) not_mem_nil
  · exact absurd (hjoins ▸ hjoin) not_mem_nil

theorem run_inv (hattached : ∀ side, Attached side (association side) (s.node side))
    (hinv : World.Inv (world association start) (world association s)) (steps : List Step) :
    (∀ side, Attached side (association side) ((Runs.exec (step association) s steps).node side)) ∧
      World.Inv (world association start)
      (world association (Runs.exec (step association) s steps)) := by
  induction steps generalizing s with
  | nil => exact ⟨hattached, hinv⟩
  | cons action steps ih =>
    obtain ⟨hattached', hnext⟩ := step_next hattached action
    refine ih hattached' ?_
    rcases hnext with hnext | hsame
    · exact hinv.next hnext
    · rw [hsame]
      exact hinv

theorem mem_world (hpath : path ∈ paths (s.node side) (association side)) :
    pathIds path ∈ ((world association s).party side).paths := by
  show _ ∈ (nodeParty _ _ _).paths
  rw [nodeParty_paths]
  exact mem_map_of_mem hpath

section

variable (hinv : World.Inv (world association start) (world association s))
include hinv

/-- A path with the base key is path zero, with the ids that it had at the start. -/
theorem base_of_start
    (hpath : path ∈ paths (s.node side) (association side))
    (hkey : path.circuitKey = some baseKey) :
    ∃ first ∈ paths (start.node side) (association side), pathIds first = pathIds path := by
  obtain ⟨base, hbase, hbaseKey⟩ := (hinv.sound side).base
  have hsame : base = pathIds path :=
    (hinv.sound side).path_unique (List.mem_of_head? hbase) (mem_world hpath)
      (hbaseKey.trans hkey.symm)
  rw [(hinv.base side).1] at hbase
  have hmem : base ∈ (nodeParty side (association side) (start.node side)).paths :=
    List.mem_of_head? hbase
  rw [nodeParty_paths, List.mem_map] at hmem
  obtain ⟨first, hfirst, hids⟩ := hmem
  exact ⟨first, hfirst, hids.trans hsame⟩

theorem agree_of_inv (key : CircuitKey) {near far : CircuitPath}
    (hnear : near ∈ paths (s.node key.openerRole) (association key.openerRole))
    (hfar : far ∈ paths (s.node key.openerRole.peer) (association key.openerRole.peer))
    (hnearKey : near.circuitKey = some key) (hfarKey : far.circuitKey = some key)
    (hknown : near.peerCid.isSome) (hstart : key = baseKey → BasesMatch association start) :
    near.localCid = far.peerCid ∧ near.peerCid = far.localCid := by
  by_cases hbase : key = baseKey
  · subst hbase
    obtain ⟨near₀, hnear₀, hnearIds⟩ := base_of_start hinv hnear hnearKey
    obtain ⟨far₀, hfar₀, hfarIds⟩ := base_of_start hinv hfar hfarKey
    have hmatch := hstart rfl near₀ hnear₀ far₀ hfar₀
      ((congrArg PathIds.key hnearIds).trans hnearKey)
      ((congrArg PathIds.key hfarIds).trans hfarKey)
    have hnearLocal : near₀.localCid = near.localCid := congrArg PathIds.localCid hnearIds
    have hnearPeer : near₀.peerCid = near.peerCid := congrArg PathIds.peerCid hnearIds
    have hfarLocal : far₀.localCid = far.localCid := congrArg PathIds.localCid hfarIds
    have hfarPeer : far₀.peerCid = far.peerCid := congrArg PathIds.peerCid hfarIds
    rw [← hnearLocal, ← hnearPeer, ← hfarLocal, ← hfarPeer]
    exact hmatch
  · obtain ⟨hlocal, hpeer⟩ :=
      hinv.agree rfl hbase (mem_world hnear) (mem_world hfar) hnearKey hfarKey
    obtain ⟨cid, hcid⟩ := isSome_iff_exists.mp hknown
    exact ⟨hlocal, hcid.trans (hpeer cid hcid).symm⟩

theorem joinCid_of_inv (hattached : Attached side (association side) (start.node side))
    (hdirect : ReachedDirectly (association side) (start.node side))
    (hjoin : (side, join) ∈ s.joins) :
    ((world association start).party side).basePeer = some join.joinCid := by
  obtain ⟨slot, endpoint, hslot, -, hendpoint⟩ := hattached
  have hparty : (world association start).party side = slotParty side slot := nodeParty_eq hslot
  have hor : (slotParty side slot).peerJoinCid.or (slotParty side slot).basePeer =
      (slotParty side slot).basePeer := by
    rw [basePeer_eq hendpoint]
    exact hdirect slot endpoint hslot hendpoint
  rcases hinv.joinCid side join hjoin with hcid | hcid
  · rw [hparty, hor] at hcid
    rw [hparty]
    exact hcid
  · exact hcid

theorem overtaken_of_inv (hsent : (side.peer, join) ∈ s.joins)
    (hrole : join.key.openerRole = side.peer) (hunseen : (side, join.key) ∉ s.seen) {slot : Slot}
    {endpoint : PathTable} (hslot : (s.node side).associations (association side) = some slot)
    (hside : slot.role = side) (hendpoint : slot.endpoint = some endpoint)
    (hjoin : endpoint.localConnectionIdOnPath 0 = some join.joinCid) (address : Address)
    (built reserved : Bool) :
    ((s.node side).receivePathJoin (association side) 0 address join built reserved).2 =
        .error (.transport .bootstrapInvalid) ↔
      ∃ later, (side, later) ∈ s.seen ∧ later.openerRole = join.key.openerRole ∧
        join.key.sequence < later.sequence := by
  have hsound := hinv.sound side
  have hparty : (world association s).party side = slotParty side slot := nodeParty_eq hslot
  have hpos : 1 ≤ join.key.sequence := ((hinv.sound side.peer).joins join hsent).1
  have hnew : ∀ path ∈ endpoint.paths, path.circuitKey ≠ some join.key := by
    intro path hpath hkey
    have hmem : pathIds path ∈ ((world association s).party side).paths := by
      rw [hparty, slotParty_paths hendpoint]
      exact mem_map_of_mem hpath
    cases hsound.origin _ hmem with
    | base hbase _ =>
      have hzero : baseKey = join.key := some.inj (hbase.symm.trans hkey)
      rw [← hzero] at hpos
      exact absurd hpos (by decide)
    | opened other hown hother =>
      obtain heq : other.key = join.key := some.inj (hother.symm.trans hkey)
      rw [heq, hrole] at hown
      exact side.peer_ne hown
    | admitted other _ _ hother _ hseen =>
      obtain heq : other.key = join.key := some.inj (hother.symm.trans hkey)
      exact hunseen (heq ▸ hseen)
  rw [receivePathJoin_overtaken hslot hendpoint (by rw [hside, hrole]; exact side.peer_ne) hjoin
    hnew, hrole]
  have hhighest : ((world association s).party side).highest = slot.highestRemoteCircuitSequence
      side.peer := by
    rw [hparty]
    rfl
  rw [← hhighest]
  constructor
  · intro hle
    rcases hsound.highest with hzero | hmem
    · omega
    refine ⟨_, hmem, rfl, lt_of_le_of_ne hle fun heq => hunseen ?_⟩
    -- the mark is a key that was admitted, and this one was not
    have hkey : join.key = ⟨side.peer, ((world association s).party side).highest⟩ := by
      show CircuitKey.mk join.key.openerRole join.key.sequence = _
      rw [hrole, show join.key.sequence = _ from heq]
    rw [hkey]
    exact hmem
  · rintro ⟨later, hlater, -, hlt⟩
    exact hlt.le.trans (hsound.seen later hlater).2.2

end

/-- The joins of two nodes that share an association, over every run. -/
theorem joins_agree (h : Established association start) (steps : List Step) :
    JoinsAgree association start (Runs.exec (step association) start steps) := by
  obtain ⟨hattached, hinv⟩ := run_inv h.attached h.inv steps
  refine ⟨fun side => ?_, ?_, ?_, ?_, ?_⟩
  · rw [keys_eq side]
    exact (hinv.sound side).keys
  · intro key near hnear far hfar hnearKey hfarKey hknown _ hstart
    exact agree_of_inv hinv key hnear hfar hnearKey hfarKey hknown hstart
  · intro side first second hfirst hsecond hrole hkey
    obtain ⟨htransaction, hcid⟩ := (hinv.sound side).sameJoin first second hfirst hsecond hrole hkey
    refine ⟨htransaction, hcid, fun hdirect => ?_⟩
    have hone := joinCid_of_inv hinv (h.attached side) hdirect hfirst
    have htwo := joinCid_of_inv hinv (h.attached side) hdirect hsecond
    exact some.inj (hone.symm.trans htwo)
  · intro side key hclosed
    rw [mem_keys side]
    exact ((hinv.sound side).closed key hclosed).1
  · rintro side join hsent hrole hunseen ⟨slot, endpoint, hslot, hendpoint, hjoin⟩ address built
      reserved
    obtain ⟨slot₀, -, hslot₀, hside, -⟩ := hattached side
    obtain rfl : slot = slot₀ := some.inj (hslot.symm.trans hslot₀)
    exact overtaken_of_inv hinv hsent hrole hunseen hslot hside hendpoint hjoin address built
      reserved

end Runs

def cidOf (value : Fin 100) : ConnectionId := ⟨value, by omega⟩

def establishedClient : JoinNode Unit :=
  (((JoinNode.new 16 4).addClient (cidOf 50) true).1).establish 0 (cidOf 60)

def establishedServer : JoinNode Unit :=
  ((JoinNode.new 16 4).addServer (cidOf 60) (cidOf 50) true).1

/-- A client under id 50 and a server under id 60, each with its association in slot zero. -/
def established : State Unit where
  node := update (fun _ => establishedServer) .client establishedClient
  joins := []
  acks := []
  seen := []
  closed := []

theorem established_established : Established (fun _ => 0) established where
  fresh := by
    intro side
    cases side with
    | client => exact ⟨_, rfl, rfl, ⟨_, _, rfl, rfl, rfl, rfl⟩, rfl, rfl⟩
    | server => exact ⟨_, rfl, rfl, ⟨_, _, rfl, rfl, rfl, rfl⟩, rfl, rfl⟩
  quiet := ⟨rfl, rfl, rfl, rfl⟩

def firstJoin : PathJoin := ⟨cidOf 60, ⟨.client, 1⟩, 1, cidOf 1⟩

def secondJoin : PathJoin := ⟨cidOf 60, ⟨.client, 2⟩, 2, cidOf 2⟩

/-- The client opens a path, its join is delivered twice and answered. -/
def joinedRun : List Step :=
  [.openPath .client (1, 1) true true, .deliverJoin .server firstJoin 0 (1, 1) true true,
    .retryPath .client ⟨.client, 1⟩ true, .deliverJoin .server firstJoin 0 (1, 1) true true,
    .deliverAck .client ⟨cidOf 1, ⟨.client, 1⟩, 1, cidOf 2⟩ 1 (1, 1)]

theorem joinedRun_agree : Established (fun _ => 0) established ∧
    JoinsAgree (fun _ => 0) established (Runs.exec (step fun _ => 0) established joinedRun) :=
  ⟨established_established, joins_agree established_established joinedRun⟩

/-- The client opens two paths, and the join of the second comes first. -/
def overtakingRun : List Step :=
  [.openPath .client (1, 1) true true, .openPath .client (2, 2) true true,
    .deliverJoin .server secondJoin 0 (2, 2) true true]

/-- The first join would have been admitted before the second came, and is refused now although its
key is new. -/
theorem overtakingRun_refuses :
    (.client, firstJoin) ∈ (Runs.exec (step fun _ => 0) established overtakingRun).joins ∧
      (.server, ⟨.client, 1⟩) ∉ (Runs.exec (step fun _ => 0) established overtakingRun).seen ∧
      (((Runs.exec (step fun _ => 0) established (overtakingRun.take 2)).node
        .server).receivePathJoin 0 0 (1, 1) firstJoin true true).2.toOption.isSome ∧
      (((Runs.exec (step fun _ => 0) established overtakingRun).node .server).receivePathJoin 0
        0 (1, 1) firstJoin true true).2 = .error (.transport .bootstrapInvalid) := by
  refine ⟨by decide +kernel, by decide +kernel, by decide +kernel, rfl⟩

end JoinPair

end QuicLite
