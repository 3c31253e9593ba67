import QuicLite.Node.Writes

/-!
# Failed writes

When is a write that returns an error as if it had not been made? Before a path takes the packet
every error leaves only pacing behind. After that the commitments of the endpoint stand, so the
packet must not fail on its way to the bearer: the path that takes it needs a registered bearer with
a free pending slot. Nothing ensures this. An unregistered bearer does not disqualify a path, and
the events that are drained during submission can fill the slot.
-/

namespace QuicLite

open List Option Function EndpointState

namespace StreamNode

variable {P : Nat}

open BearerNode (State)

/-! ## Frames -/

def commitmentsOf (node : State P) (association : Nat) : Option Commitments :=
  (node.associations association).map commitments

variable (node : State P)

/-- No association has used up the send orders of a path. -/
def Ordered (node : State P) : Prop :=
  ∀ association endpoint, node.associations association = some endpoint → endpoint.OrderInv

/-- Nothing was committed or taken back on the way from one node to another, and the send orders
last. -/
structure Quiet (node node' : State P) : Prop where
  commitments : commitmentsOf node' = commitmentsOf node
  ordered : Ordered node → Ordered node'

theorem Quiet.trans {node node' node'' : State P} (h : Quiet node node') (h' : Quiet node' node'') :
    Quiet node node'' :=
  ⟨h'.commitments.trans h.commitments, fun hordered => h'.ordered (h.ordered hordered)⟩

theorem Ordered.onAssociation {node : State P} (h : Ordered node) {association : Nat}
    {f : EndpointState P → EndpointState P} (hf : ∀ e, e.OrderInv → (f e).OrderInv) :
    Ordered (node.onAssociation association f) := by
  intro other endpoint' hendpoint'
  obtain ⟨endpoint, hendpoint, ⟨-, rfl⟩ | ⟨-, rfl⟩⟩ := State.onAssociation_some hendpoint'
  · exact hf endpoint (h other endpoint hendpoint)
  · exact h other endpoint' hendpoint

theorem onAssociation_quiet (association : Nat) (op : Op)
    (hop : ∀ e : EndpointState P, (e.step op).commitments = e.commitments) :
    Quiet node (node.onAssociation association fun e => e.step op) where
  commitments := by
    funext other
    show (update node.associations association ((node.associations association).map _) other).map
      _ =
      (node.associations other).map _
    by_cases h : other = association
    · subst h
      rw [update_self]
      cases node.associations other with
      | none => rfl
      | some e => exact congrArg some (hop e)
    · rw [update_of_ne h]
  ordered h := h.onAssociation fun _ he => he.step op

theorem setPending_quiet (bearer : Nat) (pending : Option (Packet × Option PacketAcceptance)) :
    Quiet node (node.setPending bearer pending) := ⟨rfl, id⟩

variable (acceptance : Option PacketAcceptance)

theorem recordPacketSendFailure_quiet : Quiet node (node.recordPacketSendFailure acceptance) := by
  cases acceptance with
  | none => exact ⟨rfl, id⟩
  | some tag => exact onAssociation_quiet node _ (.packetSubmissionFailed _) fun e =>
    e.packetSubmissionFailed_commitments _

theorem recordPacketAcceptance_quiet : Quiet node (node.recordPacketAcceptance acceptance) := by
  cases acceptance with
  | none => exact ⟨rfl, id⟩
  | some tag => exact onAssociation_quiet node _ (.packetSubmissionAccepted _ _) fun e =>
    e.packetSubmissionAccepted_commitments _ _

theorem recordPacketBlocked_quiet : Quiet node (node.recordPacketBlocked acceptance) := by
  cases acceptance with
  | none => exact ⟨rfl, id⟩
  | some tag => exact onAssociation_quiet node _ (.packetSubmissionBlocked _) fun e =>
    e.packetSubmissionBlocked_commitments _

theorem submitNodePacket_quiet (egress : NodeEgress) (bearer : Nat) (verdict : Verdict) :
    Quiet node (node.submitNodePacket egress bearer verdict) := by
  unfold State.submitNodePacket
  split
  · exact recordPacketSendFailure_quiet node _
  split
  · exact recordPacketSendFailure_quiet node _
  cases verdict with
  | accepted => exact recordPacketAcceptance_quiet node _
  | wouldBlock => exact (setPending_quiet node bearer _).trans (recordPacketBlocked_quiet _ _)

theorem retryPending_quiet (bearer : Nat) (verdict : Verdict) :
    Quiet node (node.retryPending bearer verdict) := by
  unfold State.retryPending
  split
  · exact ⟨rfl, id⟩
  split
  · exact (setPending_quiet node bearer none).trans (recordPacketAcceptance_quiet _ _)
  · exact ⟨rfl, id⟩

/-- No event between the packets of a write commits or takes back anything. -/
theorem drain_quiet (events : List Event) : Quiet node (drainBearerEvents node events) := by
  induction events generalizing node with
  | nil => exact ⟨rfl, id⟩
  | cons event events ih =>
    refine Quiet.trans ?_ (ih (drainEvent node event))
    cases event with
    | completed acceptance failed =>
      cases failed with
      | false => exact ⟨rfl, id⟩
      | true => exact recordPacketSendFailure_quiet node _
    | ready bearer verdict => exact retryPending_quiet node bearer verdict
    | copyStream association packetNumber pathId capacity =>
      exact onAssociation_quiet node _
        (.duplicateStreamPacket packetNumber pathId capacity) fun e =>
        e.duplicateStreamPacketOnPath_commitments _ _ _
    | copyCredit association source pathId includeAck includeMaxData count includeMaxStreams
        capacity =>
      exact onAssociation_quiet node _
        (.duplicateCreditControl source pathId includeAck includeMaxData count includeMaxStreams
          capacity) fun e =>
        e.duplicateCreditControlOnPath_commitments _ _ _ _ _ _ _
    | submit egress bearer verdict => exact submitNodePacket_quiet node egress bearer verdict

theorem recordPacketSendFailure_bearers :
    (node.recordPacketSendFailure acceptance).bearers = node.bearers := by cases acceptance <;> rfl

theorem recordPacketAcceptance_bearers :
    (node.recordPacketAcceptance acceptance).bearers = node.bearers := by cases acceptance <;> rfl

theorem recordPacketBlocked_bearers :
    (node.recordPacketBlocked acceptance).bearers = node.bearers := by cases acceptance <;> rfl

theorem drainEvent_bearers {node node' : State P} (h : node.bearers = node'.bearers)
    (event : Event) :
    (drainEvent node event).bearers = (drainEvent node' event).bearers := by
  have hfind : ∀ bearer, node.bearer? bearer = node'.bearer? bearer := by
    intro bearer
    rw [State.bearer?, State.bearer?, h]
  have hpending : ∀ bearer pending,
      (node.setPending bearer pending).bearers = (node'.setPending bearer pending).bearers := by
    intro bearer pending
    show map _ _ = map _ _
    rw [h]
  cases event with
  | completed acceptance failed =>
    cases failed with
    | false => exact h
    | true =>
      show (node.recordPacketSendFailure acceptance).bearers =
        (node'.recordPacketSendFailure acceptance).bearers
      rw [recordPacketSendFailure_bearers, recordPacketSendFailure_bearers, h]
  | ready bearer verdict =>
    show (node.retryPending bearer verdict).bearers = (node'.retryPending bearer verdict).bearers
    unfold State.retryPending
    rw [hfind]
    split
    · exact h
    split
    · rw [recordPacketAcceptance_bearers, recordPacketAcceptance_bearers, hpending]
    · exact h
  | copyStream association packetNumber pathId capacity => exact h
  | copyCredit association source pathId includeAck includeMaxData count includeMaxStreams
      capacity => exact h
  | submit egress bearer verdict =>
    show (node.submitNodePacket egress bearer verdict).bearers =
      (node'.submitNodePacket egress bearer verdict).bearers
    unfold State.submitNodePacket
    rw [hfind]
    split
    · rw [recordPacketSendFailure_bearers, recordPacketSendFailure_bearers, h]
    split
    · rw [recordPacketSendFailure_bearers, recordPacketSendFailure_bearers, h]
    cases verdict with
    | accepted =>
      exact (recordPacketAcceptance_bearers ..).trans
        (h.trans (recordPacketAcceptance_bearers ..).symm)
    | wouldBlock =>
      exact (recordPacketBlocked_bearers ..).trans
        ((hpending ..).trans (recordPacketBlocked_bearers ..).symm)

/-- What events do to the bearers does not depend on the associations. -/
theorem drain_bearers {node node' : State P} (h : node.bearers = node'.bearers)
    (events : List Event) :
    (drainBearerEvents node events).bearers = (drainBearerEvents node' events).bearers := by
  induction events generalizing node node' with
  | nil => exact h
  | cons event events ih => exact ih (drainEvent_bearers h event)

/-! ## Send orders -/

theorem Ordered.update {node : State P} (h : Ordered node) (association : Nat)
    (endpoint : Option (EndpointState P)) (hendpoint : ∀ e, endpoint = some e → e.OrderInv) :
    Ordered { node with
      associations := Function.update node.associations association endpoint } := by
  intro other e he
  change Function.update _ _ _ _ = _ at he
  by_cases heq : other = association
  · subst heq
    rw [update_self] at he
    exact hendpoint e he
  · rw [update_of_ne heq] at he
    exact h other e he

theorem Ordered.suspendPaths {node : State P} (h : Ordered node) (paths : List (Nat × Nat)) :
    Ordered (node.suspendPaths paths) := by
  induction paths generalizing node with
  | nil => exact h
  | cons entry paths ih =>
    obtain ⟨association, pathId⟩ := entry
    apply ih
    apply h.onAssociation
    intro e he
    have hstatus := (he.step (.suspendPath pathId)).step
      (.config (.circuit pathId (.queueStatus .standby)))
    exact hstatus

theorem Ordered.step {node : State P} (h : Ordered node) (step : BearerNode.Step) :
    Ordered (node.step step) := by
  cases step with
  | insert role limits maxPacketSize historyCapacity =>
    have hinsert := h.update node.nextAssociation (some _) fun e he => by
      rw [← some.inj he]
      exact .new role limits maxPacketSize historyCapacity
    exact hinsert
  | remove association => exact h.update association none (by simp)
  | call association op =>
    show Ordered (node.call association op)
    unfold State.call
    split
    · exact h
    rename_i endpoint hendpoint
    split
    · exact h
    have hcalled := h.update association (some (endpoint.step op)) fun e he => by
      rw [← some.inj he]
      exact (h association endpoint hendpoint).step op
    extract_lets outcome node'
    split
    · exact hcalled
    · exact hcalled
  | submit bearer verdict =>
    cases hegress : node.egress with
    | nil =>
      have hidle : node.step (.submit bearer verdict) = node := by simp only [State.step, hegress]
      rw [hidle]
      exact h
    | cons egress rest =>
      have hpopped : Ordered { node with egress := rest } := h
      have hsubmit : node.step (.submit bearer verdict) =
          State.submitNodePacket { node with egress := rest } egress bearer verdict := by
        simp only [State.step, hegress]
      rw [hsubmit]
      exact (submitNodePacket_quiet _ egress bearer verdict).ordered hpopped
  | discard => exact h
  | ready bearer verdict => exact (retryPending_quiet node bearer verdict).ordered h
  | completed acceptance failed =>
    show Ordered (if failed then node.recordPacketSendFailure acceptance else node)
    split
    · exact (recordPacketSendFailure_quiet node acceptance).ordered h
    · exact h
  | register => exact h
  | removeBearer id suspended =>
    show Ordered (node.removeBearer id suspended)
    unfold State.removeBearer
    split
    · have hremaining : Ordered { node with
          bearers := node.bearers.filter fun entry => entry.id != id } := h
      exact hremaining.suspendPaths suspended
    · exact h
  | advanceClock nowUs => exact h

/-! ## One path -/

/-- Why the endpoint turns down a frame on a path. -/
def payloadRefusal (fallback : ConnectionId) (endpoint : EndpointState P) (pathId : Nat)
    (frame : StreamFrame) (capacity : Nat) : Option Error :=
  let opening := endpoint.openSendStream frame.id u64Max
  match endpoint.receive.role with
  | .client =>
    match opening.2 with
    | .error e => some e
    | .ok () =>
      opening.1.streamRefusal pathId ((endpoint.peerConnectionIdOnPath pathId).getD fallback) frame
        capacity
  | .server =>
    match opening.1.peerConnectionIdOnPath pathId with
    | none => some .wrongConnectionId
    | some peer => opening.1.streamRefusal pathId peer frame capacity

open EndpointState

section Payload

variable {fallback : ConnectionId} {endpoint : EndpointState P} {pathId : Nat} {frame : StreamFrame}
    {capacity : Nat}

/-- A payload is refused before its packet is built, or as its packet is. -/
theorem encodeStreamPayload_cases (owned : Bool) :
    (∃ e, payloadRefusal fallback endpoint pathId frame capacity = some e ∧
      encodeStreamPayload fallback owned endpoint pathId frame capacity =
        ((endpoint.openSendStream frame.id u64Max).1, .error e)) ∨
    ∃ dcid, payloadRefusal fallback endpoint pathId frame capacity =
        (endpoint.openSendStream frame.id u64Max).1.streamRefusal pathId dcid frame capacity ∧
      encodeStreamPayload fallback owned endpoint pathId frame capacity =
        if owned then (endpoint.openSendStream frame.id u64Max).1.encodeStreamPacketFromOwnedOnPath
          none pathId dcid frame capacity
        else (endpoint.openSendStream frame.id u64Max).1.encodeStreamPacketOnPath pathId dcid frame
          capacity := by
  unfold payloadRefusal encodeStreamPayload
  rcases endpoint.openSendStream frame.id u64Max with ⟨opened, answer⟩
  cases hrole : endpoint.receive.role with
  | client =>
    cases answer with
    | error e => exact .inl ⟨e, rfl, rfl⟩
    | ok _ => exact .inr ⟨_, rfl, rfl⟩
  | server =>
    simp only
    cases hpeer : opened.peerConnectionIdOnPath pathId with
    | none => exact .inl ⟨_, rfl, rfl⟩
    | some peer => exact .inr ⟨peer, rfl, rfl⟩

theorem encodeStreamPayload_refused (owned : Bool) {e : Error}
    (h : payloadRefusal fallback endpoint pathId frame capacity = some e) :
    (encodeStreamPayload fallback owned endpoint pathId frame capacity).2 = .error e ∧
      RefusedOn (endpoint.openSendStream frame.id u64Max).1
        (encodeStreamPayload fallback owned endpoint pathId frame capacity).1 pathId := by
  rcases encodeStreamPayload_cases owned with ⟨e', hrefused, heq⟩ | ⟨dcid, hrefused, heq⟩
  · obtain rfl := some.inj (hrefused.symm.trans h)
    rw [heq]
    exact ⟨rfl, .refl _ pathId⟩
  · rw [heq]
    have hrefusal := hrefused.symm.trans h
    cases owned with
    | false => exact encode_refused true hrefusal
    | true => exact encodeOwned_refused hrefusal

/-- Opening the stream leaves the send order of each path. -/
theorem opened_order (horder : (endpoint.pathAt pathId).nextSendOrder < u64Max) (id : Nat) :
    ((endpoint.openSendStream id u64Max).1.pathAt pathId).nextSendOrder < u64Max := by
  obtain ⟨send, receive, hrest⟩ := endpoint.openSendStream_rest id u64Max
  rw [hrest]
  exact horder

section

variable (h : payloadRefusal fallback endpoint pathId frame capacity = none)
include h

section

variable (horder : (endpoint.pathAt pathId).nextSendOrder < u64Max)
include horder

theorem encodeStreamPayload_taken :
    ∃ packet number slot, (encodeStreamPayload fallback false endpoint pathId frame capacity).2 =
      .ok (packet, number) ∧
      endpoint.freeRangeSlot = some slot ∧ frame.offset + frame.data.length ≤ u64Max ∧
      (encodeStreamPayload fallback false endpoint pathId frame capacity).1.sendBuffer =
        endpoint.sendBuffer.set slot (some (retainFrame frame number true)) := by
  rcases encodeStreamPayload_cases false with ⟨e, hrefused, -⟩ | ⟨dcid, hrefused, heq⟩
  · cases hrefused.symm.trans h
  rw [heq]
  have htaken := encode_taken true (hrefused.symm.trans h) (opened_order horder frame.id)
  obtain ⟨send, receive, hrest⟩ := endpoint.openSendStream_rest frame.id u64Max
  rw [hrest] at htaken ⊢
  exact htaken

theorem encodeStreamPayload_taken_owned :
    ∃ sent, (encodeStreamPayload fallback true endpoint pathId frame capacity).2 = .ok sent := by
  rcases encodeStreamPayload_cases true with ⟨e, hrefused, -⟩ | ⟨dcid, hrefused, heq⟩
  · cases hrefused.symm.trans h
  rw [heq]
  exact encodeOwned_taken (hrefused.symm.trans h) (opened_order horder frame.id)

end

end

end Payload

/-- The endpoint after some paths were tried and refused the frame: apart from their pacing, it only
has the stream opened. -/
structure Tried (id : Nat) (endpoint tried : EndpointState P) (paths : List Nat) : Prop where
  rest : (tried.openSendStream id u64Max).1.unpaced = (endpoint.openSendStream id u64Max).1.unpaced
  answer : (tried.openSendStream id u64Max).2 = (endpoint.openSendStream id u64Max).2
  others : ∀ pathId, pathId ∉ paths → tried.paths[pathId]? = endpoint.paths[pathId]?

namespace Tried

variable {id : Nat} {endpoint tried tried' : EndpointState P} {paths : List Nat}

theorem refl (id : Nat) (endpoint : EndpointState P) : Tried id endpoint endpoint [] :=
  ⟨rfl, rfl, fun _ _ => rfl⟩

theorem commitments (h : Tried id endpoint tried paths) :
    tried.commitments = endpoint.commitments := by
  rw [← tried.openSendStream_commitments id u64Max, ← endpoint.openSendStream_commitments id u64Max]
  exact eq_of_unpaced EndpointState.commitments (fun _ => rfl) h.rest

theorem opened_paths (s : EndpointState P) (id : Nat) :
    (s.openSendStream id u64Max).1.paths = s.paths := by
  obtain ⟨send, receive, hrest⟩ := s.openSendStream_rest id u64Max
  rw [hrest]

theorem refused (h : Tried id endpoint tried paths) {pathId : Nat}
    (hrefused : RefusedOn (tried.openSendStream id u64Max).1 tried' pathId) :
    Tried id endpoint tried' (pathId :: paths) := by
  -- opening does not read the pacing, and is idempotent
  have hagain : tried'.unpaced.openSendStream id u64Max =
      ((tried.openSendStream id u64Max).1.unpaced, (tried.openSendStream id u64Max).2) := by
    rw [hrefused.rest, openSendStream_unpaced, tried.openSendStream_again]
  rw [openSendStream_unpaced] at hagain
  refine ⟨(congrArg Prod.fst hagain).trans h.rest, (congrArg Prod.snd hagain).trans h.answer, ?_⟩
  intro other hother
  rw [mem_cons, not_or] at hother
  rw [hrefused.others other hother.1, opened_paths, h.others other hother.2]

/-- A path that was not tried refuses the frame, or takes it, as at the start. -/
theorem payloadRefusal_eq {frame : StreamFrame} (h : Tried frame.id endpoint tried paths)
    {pathId : Nat} (hpath : pathId ∉ paths) (fallback : ConnectionId) (capacity : Nat) :
    payloadRefusal fallback tried pathId frame capacity = payloadRefusal fallback endpoint pathId
      frame capacity := by
  have hrole : tried.receive.role = endpoint.receive.role := by
    rw [← tried.openSendStream_role frame.id u64Max, ← endpoint.openSendStream_role frame.id u64Max]
    exact eq_of_unpaced (fun s => s.receive.role) (fun _ => rfl) h.rest
  have hpeer : ∀ s : EndpointState P,
      (s.openSendStream frame.id u64Max).1.peerConnectionIdOnPath pathId =
      s.peerConnectionIdOnPath pathId := by
    intro s
    obtain ⟨send, receive, hrest⟩ := s.openSendStream_rest frame.id u64Max
    rw [hrest]
    rfl
  have hpeers : tried.peerConnectionIdOnPath pathId = endpoint.peerConnectionIdOnPath pathId := by
    rw [← hpeer tried, ← hpeer endpoint]
    exact eq_of_unpaced (fun s => s.peerConnectionIdOnPath pathId)
      (fun s => s.peerConnectionIdOnPath_unpaced pathId) h.rest
  have hrefusal : ∀ dcid, (tried.openSendStream frame.id u64Max).1.streamRefusal pathId dcid frame
      capacity =
      (endpoint.openSendStream frame.id u64Max).1.streamRefusal pathId dcid frame capacity := by
    intro dcid
    apply streamRefusal_congr h.rest
    rw [opened_paths, opened_paths, h.others pathId hpath]
  unfold payloadRefusal
  simp only [hrole, h.answer, hpeer, hpeers, hrefusal]

end Tried

/-! ## The paths in turn -/

section Attempts

variable (wiring : Wiring) (outcomes : Outcomes)

/-- Why an attempt on one path fails, in the order of its checks. -/
def attemptRefusal (owned : Bool) (node : State P) (association : Nat) (endpoint : EndpointState P)
    (frame : StreamFrame) (pathId : Nat) : Option QuicNodeEgressError :=
  match wiring.bearerOf association pathId with
  | none => some .missingEgressAddress
  | some bearer =>
    if wiring.closing association || !(endpoint.pathAt pathId).isUsableForData then
      some (.transport .invalid)
    else if owned && !(node.bearer? bearer).any (canSubmit outcomes) then some .bearerBusy
    else
      match outcomes.pool pathId with
      | .unavailable => some .poolUnavailable
      | .short => some (if owned then .invalidPoolLayout else .transport .bufferTooSmall)
      | .buffer =>
        (payloadRefusal (wiring.fallbackDestination association) endpoint pathId frame
          wiring.packetSize).map .transport

/-- The path that takes the frame: the first that is not blocked, unless it fails for another
reason. -/
def taker (refusal : Nat → Option QuicNodeEgressError) : List Nat → Option Nat
  | [] => none
  | pathId :: rest =>
    match refusal pathId with
    | none => some pathId
    | some (.transport .blocked) => taker refusal rest
    | some _ => none

variable {endpoint : EndpointState P}

variable {node} {association : Nat}

theorem withEndpoint_self
    (h : node.associations association = some endpoint) :
    withEndpoint node association endpoint = node := by
  unfold withEndpoint
  rw [← h, update_eq_self]

theorem withEndpoint_self_apply (node : State P) (association : Nat) (endpoint : EndpointState P) :
    (withEndpoint node association endpoint).associations association = some endpoint :=
  update_self ..

theorem withEndpoint_withEndpoint (node : State P) (association : Nat) (e e' : EndpointState P) :
    withEndpoint (withEndpoint node association e) association e' =
      withEndpoint node association e' := by
  unfold withEndpoint
  rw [update_idem]

theorem withEndpoint_commitments {endpoint' : EndpointState P}
    (h : node.associations association = some endpoint)
    (hcommitments : endpoint'.commitments = endpoint.commitments) :
    commitmentsOf (withEndpoint node association endpoint') = commitmentsOf node := by
  funext other
  show (update node.associations association (some endpoint') other).map _ =
    (node.associations other).map _
  by_cases heq : other = association
  · subst heq
    rw [update_self, h]
    exact congrArg some hcommitments
  · rw [update_of_ne heq]

section Path

variable {wiring outcomes} {node : State P} {association : Nat} {endpoint : EndpointState P}
    {frame : StreamFrame} {pathId : Nat} {owned : Bool}

/-- An attempt is refused before its frame is encoded, or as its payload is. -/
theorem sendStreamOnPath_cases :
    (∃ e, attemptRefusal wiring outcomes owned node association endpoint frame pathId = some e ∧
      sendStreamOnPath wiring outcomes owned association frame pathId
        (withEndpoint node association endpoint) =
        (withEndpoint node association endpoint, .error e)) ∨
    ∃ bearer, wiring.bearerOf association pathId = some bearer ∧
      attemptRefusal wiring outcomes owned node association endpoint frame pathId =
        (payloadRefusal (wiring.fallbackDestination association) endpoint pathId frame
          wiring.packetSize).map .transport ∧
      sendStreamOnPath wiring outcomes owned association frame pathId
        (withEndpoint node association endpoint) =
        let encoded := encodeStreamPayload (wiring.fallbackDestination association)
          owned endpoint pathId frame
          wiring.packetSize
        match encoded.2 with
        | .error e => (withEndpoint node association encoded.1, .error (.transport e))
        | .ok (packet, _) => (withEndpoint node association encoded.1, .ok (packet, bearer)) := by
  unfold attemptRefusal sendStreamOnPath
  rw [withEndpoint_self_apply]
  cases hbearer : wiring.bearerOf association pathId with
  | none => exact .inl ⟨_, rfl, rfl⟩
  | some bearer =>
  have hfind : (withEndpoint node association endpoint).bearer? bearer = node.bearer? bearer :=
    rfl
  simp only [hfind]
  by_cases hclosed : (wiring.closing association || !(endpoint.pathAt pathId).isUsableForData) =
    true
  · rw [if_pos hclosed, if_pos hclosed]
    exact .inl ⟨_, rfl, rfl⟩
  by_cases hbusy : (owned && !(node.bearer? bearer).any (canSubmit outcomes)) = true
  · rw [if_neg hclosed, if_pos hbusy, if_neg hclosed, if_pos hbusy]
    exact .inl ⟨_, rfl, rfl⟩
  rw [if_neg hclosed, if_neg hbusy, if_neg hclosed, if_neg hbusy]
  cases outcomes.pool pathId with
  | unavailable => exact .inl ⟨_, rfl, rfl⟩
  | short => exact .inl ⟨_, rfl, rfl⟩
  | buffer =>
    refine .inr ⟨bearer, rfl, rfl, ?_⟩
    generalize encodeStreamPayload (wiring.fallbackDestination association) owned endpoint pathId
      frame wiring.packetSize = encoded
    obtain ⟨_, _ | ⟨_, _⟩⟩ := encoded <;> simp only [withEndpoint_withEndpoint]

theorem sendStreamOnPath_refused {e : QuicNodeEgressError}
    (hrefusal : attemptRefusal wiring outcomes owned node association endpoint frame pathId =
      some e) : ∃ endpoint', sendStreamOnPath wiring outcomes owned association frame pathId
        (withEndpoint node association endpoint) =
          (withEndpoint node association endpoint', .error e) ∧
      (endpoint' = endpoint ∨ RefusedOn (endpoint.openSendStream frame.id u64Max).1
        endpoint' pathId) := by
  rcases sendStreamOnPath_cases with ⟨e', hrefused, heq⟩ | ⟨bearer, -, hrefused, heq⟩
  · obtain rfl := some.inj (hrefused.symm.trans hrefusal)
    exact ⟨endpoint, heq, .inl rfl⟩
  · obtain ⟨error, hpayload, rfl⟩ := map_eq_some_iff.mp (hrefused.symm.trans hrefusal)
    obtain ⟨hresult, hencoded⟩ := encodeStreamPayload_refused owned hpayload
    refine ⟨_, heq.trans ?_, .inr hencoded⟩
    simp only [hresult]

end Path

/-- The attempts follow the refusals at the start: they end with the taker, or with an error that
leaves nothing but pacing behind. -/
theorem sendOnFirst_spec (node : State P) (association : Nat) {frame : StreamFrame}
    (owned : Bool) (exhausted : QuicNodeEgressError) {paths done : List Nat}
    {tried : EndpointState P} (hnodup : paths.Nodup) (hdone : ∀ pathId ∈ paths, pathId ∉ done)
    (htried : Tried frame.id endpoint tried done) :
    let refusal := attemptRefusal wiring outcomes owned node association endpoint frame
    let outcome := sendOnFirst (sendStreamOnPath wiring outcomes owned association frame)
      exhausted paths
      (withEndpoint node association tried)
    (taker refusal paths = none ∧ ∃ tried' done' e, Tried frame.id endpoint tried' done' ∧
      outcome = (withEndpoint node association tried', .error e)) ∨
    ∃ pathId tried' done', taker refusal paths = some pathId ∧
      Tried frame.id endpoint tried' done' ∧ pathId ∉ done' ∧
      attemptRefusal wiring outcomes owned node association tried' frame pathId = none ∧
      ((sendStreamOnPath wiring outcomes owned association frame pathId
        (withEndpoint node association tried')).2 ≠ .error (.transport .blocked) →
        outcome = sendStreamOnPath wiring outcomes owned association frame pathId
          (withEndpoint node association tried')) := by
  intro refusal
  induction paths generalizing done tried with
  | nil => exact .inl ⟨rfl, tried, done, exhausted, htried, rfl⟩
  | cons pathId rest ih =>
    have hpath := hdone pathId mem_cons_self
    obtain ⟨hnew, hrest⟩ := nodup_cons.mp hnodup
    -- an untried path answers as at the start
    have hsame : attemptRefusal wiring outcomes owned node association tried frame pathId =
        refusal pathId := by
      unfold refusal attemptRefusal
      simp only [htried.payloadRefusal_eq hpath, pathAt_congr (htried.others pathId hpath)]
    cases hrefusal : refusal pathId with
    | none =>
      refine .inr ⟨pathId, tried, done, by rw [taker, hrefusal], htried, hpath,
        hsame.trans hrefusal, ?_⟩
      intro hunblocked
      unfold sendOnFirst
      split
      · rename_i heq
        exact absurd (congrArg Prod.snd heq) hunblocked
      · rfl
    | some e =>
      obtain ⟨tried', heq, hcase⟩ := sendStreamOnPath_refused (hsame.trans hrefusal)
      have htried' : Tried frame.id endpoint tried' (pathId :: done) := by
        rcases hcase with rfl | hrefused
        · refine ⟨htried.rest, htried.answer, fun other hother => htried.others other ?_⟩
          exact fun hmem => hother (mem_cons_of_mem _ hmem)
        · exact htried.refused hrefused
      by_cases hblocked : e = .transport .blocked
      · subst hblocked
        have hlater : ∀ other ∈ rest, other ∉ pathId :: done := by
          intro other hother hmem
          rcases mem_cons.mp hmem with rfl | hmem
          · exact hnew hother
          · exact hdone other (mem_cons_of_mem _ hother) hmem
        have hnext := ih hrest hlater htried'
        rw [taker, hrefusal]
        simp only [sendOnFirst, heq]
        exact hnext
      · refine .inl ⟨?_, tried', pathId :: done, e, htried', ?_⟩
        · rw [taker, hrefusal]
          split
          · rename_i h
            cases h
          · rename_i h
            exact absurd (some.inj h) hblocked
          · rfl
        simp only [sendOnFirst, heq]
        split
        · rename_i h
          cases h
          exact absurd rfl hblocked
        · rfl

/-- No path is tried twice. -/
theorem candidates_nodup (node : State P) (association : Nat) (endpoint : EndpointState P) :
    (candidates wiring outcomes node association endpoint).Nodup := by
  have hpaths : (dataPaths wiring association endpoint).Pairwise fun a b => a.1 ≠ b.1 := by
    refine .filterMap _ ?_ (nodup_range (n := endpoint.paths.length))
    intro p q hne entry hentry entry' hentry'
    have hfirst : ∀ pathId entry,
        (if !(endpoint.pathAt pathId).isUsableForData || wiring.closing association then none
        else (wiring.bearerOf association pathId).map fun bearer => (pathId, bearer)) = some entry →
          entry.1 = pathId := by
      intro pathId entry h
      split at h
      · cases h
      · obtain ⟨bearer, -, rfl⟩ := map_eq_some_iff.mp h
        rfl
    rw [hfirst p entry hentry, hfirst q entry' hentry']
    exact hne
  have hcandidates : ((dataPaths wiring association endpoint).filterMap
      (candidate? outcomes node endpoint)).Pairwise
      fun a b => a.pathId ≠ b.pathId := by
    refine .filterMap _ ?_ hpaths
    intro a b hne c hc c' hc'
    have hid : ∀ entry c, candidate? outcomes node endpoint entry = some c →
        c.pathId = entry.1 := by
      intro entry c h
      unfold candidate? at h
      extract_lets path count rotation ready at h
      clear_value ready
      cases ready with
      | none => cases h
      | some ready =>
        simp only at h
        split at h
        · cases h
        · rw [← some.inj h]
    rw [hid a c hc, hid b c' hc']
    exact hne
  have hnodup := pairwise_map.mpr hcandidates
  exact ((perm_insertionSort Candidate.le _).map Candidate.pathId).nodup_iff.mpr hnodup

section

variable (hlive : node.associations association = some endpoint)
include hlive

theorem sendStream_eq (owned : Bool) (frame : StreamFrame) :
    ∃ exhausted, sendStream wiring outcomes owned node association frame =
      sendOnFirst (sendStreamOnPath wiring outcomes owned association frame) exhausted
        (candidates wiring outcomes node association endpoint)
        (withEndpoint node association endpoint) := by
  rw [withEndpoint_self hlive]
  unfold sendStream
  rw [hlive]
  exact ⟨_, rfl⟩

/-- A write that no path takes leaves every commitment as it was. -/
theorem sendStream_untaken (owned : Bool) (frame : StreamFrame)
    (htaker : taker (attemptRefusal wiring outcomes owned node association endpoint frame)
      (candidates wiring outcomes node association endpoint) = none) :
    (∃ e, (sendStream wiring outcomes owned node association frame).2 = .error e) ∧
      commitmentsOf (sendStream wiring outcomes owned node association frame).1 =
        commitmentsOf node := by
  obtain ⟨exhausted, hsend⟩ := sendStream_eq wiring outcomes hlive owned frame
  rw [hsend]
  rcases sendOnFirst_spec wiring outcomes node association owned exhausted
    (candidates_nodup wiring outcomes node association endpoint) (by simp)
      (.refl frame.id endpoint) with
    ⟨-, tried', done', e, htried, heq⟩ | ⟨pathId, tried', done', hsome, -⟩
  · rw [heq]
    exact ⟨⟨e, rfl⟩, withEndpoint_commitments hlive htried.commitments⟩
  · rw [htaker] at hsome
    cases hsome

end

theorem Tried.order {id : Nat} {tried : EndpointState P} {paths : List Nat}
    (h : Tried id endpoint tried paths) (horder : endpoint.OrderInv) {pathId : Nat}
    (hpath : pathId ∉ paths) :
    (tried.pathAt pathId).nextSendOrder < u64Max := by
  rw [pathAt_congr (h.others pathId hpath), pathAt, getD_eq_getElem?_getD]
  cases hget : endpoint.paths[pathId]? with
  | none => decide
  | some path => exact horder.order_lt path (mem_of_getElem? hget)

section

variable (hlive : node.associations association = some endpoint)
include hlive

/-- A write that a path takes is encoded there, on an endpoint that other paths refused before. -/
theorem sendStream_encoded (owned : Bool) {frame : StreamFrame} {pathId : Nat}
    (htaker : taker (attemptRefusal wiring outcomes owned node association endpoint frame)
      (candidates wiring outcomes node association endpoint) = some pathId) :
    ∃ bearer tried done, wiring.bearerOf association pathId = some bearer ∧
      Tried frame.id endpoint tried done ∧
      pathId ∉ done ∧
      payloadRefusal (wiring.fallbackDestination association)
        tried pathId frame wiring.packetSize = none ∧
      ∀ packet number, (encodeStreamPayload (wiring.fallbackDestination association) owned tried
        pathId frame wiring.packetSize).2 = .ok (packet, number) →
        sendStream wiring outcomes owned node association frame =
          (withEndpoint node association (encodeStreamPayload
          (wiring.fallbackDestination association) owned tried pathId frame wiring.packetSize).1,
            .ok (packet, bearer)) := by
  obtain ⟨exhausted, hsend⟩ := sendStream_eq wiring outcomes hlive owned frame
  rw [hsend]
  rcases sendOnFirst_spec wiring outcomes node association owned exhausted
    (candidates_nodup wiring outcomes node association endpoint) (by simp)
      (.refl frame.id endpoint) with
    ⟨hnone, -⟩ | ⟨other, tried, done, hsome, htried, hpath, hrefusal, heq⟩
  · rw [htaker] at hnone
    cases hnone
  obtain rfl : pathId = other := some.inj (htaker.symm.trans hsome)
  rcases sendStreamOnPath_cases with ⟨e, hrefused, -⟩ | ⟨bearer, hbearer, hrefused, hattempt⟩
  · cases hrefused.symm.trans hrefusal
  refine ⟨bearer, tried, done, hbearer, htried, hpath,
    map_eq_none_iff.mp (hrefused.symm.trans hrefusal), ?_⟩
  intro packet number hresult
  simp only [hresult] at hattempt
  rw [hattempt] at heq
  exact heq (by simp)

/-- A write that a path takes is committed: its frame is retained where nothing was before. -/
theorem sendStream_taken (horder : endpoint.OrderInv) (frame : StreamFrame)
    {pathId : Nat} (htaker : taker
      (attemptRefusal wiring outcomes false node association endpoint frame)
      (candidates wiring outcomes node association endpoint) = some pathId) :
    ∃ packet bearer endpoint', sendStream wiring outcomes false node association frame =
        (withEndpoint node association endpoint', .ok (packet, bearer)) ∧
      wiring.bearerOf association pathId = some bearer ∧ frame.offset + frame.data.length ≤ u64Max ∧
      endpoint'.commitments ≠ endpoint.commitments := by
  obtain ⟨bearer, tried, done, hbearer, htried, hpath, hpayload, hsend⟩ :=
    sendStream_encoded wiring outcomes hlive false htaker
  obtain ⟨packet, number, slot, hresult, hfree, hbound, hbuffer⟩ :=
    encodeStreamPayload_taken hpayload (htried.order horder hpath)
  refine ⟨packet, bearer, _, hsend packet number hresult, hbearer, hbound, ?_⟩
  intro hsame
  rw [← htried.commitments] at hsame
  have hretained := congrArg (fun c : Commitments => c.retained[slot]?) hsame
  have hslot := free_getElem? hfree
  obtain ⟨hlt, -⟩ := List.getElem?_eq_some_iff.mp hslot
  simp only [commitments, hbuffer, List.getElem?_map, hslot,
    List.getElem?_set_self hlt] at hretained
  cases hretained

theorem sendStream_taken_owned (horder : endpoint.OrderInv) (frame : StreamFrame)
    {pathId : Nat} (htaker : taker
      (attemptRefusal wiring outcomes true node association endpoint frame)
      (candidates wiring outcomes node association endpoint) = some pathId) :
    ∃ packet, (sendStream wiring outcomes true node association frame).2 = .ok packet := by
  obtain ⟨bearer, tried, done, -, htried, hpath, hpayload, hsend⟩ :=
    sendStream_encoded wiring outcomes hlive true htaker
  obtain ⟨⟨packet, number⟩, hresult⟩ :=
    encodeStreamPayload_taken_owned hpayload (htried.order horder hpath)
  exact ⟨_, congrArg Prod.snd (hsend packet number hresult)⟩

end

/-! ## The write -/

/-- After an error the handle and all commitments are as they were. -/
def FailsClean {α : Type} (node : State P) (stream : QuicStream)
    (outcome : State P × QuicStream × Except QuicNodeEgressError α) : Prop :=
  ∀ e, outcome.2.2 = .error e → outcome.2.1 = stream ∧ commitmentsOf outcome.1 = commitmentsOf node

/-- The kind of the result does not matter. -/
theorem failsClean_congr {α β : Type} {stream : QuicStream}
    {outcome : State P × QuicStream × Except QuicNodeEgressError α}
    {outcome' : State P × QuicStream × Except QuicNodeEgressError β}
    (hnode : outcome.1 = outcome'.1) (hstream : outcome.2.1 = outcome'.2.1)
    (herror : ∀ e, outcome.2.2 = .error e ↔ outcome'.2.2 = .error e) :
    FailsClean node stream outcome ↔ FailsClean node stream outcome' := by
  unfold FailsClean
  simp only [hnode, hstream, herror]

/-- A path takes the packet, and the bearer of its address is not registered or, once the events
that come before the submission are drained, holds another packet. -/
def strands (node : State P) (stream : QuicStream) (bytes : Bytes) (fin : Bool) : Bool :=
  let node := drainBearerEvents node outcomes.before
  match ensureReadyStreamPath wiring outcomes node stream.association with
  | .error _ => false
  | .ok () => (node.associations stream.association).any fun endpoint =>
    let refusal := attemptRefusal wiring outcomes false node stream.association endpoint
      ⟨stream.id, stream.sendOffset, fin, bytes⟩
    (taker refusal (candidates wiring outcomes node stream.association endpoint)).any fun pathId =>
      (wiring.bearerOf stream.association pathId).any fun bearer =>
        ((drainBearerEvents node outcomes.between).bearer? bearer).all (·.pending.isSome)

theorem ensureReadyStreamPath_live
    (h : ensureReadyStreamPath wiring outcomes node association = .ok ()) :
    ∃ endpoint, node.associations association = some endpoint := by
  unfold ensureReadyStreamPath at h
  split at h
  · cases h
  · rename_i endpoint hlive
    exact ⟨endpoint, hlive⟩

section

variable (hordered : Ordered node)
include hordered

theorem writeStreamPacket_failsClean {stream : QuicStream}
    (hopen : stream.sendFinished = false) (bytes : Bytes) (fin : Bool) :
    FailsClean node stream (writeStreamPacket wiring outcomes node stream bytes fin) ↔
      strands wiring outcomes node stream bytes fin = false := by
  have hdrained := (drain_quiet node outcomes.before).commitments
  unfold writeStreamPacket strands
  simp only
  generalize hbefore : drainBearerEvents node outcomes.before = before
  have hbeforeOrdered : Ordered before :=
    hbefore ▸ (drain_quiet node outcomes.before).ordered hordered
  rw [hbefore] at hdrained
  cases hready : ensureReadyStreamPath wiring outcomes before stream.association with
  | error e => exact ⟨fun _ => rfl, fun _ _ _ => ⟨rfl, hdrained⟩⟩
  | ok _ =>
  obtain ⟨endpoint, hlive⟩ := ensureReadyStreamPath_live wiring outcomes hready
  simp only [hlive, any_some, buildStreamPacket, hopen, Bool.false_eq_true, if_false]
  cases htaker : taker (attemptRefusal wiring outcomes false before stream.association endpoint
      ⟨stream.id, stream.sendOffset, fin, bytes⟩)
        (candidates wiring outcomes before stream.association endpoint) with
  | none =>
    obtain ⟨⟨e, herror⟩, hcommitments⟩ := sendStream_untaken wiring outcomes hlive false _ htaker
    rcases hsend : sendStream wiring outcomes false before stream.association
      ⟨stream.id, stream.sendOffset, fin, bytes⟩ with ⟨after, result⟩
    rw [hsend] at herror hcommitments
    obtain rfl : result = .error e := herror
    exact ⟨fun _ => rfl, fun _ _ _ => ⟨rfl, hcommitments.trans hdrained⟩⟩
  | some pathId =>
    obtain ⟨packet, bearer, endpoint', hsend, hbearer, hbound, hcommitted⟩ :=
      sendStream_taken wiring outcomes hlive (hbeforeOrdered _ endpoint hlive) _ htaker
    have hfits : ¬u64Max < stream.sendOffset + bytes.length := not_lt.mpr hbound
    simp only [hsend, if_neg hfits, any_some, hbearer, submitNodePacket]
    generalize hdrain : drainBearerEvents (withEndpoint before stream.association endpoint')
      outcomes.between = drained
    -- the events find the bearers as they would without the write
    have hfind : drained.bearer? bearer = (drainBearerEvents before outcomes.between).bearer?
        bearer := by
      have hsame : (withEndpoint before stream.association endpoint').bearers = before.bearers :=
        rfl
      have hbearers : drained.bearers = (drainBearerEvents before outcomes.between).bearers :=
        hdrain ▸ drain_bearers hsame outcomes.between
      rw [State.bearer?, State.bearer?, hbearers]
    have hstays : ∀ after : State P, commitmentsOf after = commitmentsOf drained →
        commitmentsOf after ≠ commitmentsOf node := by
      intro after hafter heq
      have hmoved : commitmentsOf (withEndpoint before stream.association endpoint') =
          commitmentsOf before := by
        rw [← (drain_quiet _ outcomes.between).commitments, hdrain, ← hafter, heq, hdrained]
      have hat : ((withEndpoint before stream.association endpoint').associations
          stream.association).map
          commitments = (before.associations stream.association).map
            commitments :=
        congrFun hmoved stream.association
      rw [withEndpoint_self_apply, hlive] at hat
      exact hcommitted (some.inj hat)
    rw [← hfind]
    cases hentry : drained.bearer? bearer with
    | none =>
      refine ⟨fun hclean => ?_, by simp⟩
      exact absurd (hclean _ rfl).2 (hstays _ (submitNodePacket_quiet ..).commitments)
    | some entry =>
    cases hpending : entry.pending with
    | some held =>
      simp only [all_some, hpending]
      refine ⟨fun hclean => ?_, by simp⟩
      exact absurd (hclean _ rfl).2 (hstays _ (submitNodePacket_quiet ..).commitments)
    | none =>
      simp only [all_some, hpending, isSome_none]
      refine ⟨fun _ => trivial, fun _ e he => ?_⟩
      cases he

variable (stream : QuicStream)

/-- A submission cannot fail the write of a leased source any more. -/
theorem writeStreamOwnedPacket_failsClean
    (source : Bytes) (fin : Bool) :
    FailsClean node stream (writeStreamOwnedPacket wiring outcomes node stream source fin) := by
  have hdrained := (drain_quiet node outcomes.before).commitments
  unfold writeStreamOwnedPacket
  split
  · exact fun _ _ => ⟨rfl, rfl⟩
  split
  · exact fun _ _ => ⟨rfl, rfl⟩
  split
  · exact fun _ _ => ⟨rfl, rfl⟩
  split
  · exact fun _ _ => ⟨rfl, rfl⟩
  simp only
  generalize hbefore : drainBearerEvents node outcomes.before = before
  have hbeforeOrdered : Ordered before :=
    hbefore ▸ (drain_quiet node outcomes.before).ordered hordered
  rw [hbefore] at hdrained
  split
  · exact fun _ _ => ⟨rfl, hdrained⟩
  split
  · rename_i after e hsend
    refine fun _ _ => ⟨rfl, ?_⟩
    cases hlive : before.associations stream.association with
    | none =>
      unfold sendStream at hsend
      rw [hlive] at hsend
      cases hsend
      exact hdrained
    | some endpoint =>
      cases htaker : taker (attemptRefusal wiring outcomes true before stream.association endpoint
          ⟨stream.id, stream.sendOffset, fin, source⟩)
        (candidates wiring outcomes before stream.association endpoint) with
      | none =>
        have hcommitments := (sendStream_untaken wiring outcomes hlive true _ htaker).2
        rw [hsend] at hcommitments
        exact hcommitments.trans hdrained
      | some pathId =>
        obtain ⟨packet, hok⟩ :=
          sendStream_taken_owned wiring outcomes hlive (hbeforeOrdered _ endpoint hlive) _ htaker
        rw [hsend] at hok
        cases hok
  · intro e he
    cases he

/-- The part of the bytes that a write would send, with its FIN. -/
def chunk? (node : State P) (stream : QuicStream) (bytes : Bytes) (finish : Bool) :
    Option (Bytes × Bool) :=
  if stream.sendFinished then none
  else
    match streamSendWindow wiring node stream with
    | .error _ => none
    | .ok window =>
      let count := min (min bytes.length defaultMaxStreamPayload) window
      if count = 0 then none else some (bytes.take count, finish && count == bytes.length)

/-- The packet that a call submits under its own responsibility, if it comes that far. -/
def Write.packet? (node : State P) (stream : QuicStream) : Write → Option (Bytes × Bool)
  | .writeStream bytes => if bytes.isEmpty then none else chunk? wiring node stream bytes false
  | .finishStream => if stream.sendFinished then none else some ([], true)
  | .writeStreamAndFinish bytes =>
    if bytes.isEmpty then if stream.sendFinished then none else some ([], true)
    else chunk? wiring node stream bytes true
  | .writeStreamOwnedPacket .. => none

theorem writeStreamChunk_failsClean (bytes : Bytes) (finish : Bool) : FailsClean node stream
      (writeStreamChunk wiring outcomes node stream bytes finish) ↔
      (chunk? wiring node stream bytes finish).all fun packet =>
        !strands wiring outcomes node stream packet.1 packet.2 := by
  unfold writeStreamChunk chunk?
  cases hopen : stream.sendFinished with
  | true => exact ⟨fun _ => rfl, fun _ _ _ => ⟨rfl, rfl⟩⟩
  | false =>
  simp only [Bool.false_eq_true, if_false]
  cases streamSendWindow wiring node stream with
  | error e => exact ⟨fun _ => rfl, fun _ _ _ => ⟨rfl, rfl⟩⟩
  | ok window =>
  simp only
  generalize min (min bytes.length defaultMaxStreamPayload) window = count
  by_cases hcount : count = 0
  · rw [if_pos hcount, if_pos hcount]
    exact ⟨fun _ => rfl, fun _ _ _ => ⟨rfl, rfl⟩⟩
  rw [if_neg hcount, if_neg hcount, all_some, Bool.not_eq_true',
    ← writeStreamPacket_failsClean wiring outcomes hordered hopen]
  rcases writeStreamPacket wiring outcomes node stream (bytes.take count)
    (finish && count == bytes.length) with ⟨after, stream', _ | _⟩
  · exact failsClean_congr rfl rfl (by simp)
  · exact failsClean_congr rfl rfl (by simp)

theorem finishStream_failsClean :
    FailsClean node stream (finishStream wiring outcomes node stream) ↔
      (if stream.sendFinished then none else some ([], true)).all fun packet : Bytes × Bool =>
        !strands wiring outcomes node stream packet.1 packet.2 := by
  unfold finishStream
  cases hopen : stream.sendFinished with
  | true =>
    refine ⟨fun _ => rfl, fun _ e he => ?_⟩
    cases he
  | false =>
    simp only [Bool.false_eq_true, if_false, all_some, Bool.not_eq_true']
    exact writeStreamPacket_failsClean wiring outcomes hordered hopen [] true

end

/-- In every node that a run reaches, a write that returns an error leaves handle and commitments as
they were exactly when its packet is not stranded between the endpoint and a bearer. -/
theorem failed_write_commits_nothing (steps : List BearerNode.Step) (stream : QuicStream)
    (write : Write) :
    let node := Runs.exec State.step (.new P) steps
    FailsClean node stream (write.call wiring outcomes node stream) ↔
      (write.packet? wiring node stream).all fun packet =>
        !strands wiring outcomes node stream packet.1 packet.2 := by
  intro node
  have hordered : Ordered node := by
    refine Runs.invariant (P := Ordered) (fun node step h => h.step step) ?_ steps
    intro association endpoint h
    cases h
  cases write with
  | writeStream bytes =>
    show FailsClean node stream (writeStream wiring outcomes node stream bytes) ↔
      (if bytes.isEmpty then none else chunk? wiring node stream bytes false).all _
    unfold writeStream
    by_cases hempty : bytes.isEmpty = true
    · rw [if_pos hempty, if_pos hempty]
      refine ⟨fun _ => rfl, fun _ e he => ?_⟩
      cases he
    · rw [if_neg hempty, if_neg hempty]
      exact writeStreamChunk_failsClean wiring outcomes hordered stream bytes false
  | finishStream =>
    refine Iff.trans ?_ (finishStream_failsClean wiring outcomes hordered stream)
    show FailsClean node stream ((finishStream wiring outcomes node stream).1,
      (finishStream wiring outcomes node stream).2.1,
        (finishStream wiring outcomes node stream).2.2.map fun _ => 0) ↔ _
    rcases finishStream wiring outcomes node stream with ⟨after, stream', _ | _⟩
    · exact failsClean_congr rfl rfl (by simp [Except.map])
    · exact failsClean_congr rfl rfl (by simp [Except.map])
  | writeStreamAndFinish bytes =>
    show FailsClean node stream (writeStreamAndFinish wiring outcomes node stream bytes) ↔
      (if bytes.isEmpty then if stream.sendFinished then none else some ([], true)
        else chunk? wiring node stream bytes true).all _
    unfold writeStreamAndFinish
    by_cases hempty : bytes.isEmpty = true
    · rw [if_pos hempty, if_pos hempty]
      refine Iff.trans ?_ (finishStream_failsClean wiring outcomes hordered stream)
      rcases finishStream wiring outcomes node stream with ⟨after, stream', _ | _⟩
      · exact failsClean_congr rfl rfl (by simp)
      · exact failsClean_congr rfl rfl (by simp)
    · rw [if_neg hempty, if_neg hempty]
      exact writeStreamChunk_failsClean wiring outcomes hordered stream bytes true
  | writeStreamOwnedPacket source fin =>
    exact ⟨fun _ => rfl, fun _ =>
      writeStreamOwnedPacket_failsClean wiring outcomes hordered stream source fin⟩

end Attempts

/-! ## A stranded write -/

def spareId (value : Fin 64) : ConnectionId := ⟨value, by omega⟩

/-- A client with two paths, paced at one packet in a burst. Its first packet uses up the burst of
path zero. -/
def pacedRun : List BearerNode.Step :=
  [.register, .insert .client ⟨1000, 100000, 50000, 16, 4⟩ 1100 4,
    .call 0 (.config (.installConnectionIds clientId serverId)),
    .call 0 (.config (.setPacingConfig ⟨true, 1, 1100⟩)),
    .call 0 (.addPathStateWithIds (spareId 11) (spareId 12)),
      .call 0 (.config (.circuit 1 .markValidated)),
    .call 0 (.openSendStream 4 50000),
    .call 0 (.encodeStreamPacket 0 serverId ⟨4, 0, false, [1, 2, 3]⟩ 1100),
      .submit 1 .accepted]

/-- Path zero uses the registered bearer, path one a bearer that was removed. -/
def staleWiring : Wiring where
  closing := fun _ => false
  fallbackDestination := fun _ => serverId
  bearerOf := fun _ pathId => some (if pathId = 0 then 1 else 9)
  packetSize := 1100

def quietOutcomes : Outcomes where
  before := []
  between := []
  after := []
  ready := fun _ => true
  sentOn := fun _ => true
  pool := fun _ => .buffer
  verdict := .accepted

/-- The next two bytes of the stream. -/
def staleWrite : State 1100 × QuicStream × Except QuicNodeEgressError Nat :=
  Write.call staleWiring quietOutcomes (Runs.exec State.step (State.new 1100) pacedRun)
    ⟨0, 4, 3, false⟩
    (.writeStream [4, 5])

/-- The bytes that an association has charged against its credit. -/
def sentDataOf (node : State P) (association : Nat) : Option Nat :=
  (node.associations association).map (·.send.sentData)

/-- Path zero has to wait, path one takes the packet, and its bearer is missing: the write fails,
and its two bytes stay charged and retained. -/
theorem stranded_write_not_clean :
    ¬FailsClean (Runs.exec State.step (State.new 1100) pacedRun) ⟨0, 4, 3, false⟩ staleWrite := by
  intro hclean
  have hfailed : staleWrite.2.2.toOption.isNone = true := by decide +kernel
  obtain ⟨e, he⟩ : ∃ e, staleWrite.2.2 = .error e := by
    cases hresult : staleWrite.2.2 with
    | error e => exact ⟨e, rfl⟩
    | ok count =>
      rw [hresult] at hfailed
      cases hfailed
  have hcommitments := congrFun (hclean e he).2 0
  have hsent : ∀ node : State 1100,
      sentDataOf node 0 = (commitmentsOf node 0).map (·.sentData) := by
    intro node
    rw [commitmentsOf, Option.map_map]
    rfl
  have hbefore : sentDataOf (Runs.exec State.step (.new 1100) pacedRun) 0 = some 3 := by
    decide +kernel
  have hafter : sentDataOf staleWrite.1 0 = some 5 := by decide +kernel
  rw [hsent, hcommitments, ← hsent] at hafter
  cases hafter

end StreamNode

end QuicLite
