import QuicLite.Endpoint.Transitions
import QuicLite.Lib.Slots

/-!
# Calls that leave the ledger alone

Most calls touch neither the transmissions, nor the retained ranges, nor any path's flight.
`SameLedger` says so, and every such call is listed here once; what is proved about the ledger then
only has to look at the rest.
-/

namespace QuicLite

open List Option Bool Nat

namespace EndpointState

variable {P : Nat} {paths : List PathState} {α β : Type} {packetNumber slot index : Nat}
variable {view : PathState → β} {op : Op}

/-- The flight counter and the next send order of a path. -/
def flightOrder (p : PathState) : Nat × Nat := (p.congestion.bytesInFlight, p.nextSendOrder)

/-- The ledger, the ranges and every path's counters are the same; numbers may have advanced. -/
structure SameLedger (s s' : EndpointState P) : Prop where
  slots : s'.sentPackets = s.sentPackets
  buffer : s'.sendBuffer = s.sendBuffer
  paths : s'.paths.map flightOrder = s.paths.map flightOrder
  number : s.nextPacketNumber ≤ s'.nextPacketNumber
  bound : s.nextPacketNumber ≤ u32Max → s'.nextPacketNumber ≤ u32Max

namespace SameLedger

variable {s s' s'' : EndpointState P}

theorem refl (s : EndpointState P) : SameLedger s s := ⟨rfl, rfl, rfl, le_refl _, id⟩

theorem trans (h : SameLedger s s') (h' : SameLedger s' s'') : SameLedger s s'' :=
  ⟨h'.slots.trans h.slots, h'.buffer.trans h.buffer, h'.paths.trans h.paths,
    h.number.trans h'.number, h'.bound ∘ h.bound⟩

theorem length (h : SameLedger s s') : s'.paths.length = s.paths.length := by
  simpa using congrArg List.length h.paths

/-- Each path of the later state has a counterpart. -/
theorem getElem? (h : SameLedger s s') {pathId : Nat} {path' : PathState}
    (hpath : s'.paths[pathId]? = some path') :
    ∃ path, s.paths[pathId]? = some path ∧ flightOrder path' = flightOrder path := by
  have := congrArg (·[pathId]?) h.paths
  simp only [getElem?_map, hpath] at this
  cases hold : s.paths[pathId]? with
  | none => simp [hold] at this
  | some path => exact ⟨path, rfl, by simpa [hold] using this⟩

/-- Only the paths changed. -/
theorem of_paths (h : paths.map flightOrder = s.paths.map flightOrder) :
    SameLedger s { s with paths := paths } := ⟨rfl, rfl, h, le_refl _, id⟩

theorem of_idle (horder : ∀ p ∈ s.paths, p.nextSendOrder < u64Max) (h : Idle s s') :
    SameLedger s s' := by
  rw [h.rest]
  apply of_paths
  have hflight := h.flight horder
  rw [forall₂_iff_get] at hflight
  refine ext_getElem (by simp [hflight.1]) ?_
  intro i h₁ h₂
  rw [getElem_map, getElem_map]
  have hi := hflight.2 i (by simpa using h₂) (by simpa using h₁)
  exact Prod.ext hi.flight hi.order

end SameLedger

/-- The counters of the budget. -/
def budget (s : EndpointState P) : Nat × Nat × Nat × Nat :=
  (s.duplicationBudgetCapacity, s.duplicationCreditBytes, s.duplicationCreditRemainder,
    s.duplicationReservedBytes)

/-- Neither the ledger changed, nor the received numbers, nor the duplication budget. -/
structure Bystands (s s' : EndpointState P) : Prop extends SameLedger s s' where
  ranges : s'.receivedPackets = s.receivedPackets
  floor : s'.receivePacketFloor = s.receivePacketFloor
  budget : s'.budget = s.budget

namespace Bystands

variable {s s' s'' : EndpointState P}

theorem refl (s : EndpointState P) : Bystands s s := ⟨.refl s, rfl, rfl, rfl⟩

theorem trans (h : Bystands s s') (h' : Bystands s' s'') : Bystands s s'' :=
  ⟨h.toSameLedger.trans h'.toSameLedger, h'.ranges.trans h.ranges, h'.floor.trans h.floor,
    h'.budget.trans h.budget⟩

/-- Only the paths changed. -/
theorem of_paths (h : paths.map flightOrder = s.paths.map flightOrder) :
    Bystands s { s with paths := paths } := ⟨.of_paths h, rfl, rfl, rfl⟩

/-- A step that leaves each of the fields alone. -/
theorem of_eq (hpaths : s'.paths.map flightOrder = s.paths.map flightOrder)
    (h : (s'.sentPackets, s'.sendBuffer, s'.nextPacketNumber, s'.receivedPackets,
      s'.receivePacketFloor, s'.budget) =
      (s.sentPackets, s.sendBuffer, s.nextPacketNumber, s.receivedPackets, s.receivePacketFloor,
        s.budget)) :
    Bystands s s' := by
  simp only [Prod.mk.injEq] at h
  obtain ⟨hslots, hbuffer, hnumber, hranges, hfloor, hbudget⟩ := h
  exact ⟨⟨hslots, hbuffer, hpaths, hnumber.ge, fun h => hnumber ▸ h⟩, hranges, hfloor, hbudget⟩

end Bystands

variable {f : PathState → PathState}

theorem map_modify_of_eq
    (h : ∀ p, view (f p) = view p) (pathId : Nat) :
    (paths.modify pathId f).map view = paths.map view := by
  refine ext_getElem? fun i => ?_
  simp only [getElem?_map, getElem?_modify]
  cases paths[i]? with
  | none => rfl
  | some p => split_ifs <;> simp [h]

variable (s : EndpointState P) (pathId : Nat)

theorem modifyPath_same (h : ∀ p, flightOrder (f p) = flightOrder p) :
    Bystands s (s.modifyPath pathId f) :=
  .of_paths (map_modify_of_eq h pathId)

theorem map_map_of_eq (h : ∀ p, view (f p) = view p) : (paths.map f).map view = paths.map view := by
  rw [List.map_map]
  exact List.map_congr_left fun p _ => h p

theorem flightOrder_of_keeps {p p' : PathState} (h : PathState.KeepsFlight p p') :
    flightOrder p' = flightOrder p :=
  Prod.ext h.flight h.order

/-! ## Configuration -/

theorem circuitOp_flightOrder (op : CircuitOp) (p : PathState) :
    flightOrder (op.apply p) = flightOrder p := by
  cases op with
  | setCircuit | markValidated | markProbing | markUnvalidated | beginProbe => rfl
  | queueStatus status =>
    show flightOrder ((p.queueStatus status).toOption.getD p) = flightOrder p
    unfold PathState.queueStatus
    split_ifs <;> rfl
  | receiveStatus sequence status =>
    show flightOrder (p.receiveStatus sequence status) = flightOrder p
    unfold PathState.receiveStatus
    split_ifs
    · rfl
    · cases status <;> rfl
  | completeProbe token nowUs =>
    show flightOrder (p.completeProbe token nowUs) = flightOrder p
    unfold PathState.completeProbe
    split
    · rfl
    rename_i pending sentAtUs _
    split_ifs
    · rfl
    · have hkeeps := PathState.updateRtt_keeps { p with
        pendingProbe := none } (nowUs - sentAtUs) nowUs
      exact Prod.ext hkeeps.flight hkeeps.order

theorem scheduleApplicationAck_same (immediate : Bool) :
    Bystands s (s.scheduleApplicationAck pathId immediate) := by
  unfold scheduleApplicationAck
  split_ifs
  · exact .refl s
  · exact .of_eq (map_modify_of_eq (by intro p; rfl) pathId) rfl

/-- The one call of configuration that touches the budget. -/
def setsBudget : ConfigOp → Bool
  | .setDuplicationBudgetCapacity _ => true
  | _ => false

theorem configOp_bystands {op : ConfigOp} (h : setsBudget op = false) :
    Bystands s (op.apply s).1 := by
  cases op with
  | setDuplicationBudgetCapacity => cases h
  | installConnectionIds localId peerId =>
    simp only [ConfigOp.apply, installConnectionIds]
    split_ifs
    · exact .refl s
    · exact .of_eq (map_modify_of_eq (by intro p; rfl) 0) rfl
  | setPeerConnectionIdOnPath pathId peer =>
    simp only [ConfigOp.apply, setPeerConnectionIdOnPath]
    split_ifs
    · exact .refl s
    · exact .refl s
    · exact modifyPath_same s pathId (by intro p; rfl)
  | setTime now => exact .of_paths (map_map_of_eq (by intro p; rfl))
  | setPeerDatagramLimit | setAckPolicy | close => exact .of_eq rfl rfl
  | setPacingConfig config =>
    simp only [ConfigOp.apply, setPacingConfig]
    split_ifs
    · exact .of_eq (map_map_of_eq (by intro p; rfl)) rfl
    · exact .refl s
  | setSendBufferLimitBytes limit =>
    simp only [ConfigOp.apply, setSendBufferLimitBytes]
    split_ifs
    · exact .refl s
    · exact .of_eq rfl rfl
  | requestStreamReack =>
    refine .trans ?_ (scheduleApplicationAck_same _ 0 true)
    exact .of_eq rfl rfl
  | requestPathValidationAck pathId =>
    refine .trans ?_ (scheduleApplicationAck_same _ pathId true)
    exact .of_eq rfl rfl
  | setPathEstimatorConfig config =>
    simp only [ConfigOp.apply, setPathEstimatorConfig]
    split_ifs
    · exact .of_eq (map_map_of_eq (by intro p; rfl)) rfl
    · exact .refl s
  | requestAckFrequency =>
    simp only [ConfigOp.apply, requestAckFrequency]
    split_ifs
    · exact .refl s
    · exact .of_eq rfl rfl
  | recordBearerArrival pathId receivedAtUs =>
    simp only [ConfigOp.apply, recordBearerArrival]
    split
    · exact .refl s
    split
    · exact .refl s
    · exact .of_eq (map_modify_of_eq (by intro p; rfl) pathId) rfl
  | onBearerTimeout => exact .of_paths (map_map_of_eq (by intro p; split_ifs <;> rfl))
  | deferPathStatus pathId egressPath =>
    exact modifyPath_same s pathId (by intro p; split_ifs <;> rfl)
  | circuit pathId op => exact modifyPath_same s pathId (circuitOp_flightOrder op)

theorem configOp_same (op : ConfigOp) : SameLedger s (op.apply s).1 := by
  cases op with
  | setDuplicationBudgetCapacity => exact ⟨rfl, rfl, rfl, le_refl _, id⟩
  | _ => exact (configOp_bystands s rfl).toSameLedger

theorem continuePacketNumbersFrom_same (next : Fin (u32Max + 1)) :
    Bystands s (s.continuePacketNumbersFrom next).1 := by
  unfold continuePacketNumbersFrom
  split_ifs with h
  · exact .refl s
  · exact ⟨⟨rfl, rfl, rfl, by simpa using h, fun _ => le_of_lt_succ next.isLt⟩, rfl, rfl, rfl⟩

theorem openSendStream_same (id maxData : Nat) : Bystands s (s.openSendStream id maxData).1 := by
  unfold openSendStream
  extract_lets unidirectional locallyInitiated maximum opened
  split
  · exact .refl s
  split
  · split <;> exact .of_eq rfl rfl
  · exact .of_eq rfl rfl

theorem setInitialPeerBudget_same (maxData maxStreamData maxInFlightPackets : Nat) :
    Bystands s (s.setInitialPeerBudget maxData maxStreamData maxInFlightPackets).1 := by
  unfold setInitialPeerBudget
  split
  · exact .refl s
  · exact .of_eq rfl rfl

/-! ## Acknowledgement scheduling -/

theorem observePacketOnPath_same (packetNumber pathId : Nat) :
    SameLedger s (s.observePacketOnPath packetNumber pathId) := by
  unfold observePacketOnPath
  split
  · exact .refl s
  split
  · exact .refl s
  split
  · exact ⟨rfl, rfl, rfl, le_refl _, fun h => h⟩
  · exact ⟨rfl, rfl, map_modify_of_eq (by intro p; rfl) pathId, le_refl _, fun h => h⟩

theorem scheduleAck_same (immediate : Bool) : Bystands s (s.scheduleAck pathId immediate) := by
  unfold scheduleAck
  split_ifs
  · exact .refl s
  · exact .of_eq (map_modify_of_eq (by intro p; rfl) pathId) rfl

theorem commitStreamPacketReceive_same (packetNumber ingressPath : Nat) :
    SameLedger s (s.commitStreamPacketReceive packetNumber ingressPath) := by
  unfold commitStreamPacketReceive
  simp only
  split
  · refine .trans ?_ ((observePacketOnPath_same _ packetNumber ingressPath).trans
      (scheduleAck_same _ ingressPath false).toSameLedger)
    exact ⟨rfl, rfl, map_modify_of_eq (by intro p; rfl) ingressPath, le_refl _, id⟩
  · exact (observePacketOnPath_same s packetNumber ingressPath).trans
      (scheduleAck_same _ ingressPath false).toSameLedger

/-! ## Credit and retirement -/

variable (streamId : Nat)

theorem queueStreamCredit_same : Bystands s (s.queueStreamCredit streamId) :=
  .of_eq rfl rfl

theorem tryRetireStream_same : Bystands s (s.tryRetireStream streamId) := by
  unfold tryRetireStream
  split
  · exact .refl s
  · simp only
    split <;> exact .of_eq rfl rfl

theorem foldl_same {f : EndpointState P → α → EndpointState P} (h : ∀ s a, Bystands s (f s a))
    (s : EndpointState P) (l : List α) : Bystands s (l.foldl f s) := by
  induction l generalizing s with
  | nil => exact .refl s
  | cons a l ih => exact (h s a).trans (ih (f s a))

theorem streamConsumedInner_same (streamId bytes : Nat) (forceControl schedule : Bool) :
    Bystands s (s.streamConsumedInner streamId bytes forceControl schedule).1 := by
  unfold streamConsumedInner
  split
  · exact .refl s
  refine .trans ?_ (tryRetireStream_same _ streamId)
  have hcredit : ∀ t : EndpointState P, ∀ due : Bool,
      Bystands t (if due then t.queueStreamCredit streamId else t) := by
    intro t due
    cases due with
    | false => exact .refl t
    | true => exact queueStreamCredit_same t streamId
  refine .trans ?_ (hcredit _ _)
  split
  · refine .trans ?_ (scheduleApplicationAck_same _ _ _)
    exact .of_eq rfl rfl
  · exact .of_eq rfl rfl

theorem streamConsumedWithoutCredit_same (streamId bytes : Nat) :
    Bystands s (s.streamConsumedWithoutCredit streamId bytes).1 := by
  unfold streamConsumedWithoutCredit
  split
  · exact .refl s
  · refine .trans ?_ (scheduleApplicationAck_same _ _ _)
    exact .of_eq rfl rfl

theorem grantReceiveWindow_same (streamId windowBytes : Nat) :
    Bystands s (s.grantReceiveWindow streamId windowBytes).1 := by
  unfold grantReceiveWindow
  simp only
  split <;> exact .of_eq rfl rfl

theorem setReceiveGrowthLimits_same (limits : ConnectionLimits) :
    Bystands s (s.setReceiveGrowthLimits limits).1 := by
  unfold setReceiveGrowthLimits
  split
  · exact .refl s
  extract_lets raised receive receive' queued target raises
  have hqueued : Bystands s queued := by
    refine .trans ?_ (foldl_same queueStreamCredit_same _ raised)
    exact .of_eq rfl rfl
  refine hqueued.trans ?_
  exact .of_eq rfl rfl

theorem prepareLocalBidiReceive_same : Bystands s (s.prepareLocalBidiReceive streamId).1 := by
  unfold prepareLocalBidiReceive
  split <;> exact .of_eq rfl rfl

/-! ## Packets outside the ledger -/

theorem commitControlFrames_same (packetNumber : Nat) (control : EncodedControlFrames) :
    Bystands s (s.commitControlFrames pathId packetNumber control) := by
  have hack : ∀ t : EndpointState P,
      Bystands t (if control.ack then t.commitAck pathId control.credit else t) := by
    intro t
    split
    · exact .of_eq (map_modify_of_eq (by intro p; rfl) pathId) rfl
    · exact .refl t
  have hcredit : ∀ t : EndpointState P,
      Bystands t (if control.ack && control.credit then
        t.commitCredit packetNumber control else t) := by
    intro t
    split
    · exact .of_eq rfl rfl
    · exact .refl t
  have hfrequency : ∀ t : EndpointState P,
      Bystands t (if control.ackFrequency then { t with pendingAckFrequency := none } else t) := by
    intro t
    split
    · exact .of_eq rfl rfl
    · exact .refl t
  exact (hack s).trans ((hcredit _).trans (hfrequency _))

theorem commitPiggyback_same (packetNumber : Nat) (control : Option EncodedControlFrames) :
    Bystands s (s.commitPiggyback pathId packetNumber control) := by
  cases control with
  | none => exact .refl s
  | some => exact commitControlFrames_same s pathId packetNumber ..

theorem nextNumber_same {s : EndpointState P} (h : s.nextPacketNumber < u32Max) :
    Bystands s { s with nextPacketNumber := s.nextPacketNumber + 1 } :=
  ⟨⟨rfl, rfl, rfl, le_succ _, fun _ => h⟩, rfl, rfl, rfl⟩

theorem pollTransmitOnPath_same (capacity : Nat) :
    Bystands s (s.pollTransmitOnPath none pathId capacity).1 := by
  rcases s.pollTransmitOnPath_cases none pathId capacity with ⟨hstate, -⟩ |
    ⟨_, control, _, _, hnumber, -, -, -, -, heq⟩
  · rw [hstate]
    exact .refl s
  rw [heq]
  refine (commitControlFrames_same s pathId s.nextPacketNumber control).trans (nextNumber_same ?_)
  rw [commitControlFrames_number]
  exact hnumber

theorem pollClose_same (capacity : Nat) : Bystands s (s.pollClose none capacity).1 := by
  rcases s.pollClose_cases none capacity with ⟨hstate, -⟩ | ⟨_, _, _, hnumber, -, -, -, heq⟩
  · rw [hstate]
    exact .refl s
  · rw [heq]
    exact nextNumber_same hnumber

theorem encodeProbePacket_same (dcid : ConnectionId) (capacity : Nat) :
    Bystands s (s.encodeProbePacket none dcid capacity).1 := by
  rcases s.encodeProbePacket_cases none dcid capacity with ⟨hstate, -⟩ | ⟨_, hnumber, -, -, heq⟩
  · rw [hstate]
    exact .refl s
  · rw [heq]
    exact nextNumber_same hnumber

theorem map_modifyFirst_of_eq (h : ∀ p, view (f p) = view p) (q : PathState → Bool)
    (paths : List PathState) :
    (FirstMatch.modifyFirst q f paths).map view = paths.map view := by
  induction paths with
  | nil => rfl
  | cons p paths ih =>
    rw [FirstMatch.modifyFirst]
    split_ifs
    · rw [map_cons, map_cons, h]
    · rw [map_cons, map_cons, ih]

theorem noteStatusSent_same (frame : Frame) : Bystands s (s.noteStatusSent pathId frame) := by
  unfold noteStatusSent
  split
  · exact .of_paths (map_modifyFirst_of_eq
      (fun p => flightOrder_of_keeps (PathState.statusSent_keeps p _ _)) _ _)
  · exact .refl s

theorem passPathControl_same {s : EndpointState P} (hnumber : s.nextPacketNumber < u32Max)
    (pathId : Nat) (frame : Frame) (packet : Packet) :
    SameLedger s (s.passPathControl pathId frame packet) := by
  refine .trans ?_ (noteStatusSent_same _ pathId frame).toSameLedger
  exact ⟨rfl, rfl, rfl, le_succ _, fun _ => hnumber⟩

/-! ## Receiving -/

theorem receiveFlowControl_same (frames : List Frame) (s : EndpointState P) :
    Bystands s (receiveFlowControl frames s).1 := by
  induction frames generalizing s with
  | nil => exact .refl s
  | cons frame frames ih =>
    unfold receiveFlowControl
    split
    · refine .trans ?_ (ih _)
      exact .of_eq rfl rfl
    · split
      · exact ih s
      split
      · exact .refl s
      · refine .trans ?_ (ih _)
        exact .of_eq rfl rfl
    · refine .trans ?_ (ih _)
      exact .of_eq rfl rfl
    · refine .trans ?_ (ih _)
      exact .of_eq rfl rfl
    · exact ih s

theorem applyAckFrequency_same (request : Nat × Nat × Nat × Nat) :
    Bystands s (s.applyAckFrequency request).1 := by
  unfold applyAckFrequency
  simp only
  split
  · exact .refl s
  split
  · exact .refl s
  · exact .of_eq rfl rfl

theorem receiveStreams_same (header : ShortHeader) (streams : List StreamFrame)
    (ingressPath : Nat) (deferStreamAck : Bool) :
    SameLedger s (s.receiveStreams header streams ingressPath deferStreamAck).1 := by
  unfold receiveStreams
  simp only
  split
  · exact ⟨rfl, rfl, rfl, le_refl _, id⟩
  rename_i receive _
  have hretire : SameLedger s
      (((streams.filter fun frame => !s.receive.isRetired frame.id).filter (·.fin)).foldl
      (fun self frame => self.tryRetireStream frame.id) { s with
        receive := receive : EndpointState P }) := by
    refine .trans ?_ (foldl_same (fun t (frame : StreamFrame) =>
      tryRetireStream_same t frame.id) _ _).toSameLedger
    exact ⟨rfl, rfl, rfl, le_refl _, id⟩
  cases deferStreamAck with
  | true => exact hretire
  | false => exact hretire.trans (commitStreamPacketReceive_same _ _ _)

/-! ### Phases of an ACK that leave the ledger alone -/

theorem retireCredit_same : Bystands s s.retireCredit := by
  unfold retireCredit
  split <;> exact .of_eq rfl rfl

theorem raiseReceiveFloor_same (confirmed : Nat) :
    SameLedger s (s.raiseReceiveFloor confirmed) := by
  unfold raiseReceiveFloor
  split
  · exact ⟨rfl, rfl, rfl, le_refl _, id⟩
  · exact .refl s

theorem acknowledgeStatuses_flightOrder (paths : List PathState)
    (status : List (CircuitKey × Nat)) :
    (acknowledgeStatuses paths status).map flightOrder = paths.map flightOrder := by
  unfold acknowledgeStatuses
  induction status generalizing paths with
  | nil => rfl
  | cons entry status ih =>
    rw [foldl_cons, ih]
    exact map_modifyFirst_of_eq (fun p => flightOrder_of_keeps (p.acknowledgeStatus_keeps entry.2))
      _ _

theorem map_mapIdx_of_eq {f : Nat → PathState → PathState}
    (h : ∀ i p, view (f i p) = view p) : (paths.mapIdx f).map view = paths.map view := by
  refine ext_getElem (by simp) ?_
  simp [h]

theorem applyAckCongestionGrowth_flightOrder (paths : List PathState) (growth : List Nat) :
    (applyAckCongestionGrowth paths growth).map flightOrder = paths.map flightOrder :=
  map_mapIdx_of_eq fun _ p => flightOrder_of_keeps (p.grow_keeps _ _)

theorem resetPto_flightOrder (newlyAcked : Bool) (progress : List Bool) (paths : List PathState) :
    (resetPto newlyAcked progress paths).map flightOrder = paths.map flightOrder := by
  unfold resetPto
  split
  · apply map_mapIdx_of_eq
    intro i p
    split <;> rfl
  · rfl

theorem takeRttSample_same (candidate : Option (Nat × Option Nat)) (delay ingressPath : Nat) :
    Bystands s (s.takeRttSample candidate delay ingressPath) := by
  unfold takeRttSample
  split
  · apply modifyPath_same
    intro p
    exact flightOrder_of_keeps (p.updateRtt_keeps _ _)
  · exact .refl s

/-- The calls of this module. -/
def leavesLedger : Op → Bool
  | .config _ | .continuePacketNumbersFrom _ | .openSendStream .. | .setInitialPeerBudget ..
    | .encodeProbePacket ..
  | .pollTransmit .. | .pollClose _ | .commitStreamPacketReceive .. | .streamConsumed ..
  | .streamConsumedWithoutCredit .. | .grantReceiveWindow .. | .setReceiveGrowthLimits _
  | .prepareLocalBidiReceive _ => true
  | _ => false

theorem step_bystands (h : leavesLedger op)
    (hcommit : ∀ n path, op ≠ .commitStreamPacketReceive n path)
    (hconfig : ∀ config, op = .config config → setsBudget config = false) :
    Bystands s (s.step op) := by
  cases op with
  | config op => exact configOp_bystands s (hconfig op rfl)
  | continuePacketNumbersFrom => exact continuePacketNumbersFrom_same s ..
  | openSendStream => exact openSendStream_same s ..
  | setInitialPeerBudget => exact setInitialPeerBudget_same s ..
  | encodeProbePacket => exact encodeProbePacket_same s ..
  | pollTransmit => exact pollTransmitOnPath_same s ..
  | pollClose => exact pollClose_same s ..
  | commitStreamPacketReceive n path => exact absurd rfl (hcommit n path)
  | streamConsumed => exact streamConsumedInner_same s ..
  | streamConsumedWithoutCredit => exact streamConsumedWithoutCredit_same s ..
  | grantReceiveWindow => exact grantReceiveWindow_same s ..
  | setReceiveGrowthLimits => exact setReceiveGrowthLimits_same s ..
  | prepareLocalBidiReceive => exact prepareLocalBidiReceive_same s ..
  | _ => cases h

theorem step_sameLedger (h : leavesLedger op) : SameLedger s (s.step op) := by
  cases op with
  | config => exact configOp_same s ..
  | commitStreamPacketReceive => exact commitStreamPacketReceive_same s ..
  | _ => exact (step_bystands s h (by simp) (by simp)).toSameLedger

/-! ## Resizing the tables -/

theorem entries_resizeSlots (slots : List (Option α)) (limit : Nat) :
    Slots.entries (resizeSlots slots limit) = Slots.entries slots := by
  unfold resizeSlots
  split_ifs with hgrow hshrink
  · simp [Slots.entries]
  · have hfree : Slots.entries (slots.drop limit) = [] := by
      rw [eq_nil_iff_forall_not_mem]
      intro a ha
      have := all_eq_true.mp hshrink.2 _ (Slots.mem_entries.mp ha)
      simp at this
    conv_rhs => rw [← take_append_drop limit slots, Slots.entries, filterMap_append]
    rw [show (slots.drop limit).filterMap id = [] from hfree, append_nil]
    rfl
  · rfl

theorem resizeSlots_getElem? (slots : List (Option α)) (limit slot : Nat) :
    (resizeSlots slots limit)[slot]?.join = slots[slot]?.join := by
  unfold resizeSlots
  split_ifs with hgrow hshrink
  · rw [getElem?_append]
    split_ifs with hlt
    · rfl
    · rw [getElem?_eq_none (by omega : slots.length ≤ slot), getElem?_replicate]
      split_ifs <;> rfl
  · by_cases hlt : slot < limit
    · rw [getElem?_take_of_lt hlt]
    rw [getElem?_eq_none (by simp; omega)]
    cases hget : slots[slot]? with
    | none => rfl
    | some entry =>
      have hmem : entry ∈ slots.drop limit := by
        refine mem_of_getElem? (i := slot - limit) ?_
        rw [getElem?_drop, show limit + (slot - limit) = slot by omega, hget]
      have := all_eq_true.mp hshrink.2 _ hmem
      rw [isNone_iff_eq_none.mp this]
      rfl
  · rfl

/-! ## Entering a transmission -/

variable {sent : SentPacket}

theorem findSent_spec {s : EndpointState P} (h : s.findSent packetNumber = some (index, sent)) :
    s.sentPackets[index]? = some (some sent) ∧ sent.packetNumber = packetNumber := by
  unfold findSent at h
  cases hfind : s.sentPackets.findIdx? fun slot => slot.any fun sent =>
    sent.packetNumber == packetNumber with
  | none =>
    rw [hfind] at h
    cases h
  | some i =>
    rw [hfind] at h
    simp only at h
    split at h
    · rename_i found hfound
      cases h
      refine ⟨hfound, ?_⟩
      obtain ⟨hlt, hmatch, -⟩ := findIdx?_eq_some_iff_getElem.mp hfind
      rw [getElem?_eq_getElem hlt, some.injEq] at hfound
      simpa [hfound] using hmatch
    · cases h

/-- A free slot found among the first ones of a table. -/
theorem free_getElem? {slots : List (Option α)} {limit : Nat}
    (h : (slots.take limit).findIdx? isNone = some slot) : slots[slot]? = some none := by
  obtain ⟨hlt, hfree, -⟩ := findIdx?_eq_some_iff_getElem.mp h
  rw [length_take] at hlt
  rw [getElem_take] at hfree
  rw [getElem?_eq_getElem (by omega), isNone_iff_eq_none.mp hfree]

/-- A new transmission takes a free slot or that of a lost one, and is charged to its path. -/
structure Enters (s s' : EndpointState P) (slot : Nat) (sent : SentPacket) : Prop where
  free : ∃ old, s.sentPackets[slot]? = some old ∧ ∀ o ∈ old, o.lost
  slots : s'.sentPackets = s.sentPackets.set slot (some sent)
  accepted : sent.accepted
  lost : sent.lost = false
  path : sent.pathId < s.paths.length
  charged : ∃ path, Charges (s.pathAt sent.pathId) path sent.bytes ∧
    s'.paths.map flightOrder = (s.paths.set sent.pathId path).map flightOrder
  next : s.nextPacketNumber + 1 ≤ s'.nextPacketNumber
  bound : s'.nextPacketNumber ≤ u32Max

/-- What all four ways to enter a transmission share. -/
theorem recordSent_enters {s t : EndpointState P} {pathId : Nat} {path : PathState}
    (hpath : pathId < s.paths.length) (hcharges : Charges (s.pathAt pathId) path sent.bytes)
    (hnumber : s.nextPacketNumber < u32Max)
    (hfree : ∃ old, s.sentPackets[slot]? = some old ∧ ∀ o ∈ old, o.lost)
    (hslots : t.sentPackets = s.sentPackets) (hpaths : t.paths = s.paths.set pathId path)
    (hnext : t.nextPacketNumber = s.nextPacketNumber + 1) (hid : sent.pathId = pathId)
    (haccepted : sent.accepted) (hlost : sent.lost = false) :
    Enters s (t.recordSent slot sent) slot sent := by
  subst hid
  refine ⟨hfree, by rw [recordSent, hslots], haccepted, hlost, hpath, ⟨path, hcharges, ?_⟩, ?_, ?_⟩
  · rw [← hpaths]
    exact map_modify_of_eq (by intro p; rfl) sent.pathId
  · show s.nextPacketNumber + 1 ≤ t.nextPacketNumber
    rw [hnext]
  show t.nextPacketNumber ≤ u32Max
  rw [hnext]
  exact hnumber

section Entering

variable {s : EndpointState P} {pathId capacity : Nat} {path : PathState}

theorem free_of_transmissionSlot (h : s.freeTransmissionSlot = some slot) :
    ∃ old, s.sentPackets[slot]? = some old ∧ ∀ o ∈ old, o.lost :=
  ⟨none, free_getElem? h, by simp⟩

theorem RepairSpec.free {plan : RepairPlan}
    (h : RepairSpec none s packetNumber pathId capacity plan) :
    ∃ old, s.sentPackets[plan.slot]? = some old ∧ ∀ o ∈ old, o.lost := by
  obtain ⟨index, sent, range, hfind, -, -, -, -, -, ⟨hfree, -⟩ | ⟨-, hlost, hslot, -⟩⟩ := h.source
  · exact free_of_transmissionSlot hfree
  · rw [hslot]
    exact ⟨some sent, (findSent_spec hfind).1, by simpa using hlost⟩

end Entering

/-! ## Relabelling a transmission -/

theorem modify_eq_set {s : EndpointState P} {pathId : Nat} (hpath : pathId < s.paths.length)
    (f : PathState → PathState) :
    s.paths.modify pathId f = s.paths.set pathId (f (s.pathAt pathId)) := by
  rw [modify_eq_set_getElem?, paths_getElem?_of_lt hpath]
  rfl

theorem set_getElem?_self {l : List α} {i : Nat} {a : α} (h : l[i]? = some a) : l.set i a = l := by
  obtain ⟨hlt, rfl⟩ := List.getElem?_eq_some_iff.mp h
  exact List.set_getElem_self hlt

/-- The same packet: whatever became of it, it carries what it carried. -/
structure SameLoad (sent sent' : SentPacket) : Prop where
  packetNumber : sent'.packetNumber = sent.packetNumber
  streamId : sent'.streamId = sent.streamId
  offset : sent'.offset = sent.offset
  dataLen : sent'.dataLen = sent.dataLen
  fin : sent'.fin = sent.fin
  sendBufferSlot : sent'.sendBufferSlot = sent.sendBufferSlot
  logicalPacketNumber : sent'.logicalPacketNumber = sent.logicalPacketNumber
  duplicationCharge : sent'.duplicationCharge = sent.duplicationCharge
  dataDelivered : sent'.dataDelivered = sent.dataDelivered

/-- And it counts for the same path. -/
structure SameCargo (sent sent' : SentPacket) : Prop extends SameLoad sent sent' where
  pathId : sent'.pathId = sent.pathId
  bytes : sent'.bytes = sent.bytes

/-- One record was replaced by a relabelled copy, or dropped when it had nothing left to repair. -/
structure Relabels (s s' : EndpointState P) (index : Nat) (sent : SentPacket)
    (new : Option SentPacket) : Prop where
  found : s.sentPackets[index]? = some (some sent)
  slots : s'.sentPackets = s.sentPackets.set index new
  buffer : s'.sendBuffer = s.sendBuffer
  number : s'.nextPacketNumber = s.nextPacketNumber
  cargo : ∀ o ∈ new, SameCargo sent o
  dropped : new = none → sent.dataDelivered ∧ s.sentPacketHasPendingFin sent = false

theorem packetSubmissionBlocked_relabels {s : EndpointState P}
    (hfind : s.findSent packetNumber = some (index, sent)) :
    Relabels s (s.packetSubmissionBlocked packetNumber).1 index sent (some { sent with
      accepted := false }) ∧
      ((s.packetSubmissionBlocked packetNumber).1.paths.map flightOrder =
        (if sent.accepted then s.modifyPath sent.pathId fun path =>
            { path with congestion := path.congestion.removeInFlight sent.bytes } else
              s).paths.map flightOrder) := by
  have hpaths : ∀ paths : List PathState, ((paths.modify sent.pathId
      fun path => if path.largestSentPacket = some packetNumber then
        { path with
          largestSentPacket := (path.congestionHistory.reverse.find? (·.accepted)).map
            (·.packetNumber) }
      else path).modify sent.pathId fun path => path.modifyEvent packetNumber fun event =>
        { event with accepted := false }).map flightOrder = paths.map flightOrder := by
    intro paths
    rw [map_modify_of_eq (by intro p; rfl), map_modify_of_eq (by intro p; split_ifs <;> rfl)]
  have hcargo : ∀ o ∈ some { sent with accepted := false }, SameCargo sent o := by
    intro o ho
    rw [← mem_some.mp ho]
    exact ⟨⟨rfl, rfl, rfl, rfl, rfl, rfl, rfl, rfl, rfl⟩, rfl, rfl⟩
  simp only [packetSubmissionBlocked, hfind]
  cases sent.accepted <;>
    exact ⟨⟨(findSent_spec hfind).1, rfl, rfl, rfl, hcargo, by simp⟩, hpaths _⟩

theorem noteAccepted_flightOrder (packetNumber nowUs : Nat) (probeToken : Option Nat)
    (p : PathState) :
    flightOrder (noteAccepted packetNumber nowUs probeToken p) = flightOrder p := by
  cases probeToken with
  | none => rfl
  | some token =>
    have hkeeps := PathState.updateProbeSubmissionTime_keeps p token nowUs
    exact Prod.ext hkeeps.flight hkeeps.order

theorem commitDuplicationBudget_same (sent : SentPacket) :
    SameLedger s (s.commitDuplicationBudget sent) ∧
      (s.commitDuplicationBudget sent).nextPacketNumber = s.nextPacketNumber := by
  unfold commitDuplicationBudget
  split_ifs
  · exact ⟨⟨rfl, rfl, rfl, le_refl _, id⟩, rfl⟩
  · exact ⟨⟨rfl, rfl, rfl, le_refl _, id⟩, rfl⟩
  · exact ⟨.refl s, rfl⟩

theorem packetSubmissionAccepted_relabels {s : EndpointState P}
    (nowUs : Nat) (hfind : s.findSent packetNumber = some (index, sent)) :
    ∃ new, Relabels s (s.packetSubmissionAccepted packetNumber nowUs).1 index sent (some new) ∧
      new.accepted ∧
      new.lost = sent.lost ∧
      ((s.packetSubmissionAccepted packetNumber nowUs).1.paths.map flightOrder =
        (if sent.accepted then s else s.modifyPath sent.pathId fun path =>
            { path with congestion := path.congestion.onRetransmissionSent sent.bytes }).paths.map
              flightOrder) := by
  simp only [packetSubmissionAccepted, hfind]
  have hbudget : ∀ t : EndpointState P,
      SameLedger t (if sent.duplicationBudgetCommitted then t else t.commitDuplicationBudget sent) ∧
      (if sent.duplicationBudgetCommitted then
        t else t.commitDuplicationBudget sent).nextPacketNumber =
        t.nextPacketNumber := by
    intro t
    split
    · exact ⟨.refl t, rfl⟩
    · exact commitDuplicationBudget_same t sent
  generalize hcharged : (if sent.accepted then s else s.modifyPath sent.pathId fun path =>
    { path with congestion := path.congestion.onRetransmissionSent sent.bytes }) = charged
  have hrest : charged.sentPackets = s.sentPackets ∧ charged.sendBuffer = s.sendBuffer ∧
      charged.nextPacketNumber = s.nextPacketNumber := by
    rw [← hcharged]
    split <;> exact ⟨rfl, rfl, rfl⟩
  obtain ⟨hsame, hnumber⟩ := hbudget charged
  refine ⟨{ sent with
    accepted := true
    windowLimited := if sent.accepted then sent.windowLimited
      else (s.pathAt sent.pathId).congestion.windowLimited sent.bytes
    sentAt := nowUs
    duplicationBudgetCommitted := true }, ⟨(findSent_spec hfind).1, ?_, ?_, ?_, ?_, by simp⟩, rfl,
      rfl, ?_⟩
  · show set _ index _ = _
    rw [hsame.slots, hrest.1]
  · exact hsame.buffer.trans hrest.2.1
  · exact hnumber.trans hrest.2.2
  · intro o ho
    rw [← mem_some.mp ho]
    exact ⟨⟨rfl, rfl, rfl, rfl, rfl, rfl, rfl, rfl, rfl⟩, rfl, rfl⟩
  · exact (map_modify_of_eq (noteAccepted_flightOrder packetNumber nowUs sent.probeToken)
      sent.pathId).trans hsame.paths

/-- A record that left the flight: marked lost, or dropped. -/
structure Leaves (s s' : EndpointState P) (index : Nat) (sent : SentPacket)
    (new : Option SentPacket) : Prop
    extends Relabels s s' index sent new where
  accepted : sent.accepted
  inFlight : sent.lost = false
  marked : ∀ o ∈ new, o.accepted ∧ o.lost
  released : ∃ path : PathState, (sent.bytes ≤ u64Max →
      path.congestion.bytesInFlight =
        (s.pathAt sent.pathId).congestion.bytesInFlight - sent.bytes) ∧
    path.nextSendOrder = (s.pathAt sent.pathId).nextSendOrder ∧
    (sent.pathId < s.paths.length →
      s'.paths.map flightOrder = (s.paths.set sent.pathId path).map flightOrder)

/-- A record in flight is marked lost, and what stays of it released from its path. -/
theorem leaves_of_lost {s s' : EndpointState P} (lost : SentPacket) {f : PathState → PathState}
    (hfind : s.findSent packetNumber = some (index, sent))
    (hflight : ¬(!sent.accepted || sent.lost) = true) (hcargo : SameCargo sent lost)
    (hlost : lost.accepted = sent.accepted ∧ lost.lost)
    (hslots : s'.sentPackets = s.sentPackets.set index
      (if !lost.dataDelivered || s.sentPacketHasPendingFin lost then some lost else none))
    (hbuffer : s'.sendBuffer = s.sendBuffer) (hnumber : s'.nextPacketNumber = s.nextPacketNumber)
    (hpaths : s'.paths = s.paths.modify sent.pathId f)
    (hbytes : sent.bytes ≤ u64Max → (f (s.pathAt sent.pathId)).congestion.bytesInFlight =
      (s.pathAt sent.pathId).congestion.bytesInFlight - sent.bytes)
    (horder : (f (s.pathAt sent.pathId)).nextSendOrder = (s.pathAt sent.pathId).nextSendOrder) :
    ∃ index sent new, Leaves s s' index sent new := by
  simp only [not_eq_true, or_eq_false_iff, not_eq_false'] at hflight
  have hpending : s.sentPacketHasPendingFin lost = s.sentPacketHasPendingFin sent := by
    unfold sentPacketHasPendingFin
    rw [hcargo.fin, hcargo.sendBufferSlot]
  refine ⟨index, sent, _, ⟨⟨(findSent_spec hfind).1, hslots, hbuffer, hnumber, fun o ho => ?_,
    fun hdrop => ?_⟩, hflight.1, hflight.2, fun o ho => ?_, f (s.pathAt sent.pathId), hbytes,
    horder, fun hpath => by rw [hpaths, modify_eq_set hpath]⟩⟩
  · split at ho <;> cases ho
    exact hcargo
  · split at hdrop <;> cases hdrop
    rename_i hdrop
    rw [hpending, hcargo.dataDelivered] at hdrop
    simpa using hdrop
  · split at ho <;> cases ho
    exact ⟨hlost.1.trans hflight.1, hlost.2⟩

theorem packetSubmissionFailed_leaves (packetNumber : Nat) :
    (s.packetSubmissionFailed packetNumber).1 = s ∨
      ∃ index sent new, Leaves s (s.packetSubmissionFailed packetNumber).1 index sent new := by
  unfold packetSubmissionFailed
  split
  · exact .inl rfl
  rename_i index sent hfind
  split
  · exact .inl rfl
  rename_i hflight
  have hbudget : ∀ {b : Bool}, (if b then { s with duplicationReservedBytes :=
      s.duplicationReservedBytes - sent.duplicationCharge } else s) =
      { s with
        duplicationReservedBytes := if b then s.duplicationReservedBytes - sent.duplicationCharge
        else s.duplicationReservedBytes } := by
    intro b
    cases b <;> rfl
  simp only [hbudget]
  exact .inr (leaves_of_lost { sent with lost := true } hfind hflight
    ⟨⟨rfl, rfl, rfl, rfl, rfl, rfl, rfl, rfl, rfl⟩, rfl, rfl⟩ ⟨rfl, rfl⟩ rfl rfl rfl rfl
    (fun _ => rfl) rfl)

theorem markLost_leaves (packetNumber : Nat) : (s.markLost packetNumber).1 = s ∨ ∃ index sent new,
      Leaves s (s.markLost packetNumber).1 index sent new := by
  unfold markLost
  split
  · exact .inl rfl
  rename_i index sent hfind
  split
  · exact .inl rfl
  rename_i hflight
  let lost := { sent with lost := true, inferredLost := true }
  obtain ⟨hdrops, horder, -⟩ := declareLosses_spec (s.pathAt sent.pathId) s.nextPacketNumber [lost]
  refine .inr (leaves_of_lost lost hfind hflight
    ⟨⟨rfl, rfl, rfl, rfl, rfl, rfl, rfl, rfl, rfl⟩, rfl, rfl⟩ ⟨rfl, rfl⟩ rfl rfl rfl rfl
    (fun hbytes => ?_) horder)
  rw [hdrops]
  simp [lost, hbytes]

/-- What adding a path with its connection ids can do: nothing, add it, or name it as well. -/
def Extends (s s' : EndpointState P) : Prop :=
  s' = s ∨ s' = s.addPathState.1 ∨
    ∃ (pathId : Nat) (localCid peerCid : PathState → Option ConnectionId),
    s' = s.addPathState.1.modifyPath pathId fun path =>
      { path with localCid := localCid path, peerCid := peerCid path }

theorem addPathStateWithIds_extends (localId peerId : ConnectionId) :
    Extends s (s.addPathStateWithIds localId peerId).1 := by
  unfold addPathStateWithIds Extends
  split
  · exact .inl rfl
  split
  · exact .inl rfl
  split
  · rename_i heq
    exact .inr (.inl (by rw [heq]))
  rename_i pathId heq
  exact .inr (.inr ⟨pathId, fun _ => some localId, fun _ => some peerId, by rw [heq]⟩)

theorem addPathStateWithLocalId_extends (localId : ConnectionId) :
    Extends s (s.addPathStateWithLocalId localId).1 := by
  unfold addPathStateWithLocalId Extends
  split
  · exact .inl rfl
  split
  · rename_i heq
    exact .inr (.inl (by rw [heq]))
  rename_i pathId heq
  exact .inr (.inr ⟨pathId, fun _ => some localId, PathState.peerCid, by rw [heq]⟩)

end EndpointState

end QuicLite
