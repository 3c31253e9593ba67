import QuicLite.Endpoint.Ledger

/-!
# What a call does to the ledger

A call is a sequence of `Moves`, which enter no record, or it enters one record, after losses it may
have declared (`Turn`). `step_turn` says so of every call but the two that report what became of a
submission; an invariant of the ledger is left with one case for each move. Of a call that sends
`Emits` says more: no record at all, or which record it enters, and on what charge.
-/

namespace QuicLite

namespace EndpointState

variable {P : Nat} {s' : EndpointState P}

/-- What comes before a record is entered. -/
inductive Declares : EndpointState P → EndpointState P → Prop where
  | same {s s' : EndpointState P} (h : SameLedger s s') : Declares s s'
  | idle {s s' : EndpointState P} (h : Idle s s') : Declares s s'
  | losses (s : EndpointState P) (pathId : Nat) (largestAcked : Option Nat) :
      Declares s (s.detectAckLosses pathId largestAcked)

inductive Moves : EndpointState P → EndpointState P → Prop where
  | declares {s s' : EndpointState P} (h : Declares s s') : Moves s s'
  | fails (s : EndpointState P) (packetNumber : Nat) :
      Moves s (s.packetSubmissionFailed packetNumber).1
  | marks (s : EndpointState P) (packetNumber : Nat) : Moves s (s.markLost packetNumber).1
  /-- Only the ranges that are kept for retransmission change. -/
  | ranges (s : EndpointState P) (buffer : List (Option RetainedSendRange)) (limit : Nat) :
      Moves s { s with sendBuffer := buffer, historyLimit := limit }
  | suspends (s : EndpointState P) (pathId : Nat) : Moves s (s.suspendPath pathId)
  | opens (s : EndpointState P) : Moves s s.addPathState.1
  | removes (s : EndpointState P) (pathId : Nat) : Moves s (s.removePathState pathId).1
  | resizes (s : EndpointState P) (limit : Nat) : Moves s (s.setTransmissionCapacity limit).1
  | retires (s : EndpointState P) (acknowledged : AckRangeSet) (ingressPath : Nat) :
      Moves s (s.retireTransmissions acknowledged (s.ackScan acknowledged ingressPath))
  | settles (s : EndpointState P) (data : List (Nat × Nat × Nat)) (fins : List (Nat × Nat)) :
      Moves s (s.settle data fins)

/-- Any number of moves. -/
abbrev Moved : EndpointState P → EndpointState P → Prop := Relation.ReflTransGen Moves

namespace Moved

variable {s s' : EndpointState P}

theorem same (h : SameLedger s s') : Moved s s' := .single (.declares (.same h))

theorem refl (s : EndpointState P) : Moved s s := Relation.ReflTransGen.refl

theorem foldl {α : Type} {f : EndpointState P → α → EndpointState P} (h : ∀ s a, Moved s (f s a))
    (s : EndpointState P) (l : List α) : Moved s (l.foldl f s) := by
  induction l generalizing s with
  | nil => exact refl s
  | cons a l ih => exact (h s a).trans (ih (f s a))

theorem invariant {I : EndpointState P → Prop} (hI : ∀ {s s'}, I s → Moves s s' → I s')
    (h : Moved s s') (hs : I s) :
    I s' := by
  induction h with
  | refl => exact hs
  | tail _ hmove ih => exact hI ih hmove

end Moved

/-- The packet of a new record fits the capacity, and it has the next number. -/
def Enrols (s : EndpointState P) (capacity : Nat) (s' : EndpointState P) : Prop :=
  ∃ slot sent, Enters s s' slot sent ∧ sent.packetNumber = s.nextPacketNumber ∧
    sent.bytes ≤ capacity

inductive Turn (s : EndpointState P) (capacity : Nat) (s' : EndpointState P) : Prop where
  | moves (h : Moved s s')
  | enrols {s₀ s₁ : EndpointState P} (before : Relation.ReflTransGen Declares s s₀)
      (h : Enrols s₀ capacity s₁) (after : Moved s₁ s')

/-! ## Emissions -/

/-- No record changed, nor the budget, nor the received numbers. -/
structure Trails (s s' : EndpointState P) : Prop where
  moved : Moved s s'
  slots : s'.sentPackets = s.sentPackets
  budget : s'.budget = s.budget
  ranges : s'.receivedPackets = s.receivedPackets
  floor : s'.receivePacketFloor = s.receivePacketFloor

namespace Trails

variable {s s' s'' : EndpointState P}

theorem trans (h : Trails s s') (h' : Trails s' s'') : Trails s s'' :=
  ⟨h.moved.trans h'.moved, h'.slots.trans h.slots, h'.budget.trans h.budget,
    h'.ranges.trans h.ranges, h'.floor.trans h.floor⟩

theorem of_bystands (h : Bystands s s') : Trails s s' :=
  ⟨.same h.toSameLedger, h.slots, h.budget, h.ranges, h.floor⟩

theorem of_idle (h : Idle s s') : Trails s s' := by
  have hrest := h.rest
  refine ⟨.single (.declares (.idle h)), h.slots, ?_, ?_, ?_⟩ <;> rw [hrest]
  rfl

end Trails

/-- A new record: it takes a free slot or, when there is none, that of a lost record it repairs, and
credit backs what it reserves. -/
structure Entry (target : Nat → Prop) (capacity : Nat) (s s' : EndpointState P) (slot : Nat)
    (sent : SentPacket) : Prop where
  taken : s.freeTransmissionSlot = some slot ∨ s.freeTransmissionSlot = none ∧
    ∃ n old, target n ∧ s.findSent n = some (slot, old) ∧ old.lost
  enters : Enters s s' slot sent
  number : sent.packetNumber = s.nextPacketNumber
  fits : sent.bytes ≤ capacity
  uncommitted : sent.duplicationBudgetCommitted = false
  budget : ∃ reserved, s'.budget = (s.duplicationBudgetCapacity, s.duplicationCreditBytes,
      s.duplicationCreditRemainder, reserved) ∧
    (reserved = satAdd s.duplicationReservedBytes sent.duplicationCharge ∨
      reserved = s.duplicationReservedBytes ∧ sent.duplicationCharge = 0)
  backed : sent.duplicationCharge ≤ s.duplicationBudgetAvailable
  ranges : s'.receivedPackets = s.receivedPackets
  floor : s'.receivePacketFloor = s.receivePacketFloor

/-- What a call that sends comes to, when it may repair the packets `target`. -/
inductive Emits (target : Nat → Prop) (capacity : Nat) (s s' : EndpointState P) : Prop where
  | quiet (h : Trails s s')
  /-- The packet is sent, and not tracked. -/
  | passes {pathId : Nat} {frame : Frame} {pkt : Packet} (untracked : tracksFlight frame = false)
      (number : s.nextPacketNumber < u32Max)
      (after : Trails (s.passPathControl pathId frame pkt) s')
  | records {s₀ s₁ : EndpointState P} {slot : Nat} {sent : SentPacket} (before : Idle s s₀)
      (entry : Entry target capacity s₀ s₁ slot sent) (after : Trails s₁ s')

section Emissions

variable {s : EndpointState P} {target : Nat → Prop} {pathId capacity slot order : Nat}
    {path : PathState}
variable {destination dcid : ConnectionId} {windowLimited : Bool}

theorem Emits.trails (h : Emits target capacity s s') {s'' : EndpointState P}
    (htrails : Trails s' s'') : Emits target capacity s s'' := by
  cases h with
  | quiet h => exact .quiet (h.trans htrails)
  | passes untracked number after => exact .passes untracked number (after.trans htrails)
  | records before entry after => exact .records before entry (after.trans htrails)

theorem Emits.turn (h : Emits target capacity s s') : Turn s capacity s' := by
  cases h with
  | quiet h => exact .moves h.moved
  | passes _ number after =>
    exact .moves ((Moved.same (passPathControl_same number ..)).trans after.moved)
  | records before entry after =>
    exact .enrols (.single (.idle before)) ⟨_, _, entry.enters, entry.number, entry.fits⟩
      after.moved

theorem probeCharge_le (s : EndpointState P) (frame : Frame) (bytes : Nat) :
    s.probeCharge frame bytes ≤ s.duplicationBudgetAvailable := by
  unfold probeCharge
  split
  · rename_i h
    exact h.2
  · exact Nat.zero_le _

theorem enterPathControl_entry {frame : Frame} {plan : PathControlPlan} {ptoProbe : Bool}
    (hspec : PathControlSpec none s pathId destination frame capacity ptoProbe plan)
    (hfree : s.freeTransmissionSlot = some slot)
    (hcharges : Charges (s.pathAt pathId) path plan.packet.bytes.length) :
    ∃ s₁ sent, Entry target capacity s s₁ slot sent ∧ Trails s₁ ((s.setPath pathId
      path).enterPathControl pathId order windowLimited frame plan.packet slot) := by
  refine ⟨_, _, by
    exact ⟨.inl hfree, recordSent_enters hspec.path hcharges hspec.number
      (free_of_transmissionSlot hfree) rfl rfl rfl rfl rfl rfl, rfl, hspec.packet.formed.fits, rfl,
      ⟨_, rfl, .inl rfl⟩, s.probeCharge_le frame _, rfl, rfl⟩,
    .of_bystands (noteStatusSent_same _ pathId frame)⟩

/-- A repair takes a free slot, or that of the lost record it repairs. -/
theorem commitRepair_entry {packetNumber : Nat} {plan : RepairPlan} {budgeted : Bool}
    (among : target packetNumber) (hspec : RepairSpec none s packetNumber pathId capacity plan)
    (hcharges : Charges (s.pathAt pathId) path plan.packet.bytes.length)
    (hbacked : budgeted → plan.packet.bytes.length ≤ s.duplicationBudgetAvailable) :
    ∃ sent, Entry target capacity s ((s.setPath pathId path).commitRepair pathId order
      windowLimited budgeted plan) plan.slot sent := by
  obtain ⟨_, -, hwritten⟩ := hspec.packet
  refine ⟨_, ?_, recordSent_enters hspec.path hcharges hspec.number hspec.free rfl rfl rfl rfl rfl
    rfl, rfl, hwritten.formed.fits, rfl, ?_, ?_, rfl, rfl⟩
  · obtain ⟨index, sent, range, hfind, -, -, -, -, -, ⟨hfree, -⟩ | ⟨hfull, hlost, hslot, -⟩⟩ :=
      hspec.source
    · exact .inl hfree
    · exact .inr ⟨hfull, packetNumber, sent, among, hslot ▸ hfind, hlost⟩
  · cases budgeted with
    | false => exact ⟨_, rfl, .inr ⟨rfl, rfl⟩⟩
    | true => exact ⟨_, rfl, .inl rfl⟩
  · cases budgeted with
    | false => exact Nat.zero_le _
    | true => exact hbacked rfl

theorem Recovers.emits {pkt : Option Packet} (h : Recovers none s target capacity s' pkt) :
    Emits target capacity s s' := by
  cases h with
  | idle h => exact .quiet (.of_idle h)
  | repair among before spec charges backed after =>
    obtain ⟨sent, hentry⟩ := commitRepair_entry among spec charges backed
    exact .records before hentry (.of_idle after)
  | probe before _ spec free charges after =>
    obtain ⟨s₁, sent, hentry, htrails⟩ := enterPathControl_entry spec free charges
    exact .records before hentry (htrails.trans (.of_idle after))

theorem encodeStream_emits {frame : StreamFrame} (retain : Bool) : Emits target capacity s
    (s.encodeStreamPacketOnPathInner none pathId dcid frame capacity retain).1 := by
  rcases s.encodeStreamPacketOnPathInner_cases none pathId dcid frame capacity retain with
    ⟨send, -, hidle, -⟩ | ⟨plan, path, windowLimited, send, send', hspec, hnumber, hcharges, -, -,
      heq⟩
  · have hsend : Bystands s { s with send := send } :=
      ⟨⟨rfl, rfl, rfl, le_refl _, id⟩, rfl, rfl, rfl⟩
    exact .quiet ((Trails.of_bystands hsend).trans (.of_idle hidle))
  rw [heq]
  have hentry : ∃ slot sent, Entry target capacity s (({ s with
      send := send : EndpointState P }.setPath pathId path).enterStream pathId
        (s.pathAt pathId).nextSendOrder windowLimited frame plan retain) slot sent :=
    ⟨_, _, .inl hspec.slot, recordSent_enters hspec.path hcharges hnumber
      (free_of_transmissionSlot hspec.slot) rfl rfl rfl rfl rfl rfl, rfl, hspec.packet.formed.fits,
      rfl, ⟨_, rfl, .inr ⟨rfl, rfl⟩⟩, Nat.zero_le _, rfl, rfl⟩
  obtain ⟨slot, sent, hentry⟩ := hentry
  refine .records (.refl s) hentry (.trans (.of_bystands ?_)
    (.of_bystands (commitPiggyback_same _ pathId s.nextPacketNumber plan.control)))
  exact ⟨⟨rfl, rfl, rfl, le_refl _, id⟩, rfl, rfl, rfl⟩

theorem encodeOwned_emits {frame : StreamFrame} : Emits target capacity s
    (s.encodeStreamPacketFromOwnedOnPath none pathId dcid frame capacity).1 := by
  have hinner : Emits target capacity s
      (s.encodeStreamPacketOnPathInner none pathId dcid frame capacity false).1 :=
    encodeStream_emits false
  unfold encodeStreamPacketFromOwnedOnPath
  split
  · rename_i heq
    rw [heq] at hinner
    exact hinner
  rename_i heq
  rw [heq] at hinner
  split
  · exact hinner
  · exact hinner.trails ⟨.single (.ranges _ _ _), rfl, rfl, rfl, rfl⟩

theorem encodePathControl_emits {frame : Frame} : Emits target capacity s
    (s.encodePathControlPacket none pathId destination frame capacity).1 := by
  unfold encodePathControlPacket
  rcases s.encodePathControlPacketInner_cases none pathId destination frame capacity false with
    ⟨heq, -⟩ | ⟨plan, hspec, -, ⟨htracks, heq⟩ | ⟨slot, path, windowLimited, hfree, hcharges, heq⟩⟩
  · rw [heq]
    exact .quiet (.of_idle (.refl s))
  · rw [heq]
    exact .passes htracks hspec.number (.of_idle (.refl _))
  · rw [heq]
    obtain ⟨s₁, sent, hentry, htrails⟩ := enterPathControl_entry hspec hfree hcharges
    exact .records (.refl s) hentry htrails

theorem duplicateCreditControl_emits {source count : Nat}
    {includeAck includeMaxData includeMaxStreams : Bool} :
    Emits target capacity s (s.duplicateCreditControlOnPath none source pathId includeAck
      includeMaxData count includeMaxStreams capacity).1 := by
  rcases s.duplicateCreditControlOnPath_cases none source pathId includeAck includeMaxData count
    includeMaxStreams capacity
    with ⟨hidle, -⟩ | ⟨pkt, slot, path, windowLimited, hspec, hcharges, hbacked, heq⟩
  · exact .quiet (.of_idle hidle)
  rw [heq]
  obtain ⟨_, -, hwritten⟩ := hspec.packet
  exact .records (.refl s) (by
    exact ⟨.inl hspec.slot, recordSent_enters hspec.path hcharges hspec.number
      (free_of_transmissionSlot hspec.slot) rfl rfl rfl rfl rfl rfl, rfl, hwritten.formed.fits, rfl,
      ⟨_, rfl, .inl rfl⟩, hbacked, rfl, rfl⟩) (.of_idle (.refl _))

theorem sendDatagram_emits {start : Nat} {data : Bytes} {storage : DatagramStorage}
    {priority : DatagramPriority} : Emits target storage.mtu s
    (s.sendDatagram none pathId start data storage priority).1 := by
  rcases s.sendDatagram_cases none pathId start data storage priority with
    ⟨hidle, -⟩ | ⟨pkt, slot, path, windowLimited, _, hspec, hfree, hcharges, heq, -⟩
  · exact .quiet (.of_idle hidle)
  rw [heq]
  obtain ⟨_, -, hformed⟩ := hspec.packet
  exact .records (.refl s) (by
    exact ⟨.inl hfree, recordSent_enters hspec.path hcharges hspec.number
      (free_of_transmissionSlot hfree) rfl rfl (Nat.mod_eq_of_lt (Nat.succ_lt_succ hspec.number))
      rfl rfl rfl, rfl, hformed.fits, rfl, ⟨_, rfl, .inr ⟨rfl, rfl⟩⟩, Nat.zero_le _, rfl, rfl⟩)
    (.of_idle (.refl _))

end Emissions

/-- How long the packet of a call may get. -/
def room : Op → Nat
  | .encodeStreamPacket _ _ _ capacity | .encodeStreamPacketFromOwned _ _ _ capacity
  | .encodePathControlPacket _ _ _ capacity | .retransmitStreamPacket _ capacity
  | .retransmitStreamPacketOnPath _ _ capacity | .duplicateStreamPacket _ _ capacity
  | .duplicateCreditControl _ _ _ _ _ _ capacity | .retransmitMarkedLoss capacity
  | .retransmitPtoProbe _ capacity | .retransmitDue _ capacity => capacity
  | .sendDatagram _ _ _ storage _ => storage.mtu
  | _ => 0

variable (s : EndpointState P)

/-- The packets that a call may repair. -/
def repairs : Op → Nat → Prop
  | .retransmitStreamPacket packetNumber _ | .retransmitStreamPacketOnPath packetNumber _ _
  | .duplicateStreamPacket packetNumber _ _ => (· = packetNumber)
  | .retransmitMarkedLoss _ => s.RepairsLoss
  | .retransmitPtoProbe now _ => s.Probes now
  | _ => fun _ => False

/-- The calls that do nothing but send a packet. -/
def sends : Op → Bool
  | .encodeStreamPacket .. | .encodeStreamPacketFromOwned .. | .encodePathControlPacket ..
  | .sendDatagram .. | .duplicateCreditControl .. | .retransmitStreamPacket ..
  | .retransmitStreamPacketOnPath .. | .duplicateStreamPacket .. | .retransmitMarkedLoss _
  | .retransmitPtoProbe .. => true
  | _ => false

theorem step_emits {op : Op} (h : sends op) : Emits (s.repairs op) (room op) s (s.step op) := by
  cases op with
  | encodeStreamPacket => exact encodeStream_emits true
  | encodeStreamPacketFromOwned => exact encodeOwned_emits
  | encodePathControlPacket => exact encodePathControl_emits
  | sendDatagram => exact sendDatagram_emits
  | duplicateCreditControl => exact duplicateCreditControl_emits
  | retransmitStreamPacket => exact (s.retransmitStreamPacket_recovers none ..).emits
  | retransmitStreamPacketOnPath | duplicateStreamPacket =>
    exact (s.retransmitStreamPacketWithProbe_recovers none ..).emits
  | retransmitMarkedLoss => exact (s.retransmitMarkedLoss_recovers none _).emits
  | retransmitPtoProbe => exact (s.retransmitPtoProbe_recovers none ..).emits
  | _ => cases h

/-! ## Losses, acknowledgements and paths -/

theorem detectLosses_moved : Moved s s.detectLosses :=
  .foldl (fun t pathId => (Moved.same (modifyPath_same _ pathId fun p => flightOrder_of_keeps
    (p.detectPersistentCongestion_keeps t.peerMaxAckDelayUs t.nextPacketNumber)).toSameLedger).head
      (.declares (.losses t pathId _))) s _

theorem applyAckRangesOnPath_moved (acknowledged : AckRangeSet) (delay ingressPath : Nat) :
    Moved s (s.applyAckRangesOnPath acknowledged delay ingressPath).1 := by
  unfold applyAckRangesOnPath acknowledge
  split
  · exact .refl s
  extract_lets +lift s₁ s₂ s₃ scan data fins newlyAcked s₄ s₅ s₆
  have h₁ : SameLedger s s₁ := .of_paths (map_map_of_eq fun _ => rfl)
  have h₂ : SameLedger s₁ s₂ := by
    unfold s₂
    split
    · exact (retireCredit_same s₁).toSameLedger
    · exact .refl s₁
  have h₃ : SameLedger s₂ s₃ := ⟨rfl, rfl, rfl, le_refl _, id⟩
  have h₄ : Moved s₃ s₄ :=
    (Moved.refl s₃).tail (.retires s₃ acknowledged ingressPath) |>.tail (.settles _ data fins)
  have h₅ : SameLedger s₄ s₅ :=
    (foldl_same (fun t (fin : Nat × Nat) => tryRetireStream_same t fin.1) s₄ _).toSameLedger
  have h₆ : SameLedger s₅ s₆ := .of_paths (resetPto_flightOrder _ _ _)
  have h₇ := (takeRttSample_same s₆ scan.rttCandidate delay ingressPath).toSameLedger
  exact ((Moved.same ((h₁.trans h₂).trans h₃)).trans h₄).trans
    ((Moved.same ((h₅.trans h₆).trans h₇)).trans (detectLosses_moved _))

theorem applyControl_moved (parsed : ParsedFrames) (path : Nat) :
    Moved s (s.applyControl parsed path).1 :=
  applyControl_along .refl .trans (.same (receiveFlowControl_same _ s).toSameLedger)
    (fun t _ _ => t.applyAckRangesOnPath_moved ..) fun t _ =>
      .same (applyAckFrequency_same t _).toSameLedger

theorem receivePacketBatchOnPath_moved (input : Bytes) (path : Nat) (deferStreamAck : Bool) :
    Moved s (s.receivePacketBatchOnPath input path deferStreamAck).1 :=
  receivePacketBatchOnPath_along .refl .trans (fun _ _ _ => .same ⟨rfl, rfl, rfl, le_refl _, id⟩)
    (fun t _ _ => .same (scheduleAck_same t ..).toSameLedger) (fun t _ _ =>
      .same (observePacketOnPath_same t ..))
    (fun t _ _ _ _ => .same (receiveStreams_same t ..)) (fun _ _ _ _ => s.applyControl_moved ..) _

theorem Extends.moved (h : Extends s s') : Moved s s' := by
  rcases h with rfl | rfl | ⟨pathId, localCid, peerCid, rfl⟩
  · exact .refl _
  · exact .single (.opens s)
  · refine (Relation.ReflTransGen.single (.opens s)).tail (.declares (.same ?_))
    exact .of_paths (map_modify_of_eq (by intro p; rfl) pathId)

/-! ## Every call -/

/-- The reports of what became of a submission. -/
def reports : Op → Bool
  | .packetSubmissionBlocked _ | .packetSubmissionAccepted .. => true
  | _ => false

theorem step_turn {op : Op} (h : reports op = false) : Turn s (room op) (s.step op) := by
  cases hsends : sends op with
  | true => exact (s.step_emits hsends).turn
  | false =>
  cases op with
  | packetSubmissionBlocked | packetSubmissionAccepted => cases h
  | packetSubmissionFailed packetNumber => exact .moves (.single (.fails s packetNumber))
  | markLost packetNumber => exact .moves (.single (.marks s packetNumber))
  | retransmitDue now capacity =>
    have hdue : ∀ (ids : List Nat) (t : EndpointState P), Relation.ReflTransGen Declares t
        (ids.foldl (fun t pathId =>
          t.detectAckLosses pathId (t.pathAt pathId).largestAckedSendOrder) t) := by
      intro ids
      induction ids with
      | nil => exact fun t => .refl
      | cons id ids ih => exact fun t => .head (.losses t id _) (ih _)
    have hbefore : Relation.ReflTransGen Declares s (s.setTime now).detectDueLosses :=
      .head (.same (configOp_same s (.setTime now))) (hdue _ (s.setTime now))
    have hmoved : Moved s (s.setTime now).detectDueLosses := hbefore.lift id fun _ _ => .declares
    cases (s.retransmitDue_recovers none now capacity).emits.turn with
    | moves h => exact .moves (hmoved.trans h)
    | enrols before h after => exact .enrols (hbefore.trans before) h after
  | applyAckRanges acknowledged delay ingressPath =>
    exact .moves (s.applyAckRangesOnPath_moved acknowledged delay ingressPath)
  | receivePacketBatch => exact .moves (s.receivePacketBatchOnPath_moved ..)
  | suspendPath pathId => exact .moves (.single (.suspends s pathId))
  | addPathState => exact .moves (.single (.opens s))
  | addPathStateWithIds localId peerId =>
    exact .moves (s.addPathStateWithIds_extends localId peerId).moved
  | addPathStateWithLocalId localId =>
    exact .moves (s.addPathStateWithLocalId_extends localId).moved
  | removePathState pathId => exact .moves (.single (.removes s pathId))
  | setTransmissionCapacity limit => exact .moves (.single (.resizes s limit))
  | setHistoryCapacity limit =>
    refine .moves ?_
    show Moved s (s.setHistoryCapacity limit).1
    unfold setHistoryCapacity
    split
    · exact .refl s
    · exact .single (.ranges s _ _)
  | config | continuePacketNumbersFrom | openSendStream | setInitialPeerBudget | encodeProbePacket
  | pollTransmit | pollClose | commitStreamPacketReceive | streamConsumed
  | streamConsumedWithoutCredit | grantReceiveWindow | setReceiveGrowthLimits
  | prepareLocalBidiReceive => exact .moves (.same (s.step_sameLedger rfl))
  | _ => cases hsends

end EndpointState

end QuicLite
