import QuicLite.Endpoint.Reservations

/-!
# The duplication budget

Accepted packets earn credit, one byte for ten of theirs, and acceptance turns the reservation of a
copy or a probe into a charge. `Account` adds up what a run earned and charged beside the counters
of the endpoint; `step_account` is the one induction step.
-/

namespace QuicLite

namespace EndpointState

open Slots List Nat

variable {P : Nat} {s : EndpointState P} {log : List Posting}

/-! ## The account -/

/-- What one call moves: bytes whose acceptance earns, credit earned, and credit charged. -/
structure Posting where
  accepted : Nat
  earned : Nat
  charged : Nat

/-- An original packet that is no probe. -/
def isEarning (sent : SentPacket) : Bool :=
  sent.logicalPacketNumber == sent.packetNumber && sent.probeToken.isNone && !sent.pathProbe

/-- The record whose submission a call reports as accepted, for the first time. -/
def firstAccepted (s : EndpointState P) : Op → Option SentPacket
  | .packetSubmissionAccepted packetNumber _ =>
    ((s.findSent packetNumber).map (·.2)).filter fun sent => !sent.duplicationBudgetCommitted
  | _ => none

def posting (s : EndpointState P) (op : Op) : Posting where
  accepted := ((s.firstAccepted op).filter isEarning).elim 0 (·.bytes)
  earned := (s.step op).duplicationCreditBytes - s.duplicationCreditBytes
  charged := (s.firstAccepted op).elim 0 (·.duplicationCharge)

/-- The postings of a run. -/
def postings (s : EndpointState P) (ops : List Op) : List Posting :=
  Runs.trace step (fun s op => [s.posting op]) s ops

def acceptedBytes (log : List Posting) : Nat := (log.map (·.accepted)).sum

def earnedCredit (log : List Posting) : Nat := (log.map (·.earned)).sum

def chargedBytes (log : List Posting) : Nat := (log.map (·.charged)).sum

/-- The counters match the records and the postings. Lowering the capacity can leave less credit
than is reserved, so that reservations are backed by what was earned, not by the credit at hand. -/
structure Account (s : EndpointState P) (log : List Posting) : Prop where
  exact : s.duplicationReservedBytes = s.openCharges
  capped : s.duplicationCreditBytes ≤ s.duplicationBudgetCapacity
  creditWord : s.duplicationCreditBytes ≤ u64Max
  reservedWord : s.duplicationReservedBytes ≤ u64Max
  earned : 10 * earnedCredit log + s.duplicationCreditRemainder ≤ acceptedBytes log
  credit : s.duplicationCreditBytes + chargedBytes log ≤ earnedCredit log
  backed : s.duplicationReservedBytes + chargedBytes log ≤ earnedCredit log

namespace Account

variable {s s' : EndpointState P} {log : List Posting} {post : Posting}

variable (log)

variable (post)

theorem acceptedBytes_append :
    acceptedBytes (log ++ [post]) = acceptedBytes log + post.accepted := by simp [acceptedBytes]

theorem earnedCredit_append : earnedCredit (log ++ [post]) = earnedCredit log + post.earned := by
  simp [earnedCredit]

theorem chargedBytes_append : chargedBytes (log ++ [post]) = chargedBytes log + post.charged := by
  simp [chargedBytes]

variable {post}

variable {log}

theorem new (role : Role) (limits : ConnectionLimits) (maxPacketSize historyCapacity : Nat) :
    Account (newWithHistoryCapacity P role limits maxPacketSize historyCapacity) [] := by
  refine ⟨?_, le_refl _, zero_le _, zero_le _, le_refl _, le_refl _, le_refl _⟩
  rw [openCharges_eq_weight]
  refine (weight_eq_zero _ fun sent h => ?_).symm
  cases eq_of_mem_replicate h

section

variable (h : Account s log)
include h

theorem of_reserves (hstep : Reserves s s') (hearned : post.earned = 0)
    (hcharged : post.charged = 0) : Account s' (log ++ [post]) := by
  have hbacked := hstep.backed
  have hcredit := h.credit
  have hreserved := h.backed
  refine ⟨hstep.exact h.creditWord h.reservedWord h.exact, ?_, ?_, ?_, ?_, ?_, ?_⟩
  · rw [hstep.credit, hstep.capacity]
    exact h.capped
  · rw [hstep.credit]
    exact h.creditWord
  · exact hbacked.trans (max_le h.reservedWord h.creditWord)
  · rw [earnedCredit_append, acceptedBytes_append, hearned, hstep.remainder]
    exact h.earned.trans (le_add_right _ _)
  · rw [earnedCredit_append, chargedBytes_append, hearned, hcharged, hstep.credit]
    exact hcredit
  · rw [earnedCredit_append, chargedBytes_append]
    omega

/-- The capacity changed, and the credit with it. -/
theorem of_capacity (capacity : Nat) (hearned : post.earned = 0) (hcharged : post.charged = 0) :
    Account (s.setDuplicationBudgetCapacity capacity) (log ++ [post]) := by
  have hmin : min s.duplicationCreditBytes capacity ≤ s.duplicationCreditBytes := min_le_left _ _
  refine ⟨h.exact, min_le_right _ _, hmin.trans h.creditWord, h.reservedWord, ?_, ?_, ?_⟩
  · rw [earnedCredit_append, acceptedBytes_append, hearned]
    exact h.earned.trans (Nat.le_add_right _ _)
  · rw [earnedCredit_append, chargedBytes_append, hearned, hcharged]
    exact (Nat.add_le_add_right hmin _).trans h.credit
  · rw [earnedCredit_append, chargedBytes_append, hearned, hcharged]
    exact h.backed

section

variable {index : Nat} {sent new : SentPacket} (hget : s.sentPackets[index]? = some (some sent))
  (hslots : s'.sentPackets = s.sentPackets.set index (some new))
include hget hslots

theorem of_charge (hopen : sent.duplicationBudgetCommitted = false)
    (hcommitted : new.duplicationBudgetCommitted)
    (hbudget : s'.budget = (s.duplicationBudgetCapacity,
      s.duplicationCreditBytes - sent.duplicationCharge,
      s.duplicationCreditRemainder, s.duplicationReservedBytes - sent.duplicationCharge))
    (hearned : post.earned = 0) (hcharged : post.charged = sent.duplicationCharge) :
    Account s' (log ++ [post]) := by
  simp only [budget, Prod.mk.injEq] at hbudget
  obtain ⟨hcapacity, hcredit, hremainder, hreserved⟩ := hbudget
  have hweight := weight_set openCharge hget (some new)
  have hexact := h.exact
  have hbacked := h.backed
  rw [slotWeight_some, slotWeight_some, openCharge, openCharge, hopen, hcommitted, if_neg (by simp),
    if_pos rfl] at hweight
  rw [openCharges_eq_weight] at hexact
  refine ⟨?_, ?_, ?_, ?_, ?_, ?_, ?_⟩
  · rw [openCharges_eq_weight, hslots]
    omega
  · rw [hcredit, hcapacity]
    exact (sub_le _ _).trans h.capped
  · rw [hcredit]
    exact (sub_le _ _).trans h.creditWord
  · rw [hreserved]
    exact (sub_le _ _).trans h.reservedWord
  · rw [earnedCredit_append, acceptedBytes_append, hearned, hremainder]
    exact h.earned.trans (le_add_right _ _)
  · rw [earnedCredit_append, chargedBytes_append]
    have := h.credit
    omega
  · rw [earnedCredit_append, chargedBytes_append]
    omega

/-- An original packet earned a tenth of its bytes, as far as there is room for it. -/
theorem of_earn (hfree : sent.duplicationCharge = 0) (hcommitted : new.duplicationBudgetCommitted)
    (hbudget : s'.budget = (s.duplicationBudgetCapacity,
      min (satAdd s.duplicationCreditBytes ((sent.bytes + s.duplicationCreditRemainder) / 10))
        s.duplicationBudgetCapacity,
      (sent.bytes + s.duplicationCreditRemainder) % 10, s.duplicationReservedBytes))
    (haccepted : post.accepted = sent.bytes)
    (hearned : post.earned = s'.duplicationCreditBytes - s.duplicationCreditBytes)
    (hcharged : post.charged = 0) :
    Account s' (log ++ [post]) := by
  simp only [budget, Prod.mk.injEq] at hbudget
  obtain ⟨hcapacity, hcredit, hremainder, hreserved⟩ := hbudget
  have hweight := weight_set openCharge hget (some new)
  have hold : openCharge sent = 0 := by
    unfold openCharge
    split
    · rfl
    · exact hfree
  have hnew : openCharge new = 0 := by rw [openCharge, if_pos hcommitted]
  rw [slotWeight_some, slotWeight_some] at hweight
  -- The credit does not shrink, and grows by at most a tenth.
  have htenth : s'.duplicationCreditBytes ≤
      s.duplicationCreditBytes + (sent.bytes + s.duplicationCreditRemainder) / 10 := by
    rw [hcredit]
    exact (min_le_left _ _).trans (min_le_left _ _)
  have hexact := h.exact
  rw [openCharges_eq_weight] at hexact
  refine ⟨?_, ?_, ?_, ?_, ?_, ?_, ?_⟩
  · rw [openCharges_eq_weight, hslots]
    omega
  · rw [hcredit, hcapacity]
    exact min_le_right _ _
  · rw [hcredit]
    exact (min_le_left _ _).trans (min_le_right _ _)
  · rw [hreserved]
    exact h.reservedWord
  · rw [earnedCredit_append, acceptedBytes_append]
    have := h.earned
    omega
  · rw [earnedCredit_append, chargedBytes_append]
    have := h.credit
    omega
  · rw [earnedCredit_append, chargedBytes_append]
    have := h.backed
    omega

end

end

end Account

theorem packetSubmissionAccepted_spec {packetNumber index : Nat} {sent : SentPacket} (nowUs : Nat)
    (hfind : s.findSent packetNumber = some (index, sent)) :
    ∃ new, (s.packetSubmissionAccepted packetNumber nowUs).1.sentPackets =
      s.sentPackets.set index (some new) ∧
      new.duplicationBudgetCommitted ∧
      (s.packetSubmissionAccepted packetNumber nowUs).1.budget =
        (if sent.duplicationBudgetCommitted then s else s.commitDuplicationBudget sent).budget := by
  simp only [packetSubmissionAccepted, hfind]
  have hcommit : ∀ t : EndpointState P, t.budget = s.budget →
      (t.commitDuplicationBudget sent).budget = (s.commitDuplicationBudget sent).budget ∧
      (t.commitDuplicationBudget sent).sentPackets = t.sentPackets := by
    intro t ht
    simp only [budget, Prod.mk.injEq] at ht
    obtain ⟨hcapacity, hcredit, hremainder, hreserved⟩ := ht
    unfold commitDuplicationBudget
    split_ifs <;> simp [budget, hcapacity, hcredit, hremainder, hreserved]
  generalize hcharged : (if sent.accepted then s else s.modifyPath sent.pathId fun path =>
    { path with congestion := path.congestion.onRetransmissionSent sent.bytes }) = charged
  have hrest : charged.sentPackets = s.sentPackets ∧ charged.budget = s.budget := by
    rw [← hcharged]
    split <;> exact ⟨rfl, rfl⟩
  refine ⟨{ sent with
    accepted := true
    windowLimited := if sent.accepted then sent.windowLimited
      else (s.pathAt sent.pathId).congestion.windowLimited sent.bytes
    sentAt := nowUs
    duplicationBudgetCommitted := true }, ?_, rfl, ?_⟩
  · show set _ index _ = _
    split
    · rw [hrest.1]
    · rw [(hcommit charged hrest.2).2, hrest.1]
  show budget (if sent.duplicationBudgetCommitted then
    charged else charged.commitDuplicationBudget sent) = _
  split
  · exact hrest.2
  · exact (hcommit charged hrest.2).1

/-- Acceptance moves credit the first time it is reported. -/
theorem packetSubmissionAccepted_account (h : Account s log)
    (packetNumber nowUs : Nat) : Account (s.packetSubmissionAccepted packetNumber nowUs).1
      (log ++ [s.posting (.packetSubmissionAccepted packetNumber nowUs)]) := by
  cases hfind : s.findSent packetNumber with
  | none =>
    have hstate : (s.packetSubmissionAccepted packetNumber nowUs).1 = s := by
      simp only [packetSubmissionAccepted, hfind]
    rw [hstate]
    refine h.of_reserves (.refl s) ?_ ?_
    · show (s.packetSubmissionAccepted packetNumber nowUs).1.duplicationCreditBytes - _ = 0
      rw [hstate, Nat.sub_self]
    · simp [posting, firstAccepted, hfind]
  | some found =>
    obtain ⟨index, sent⟩ := found
    have hget := (findSent_spec hfind).1
    obtain ⟨new, hslots, hcommitted, hbudget⟩ := packetSubmissionAccepted_spec nowUs hfind
    have hearned : (s.posting (.packetSubmissionAccepted packetNumber nowUs)).earned =
        (s.packetSubmissionAccepted packetNumber
          nowUs).1.duplicationCreditBytes - s.duplicationCreditBytes := rfl
    cases hfirst : sent.duplicationBudgetCommitted with
    | true =>
      rw [hfirst] at hbudget
      refine h.of_reserves (.of_set hbudget hget hslots ?_) ?_ ?_
      · rw [slotWeight_some, slotWeight_some, openCharge, openCharge, hfirst, hcommitted,
          if_pos rfl, if_pos rfl]
      · rw [hearned, show (s.packetSubmissionAccepted packetNumber nowUs).1.duplicationCreditBytes =
          s.duplicationCreditBytes from congrArg (·.2.1) hbudget, Nat.sub_self]
      · simp [posting, firstAccepted, hfind, hfirst, Option.filter_some]
    | false =>
      have hposted : s.firstAccepted (.packetSubmissionAccepted packetNumber nowUs) =
          some sent := by
        simp [firstAccepted, hfind, hfirst]
      rw [hfirst, if_neg (by simp), commitDuplicationBudget] at hbudget
      by_cases hfree : sent.duplicationCharge = 0
      · rw [if_neg (by simpa using hfree)] at hbudget
        by_cases hearns : sent.logicalPacketNumber = sent.packetNumber ∧ sent.probeToken = none ∧
          sent.pathProbe = false
        · rw [if_pos hearns] at hbudget
          refine h.of_earn hget hslots hfree hcommitted hbudget ?_ hearned ?_
          · simp [posting, hposted, isEarning, hearns, Option.filter_some]
          · simp [posting, hposted, hfree]
        rw [if_neg hearns] at hbudget
        refine h.of_reserves (.of_set hbudget hget hslots ?_) ?_ ?_
        · rw [slotWeight_some, slotWeight_some, openCharge, openCharge, hfirst, hcommitted,
            if_pos rfl, if_neg (by simp), hfree]
        · rw [hearned, show (s.packetSubmissionAccepted packetNumber
            nowUs).1.duplicationCreditBytes =
            s.duplicationCreditBytes from congrArg (·.2.1) hbudget, Nat.sub_self]
        · simp [posting, hposted, hfree]
      · rw [if_pos hfree] at hbudget
        refine h.of_charge hget hslots hfirst hcommitted hbudget ?_ ?_
        · rw [hearned, show (s.packetSubmissionAccepted packetNumber
            nowUs).1.duplicationCreditBytes =
            s.duplicationCreditBytes - sent.duplicationCharge from congrArg (·.2.1) hbudget]
          omega
        · simp [posting, hposted]

/-! ## Whole runs -/

/-- The calls that lose no reservation. Until the submission of a budgeted packet is reported as
accepted, its record is neither acknowledged nor swept as lost, a failed submission does not leave
it in the ledger, and no repair takes its slot. -/
def KeepsReservations (s : EndpointState P) : Op → Prop
  | .applyAckRanges acknowledged delay ingressPath => s.HeldThrough acknowledged delay ingressPath
  | .receivePacketBatch input ingressPath _ => s.PacketKeepsHeld input ingressPath
  | .retransmitDue now _ => (s.setTime now).Held ∧ s.SparesDue now
  | .markLost packetNumber =>
    ∀ found ∈ s.findSent packetNumber, found.2.accepted → found.2.lost = false →
      s.isRepaired found.2 = false → openCharge found.2 = 0
  | .packetSubmissionFailed packetNumber =>
    ∀ found ∈ s.findSent packetNumber, found.2.accepted → found.2.lost = false →
      s.isRepaired found.2 = true → openCharge found.2 = 0
  | .retransmitStreamPacket packetNumber _ | .retransmitStreamPacketOnPath packetNumber _ _
  | .duplicateStreamPacket packetNumber _ _ => s.Spares packetNumber
  | .retransmitMarkedLoss _ => ∀ packet ∈ s.markedLossCandidate, s.Spares packet.packetNumber
  | .retransmitPtoProbe now _ => ∀ packet ∈ s.ptoCandidate now, s.Spares packet.packetNumber
  | _ => True

/-- A call that reports no first acceptance, and moves no credit. -/
theorem Account.of_step {op : Op} (h : Account s log)
    (hstep : Reserves s (s.step op)) (hfirst : s.firstAccepted op = none) :
    Account (s.step op) (log ++ [s.posting op]) := by
  apply h.of_reserves hstep
  · show (s.step op).duplicationCreditBytes - s.duplicationCreditBytes = 0
    rw [hstep.credit, Nat.sub_self]
  show (s.firstAccepted op).elim 0 _ = 0
  rw [hfirst]
  rfl

theorem configOp_account (h : Account s log) (op : ConfigOp) :
    Account (s.step (.config op)) (log ++ [s.posting (.config op)]) := by
  cases hset : setsBudget op with
  | false => exact h.of_step (.of_bystands (configOp_bystands s hset)) rfl
  | true =>
    cases op with
    | setDuplicationBudgetCapacity capacity =>
      refine h.of_capacity capacity ?_ rfl
      show min s.duplicationCreditBytes capacity - s.duplicationCreditBytes = 0
      omega
    | _ => cases hset

theorem step_account (s : EndpointState P) (log : List Posting) (op : Op) (h : Account s log)
    (hok : s.KeepsReservations op) : Account (s.step op) (log ++ [s.posting op]) := by
  cases hsends : sends op with
  | true =>
    have hnone : s.firstAccepted op = none := by
      unfold firstAccepted
      split
      · cases hsends
      · rfl
    refine h.of_step ((s.step_emits hsends).reserves fun n hn => ?_) hnone
    cases op with
    | retransmitMarkedLoss =>
      obtain ⟨packet, hpacket, rfl⟩ := hn
      exact hok packet hpacket
    | retransmitPtoProbe =>
      obtain ⟨packet, hpacket, rfl⟩ := hn
      exact hok packet hpacket
    | retransmitStreamPacket | retransmitStreamPacketOnPath | duplicateStreamPacket =>
      obtain rfl := hn
      exact hok
    | _ => cases hn
  | false =>
  cases op with
  | config => exact configOp_account h ..
  | packetSubmissionAccepted => exact packetSubmissionAccepted_account h ..
  | applyAckRanges => exact h.of_step (applyAckRangesOnPath_reserves hok) rfl
  | receivePacketBatch => exact h.of_step (receivePacketBatchOnPath_reserves hok) rfl
  | retransmitDue => exact h.of_step (retransmitDue_reserves hok.1 hok.2) rfl
  | markLost => exact h.of_step (markLost_reserves hok) rfl
  | packetSubmissionFailed => exact h.of_step (packetSubmissionFailed_reserves hok) rfl
  | packetSubmissionBlocked => exact h.of_step packetSubmissionBlocked_reserves rfl
  | suspendPath => exact h.of_step suspendPath_reserves rfl
  | addPathState => exact h.of_step addPathState_reserves rfl
  | addPathStateWithIds => exact h.of_step (addPathStateWithIds_extends ..).reserves rfl
  | addPathStateWithLocalId => exact h.of_step (addPathStateWithLocalId_extends ..).reserves rfl
  | removePathState => exact h.of_step removePathState_reserves rfl
  | setTransmissionCapacity => exact h.of_step setTransmissionCapacity_reserves rfl
  | setHistoryCapacity => exact h.of_step setHistoryCapacity_reserves rfl
  | continuePacketNumbersFrom | openSendStream | setInitialPeerBudget | encodeProbePacket
  | pollTransmit | pollClose | commitStreamPacketReceive | streamConsumed
  | streamConsumedWithoutCredit | grantReceiveWindow | setReceiveGrowthLimits
  | prepareLocalBidiReceive =>
    exact h.of_step (.of_ledger (s.step_budget rfl (by simp)) (s.step_sameLedger rfl)) rfl
  | _ => cases hsends

/-- In every run that loses no reservation, the reserved bytes are the charges of the records whose
submission is not reported as accepted, the credit stays within its capacity, what was earned is at
most a tenth of the original bytes accepted, and what was charged is at most what was earned. -/
theorem budget_conserved_of_run {role : Role} {limits : ConnectionLimits}
    {maxPacketSize historyCapacity : Nat} {ops : List Op} (hrun : Runs.Along step KeepsReservations
      (newWithHistoryCapacity P role limits maxPacketSize historyCapacity) ops) :
    let start : EndpointState P :=
  newWithHistoryCapacity P role limits maxPacketSize historyCapacity
    let final := Runs.exec step start ops
    let log := start.postings ops
    final.duplicationReservedBytes = final.openCharges ∧
      final.duplicationCreditBytes ≤ final.duplicationBudgetCapacity ∧
      10 * earnedCredit log + final.duplicationCreditRemainder ≤ acceptedBytes log ∧
      chargedBytes log + final.duplicationReservedBytes ≤ earnedCredit log := by
  have h : Account _ ([] ++ Runs.trace step (fun s op => [s.posting op]) _ ops) :=
    hrun.invariant_trace step_account (.new role limits maxPacketSize historyCapacity)
  refine ⟨h.exact, h.capped, h.earned, ?_⟩
  rw [add_comm]
  exact h.backed

/-- A stream packet earns credit, and a path response reserves some of it. -/
def reservingRun : List Op :=
  [.config (.installConnectionIds clientId serverId), .config (.setDuplicationBudgetCapacity 10000),
    .openSendStream 4 50000,
      .encodeStreamPacket 0 serverId ⟨4, 0, false, List.replicate 300 7⟩ 1100,
    .packetSubmissionAccepted 0 10, .encodePathControlPacket 0 serverId (.pathResponse 9) 1100]

/-- A later packet of the same path is acknowledged first, which is not enough to declare the
response lost. -/
def acceptedRun : List Op :=
  reservingRun ++ [.encodeStreamPacket 0 serverId ⟨4, 300, false, [7]⟩ 1100,
    .applyAckRanges (AckRangeSet.new.insert 2) 0 0, .packetSubmissionAccepted 1 20,
    .applyAckRanges (AckRangeSet.new.insert 1) 0 0]

theorem acceptedRun_conserved : Runs.Along step KeepsReservations freshClient acceptedRun ∧
      (Runs.exec step freshClient acceptedRun).duplicationReservedBytes =
        (Runs.exec step freshClient acceptedRun).openCharges := by
  have hrun : Runs.Along step KeepsReservations freshClient acceptedRun := by
    refine ⟨trivial, trivial, trivial, trivial, trivial, trivial, trivial, ?_, trivial, ?_, trivial⟩
    · show HeldThrough _ _ _ _
      decide +kernel
    · show HeldThrough _ _ _ _
      decide +kernel
  exact ⟨hrun, (budget_conserved_of_run hrun).1⟩

/-- The response is acknowledged before its submission is reported as accepted: its record goes, and
the reservation stays. -/
theorem ack_before_accepted_leaks : (Runs.exec step freshClient
      (reservingRun ++ [.applyAckRanges (AckRangeSet.new.insert 1) 0 0])).duplicationReservedBytes ≠
      (Runs.exec step freshClient
        (reservingRun ++ [.applyAckRanges (AckRangeSet.new.insert 1) 0 0])).openCharges := by
  decide +kernel

end EndpointState

end QuicLite
