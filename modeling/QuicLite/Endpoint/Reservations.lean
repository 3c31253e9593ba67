import QuicLite.Endpoint.Moves

/-!
# Reservations of the duplication budget

A proactive copy or a path probe reserves credit for its own bytes when it is entered. The endpoint
keeps the sum of the reservations in one counter, so it has to give a reservation back when its
record goes before the submission was accepted. Only a failed submission does that. `Reserves` says
that a step moved no credit and kept the counter exact; each call is shown to be such a step, the
ones that drop records under a condition.
-/

namespace QuicLite

namespace EndpointState

open Slots List Option Bool Nat PathState

variable {P : Nat} {packetNumber ingressPath : Nat} {s' : EndpointState P}
    {acknowledged : AckRangeSet}
variable {index slot limit : Nat} {f : SentPacket → Option SentPacket} {sent : SentPacket}

/-- What a record holds reserved. -/
def openCharge (sent : SentPacket) : Nat :=
  if sent.duplicationBudgetCommitted then 0 else sent.duplicationCharge

/-- What the records hold reserved together. -/
def openCharges (s : EndpointState P) : Nat :=
  ((s.records.filter fun sent => !sent.duplicationBudgetCommitted).map (·.duplicationCharge)).sum

variable (s : EndpointState P)

theorem openCharges_eq_weight : s.openCharges = weight openCharge s.sentPackets := by
  rw [weight_eq_sum_entries]
  show ((s.records.filter fun sent => !sent.duplicationBudgetCommitted).map
    (·.duplicationCharge)).sum =
    (s.records.map openCharge).sum
  induction s.records with
  | nil => rfl
  | cons sent records ih =>
    cases hcommitted : sent.duplicationBudgetCommitted <;> simp [hcommitted, openCharge, ih]

/-! ## Steps that move no credit -/

/-- Only reservations changed: they match the records as before, and credit backs what was added. -/
structure Reserves (s s' : EndpointState P) : Prop where
  capacity : s'.duplicationBudgetCapacity = s.duplicationBudgetCapacity
  credit : s'.duplicationCreditBytes = s.duplicationCreditBytes
  remainder : s'.duplicationCreditRemainder = s.duplicationCreditRemainder
  exact : s.duplicationCreditBytes ≤ u64Max → s.duplicationReservedBytes ≤ u64Max →
    s.duplicationReservedBytes = s.openCharges → s'.duplicationReservedBytes = s'.openCharges
  backed : s'.duplicationReservedBytes ≤ max s.duplicationReservedBytes s.duplicationCreditBytes

namespace Reserves

variable {s s' s'' : EndpointState P} {old : Option SentPacket}

theorem trans (h : Reserves s s') (h' : Reserves s' s'') : Reserves s s'' where
  capacity := h'.capacity.trans h.capacity
  credit := h'.credit.trans h.credit
  remainder := h'.remainder.trans h.remainder
  exact := by
    intro hcredit hreserved hexact
    have hword : s'.duplicationReservedBytes ≤ u64Max := h.backed.trans (max_le hreserved hcredit)
    exact h'.exact (h.credit ▸ hcredit) hword (h.exact hcredit hreserved hexact)
  backed := by
    have hsecond := h'.backed
    rw [h.credit] at hsecond
    exact hsecond.trans (max_le h.backed (le_max_right _ _))

/-- Neither the counters nor the reservations of the records changed. -/
theorem of_same (hbudget : s'.budget = s.budget) (hcharges : s'.openCharges = s.openCharges) :
    Reserves s s' := by
  simp only [budget, Prod.mk.injEq] at hbudget
  obtain ⟨hcapacity, hcredit, hremainder, hreserved⟩ := hbudget
  refine ⟨hcapacity, hcredit, hremainder, fun _ _ hexact => ?_, ?_⟩
  · rw [hreserved, hexact, hcharges]
  · rw [hreserved]
    exact le_max_left _ _

theorem refl (s : EndpointState P) : Reserves s s := of_same rfl rfl

theorem of_slots (hbudget : s'.budget = s.budget) (hslots : s'.sentPackets = s.sentPackets) :
    Reserves s s' :=
  of_same hbudget (by rw [openCharges_eq_weight, openCharges_eq_weight, hslots])

theorem of_ledger (hbudget : s'.budget = s.budget) (h : SameLedger s s') : Reserves s s' :=
  of_slots hbudget h.slots

theorem of_bystands (h : Bystands s s') : Reserves s s' := of_slots h.budget h.slots

theorem of_idle (h : Idle s s') : Reserves s s' := of_slots (by rw [h.rest]; rfl) h.slots

/-- One record was replaced, and it holds what it held. -/
theorem of_set {new : Option SentPacket} (hbudget : s'.budget = s.budget)
    (hold : s.sentPackets[index]? = some old)
    (hslots : s'.sentPackets = s.sentPackets.set index new)
    (hcharge : slotWeight openCharge new = slotWeight openCharge old) : Reserves s s' := by
  apply of_same hbudget
  have hweight := weight_set openCharge hold new
  rw [openCharges_eq_weight, openCharges_eq_weight, hslots]
  omega

/-- Every record became at most one, and holds what it held. -/
theorem of_bind (hbudget : s'.budget = s.budget)
    (hslots : s'.sentPackets = s.sentPackets.map (Option.bind · f))
    (hcharge : ∀ sent, some sent ∈ s.sentPackets →
      slotWeight openCharge (f sent) = openCharge sent) : Reserves s s' := by
  apply of_same hbudget
  rw [openCharges_eq_weight, openCharges_eq_weight, hslots, weight_bind]
  exact weight_congr hcharge

/-- A record is entered into a slot that holds no reservation, with a charge that the credit
covers. -/
theorem of_enters {reserved : Nat}
    (hold : s.sentPackets[slot]? = some old) (hidle : slotWeight openCharge old = 0)
    (hslots : s'.sentPackets = s.sentPackets.set slot (some sent))
    (hopen : sent.duplicationBudgetCommitted = false)
    (hbudget : s'.budget = (s.duplicationBudgetCapacity, s.duplicationCreditBytes,
      s.duplicationCreditRemainder,
      reserved)) (hreserves : reserved = satAdd s.duplicationReservedBytes sent.duplicationCharge ∨
      reserved = s.duplicationReservedBytes ∧ sent.duplicationCharge = 0)
    (hcharge : sent.duplicationCharge ≤ s.duplicationBudgetAvailable) : Reserves s s' := by
  simp only [budget, Prod.mk.injEq] at hbudget
  obtain ⟨hcapacity, hcredit, hremainder, hreserved⟩ := hbudget
  have hweight := weight_set openCharge hold (some sent)
  rw [slotWeight_some, openCharge, hopen, if_neg (by simp)] at hweight
  unfold duplicationBudgetAvailable at hcharge
  refine ⟨hcapacity, hcredit, hremainder, fun hcreditWord hreservedWord hexact => ?_, ?_⟩
  · rw [openCharges_eq_weight] at hexact ⊢
    -- The counter cannot saturate: it stays within the credit.
    have hfits : s.duplicationReservedBytes + sent.duplicationCharge ≤ u64Max := by omega
    have hsum : reserved = s.duplicationReservedBytes + sent.duplicationCharge := by
      rcases hreserves with hsat | ⟨hkept, hzero⟩
      · rw [hsat]
        exact min_eq_left hfits
      · rw [hkept, hzero, add_zero]
    rw [hreserved, hslots]
    omega
  · rw [hreserved]
    rcases hreserves with hsat | ⟨hkept, -⟩
    · have hle : reserved ≤ s.duplicationReservedBytes + sent.duplicationCharge :=
        hsat ▸ min_le_left _ _
      omega
    · exact hkept ▸ le_max_left _ _

end Reserves

/-! ## Calls that leave the budget alone -/

variable (pathId : Nat)

theorem observePacketOnPath_budget (packetNumber pathId : Nat) :
    (s.observePacketOnPath packetNumber pathId).budget = s.budget := by
  unfold observePacketOnPath
  split
  · rfl
  split
  · rfl
  · simp only
    split <;> rfl

theorem commitStreamPacketReceive_budget (packetNumber ingressPath : Nat) :
    (s.commitStreamPacketReceive packetNumber ingressPath).budget = s.budget := by
  unfold commitStreamPacketReceive
  rw [(scheduleAck_same _ _ _).budget, observePacketOnPath_budget]
  split <;> rfl

/-- The calls that leave the ledger alone leave the budget alone, but for that one. -/
theorem step_budget {op : Op} (h : leavesLedger op)
    (hconfig : ∀ config, op = .config config → setsBudget config = false) :
    (s.step op).budget = s.budget := by
  cases op with
  | commitStreamPacketReceive packetNumber path =>
    exact commitStreamPacketReceive_budget s packetNumber path
  | _ => exact (step_bystands s h (by simp) hconfig).budget

/-! ## Emissions -/

/-- A lost record gives way to its repair only where no slot is free. -/
def Spares (s : EndpointState P) (packetNumber : Nat) : Prop :=
  s.freeTransmissionSlot = none → ∀ found ∈ s.findSent packetNumber, found.2.lost →
    openCharge found.2 = 0

instance (s : EndpointState P) (packetNumber : Nat) : Decidable (s.Spares packetNumber) :=
  inferInstanceAs (Decidable (_ → ∀ found ∈ _, _))

section Emissions

variable {s : EndpointState P} {pathId capacity : Nat} {frame : Frame} {pkt : Packet}

/-- What stays out of the ledger is no probe, and reserves nothing. -/
theorem passPathControl_reserves (h : tracksFlight frame = false) :
    Reserves s (s.passPathControl pathId frame pkt) := by
  have hcharge : s.probeCharge frame pkt.bytes.length = 0 := by
    cases frame <;> simp [tracksFlight, probeCharge, isPathProbe] at h ⊢
  refine .trans ?_ (.of_bystands (noteStatusSent_same _ pathId frame))
  refine ⟨rfl, rfl, rfl, fun _ hword hexact => ?_, ?_⟩
  · show satAdd s.duplicationReservedBytes (s.probeCharge frame pkt.bytes.length) = _
    rw [hcharge]
    exact (min_eq_left hword).trans hexact
  show satAdd s.duplicationReservedBytes (s.probeCharge frame pkt.bytes.length) ≤ _
  rw [hcharge, satAdd]
  exact (min_le_left _ _).trans (le_max_left _ _)

theorem Spares.of_idle (h : Idle s s') (hspares : s.Spares packetNumber) :
    s'.Spares packetNumber := by
  rw [h.rest]
  exact hspares

theorem Emits.reserves {target : Nat → Prop} (h : Emits target capacity s s')
    (hspares : ∀ n, target n → s.Spares n) : Reserves s s' := by
  cases h with
  | quiet h => exact .of_slots h.budget h.slots
  | passes untracked _ after =>
    exact (passPathControl_reserves untracked).trans (.of_slots after.budget after.slots)
  | @records s₀ s₁ slot sent before entry after =>
    have hold : ∃ old, s₀.sentPackets[slot]? = some old ∧ slotWeight openCharge old = 0 := by
      rcases entry.taken with hfree | ⟨hfull, n, old, htarget, hfind, hlost⟩
      · exact ⟨none, free_getElem? hfree, rfl⟩
      · exact ⟨some old, (findSent_spec hfind).1,
          (hspares n htarget).of_idle before hfull (slot, old) hfind hlost⟩
    obtain ⟨old, hold, hidle⟩ := hold
    obtain ⟨reserved, hbudget, hreserves⟩ := entry.budget
    exact ((Reserves.of_idle before).trans (.of_enters hold hidle entry.enters.slots
      entry.uncommitted hbudget hreserves entry.backed)).trans (.of_slots after.budget after.slots)

end Emissions

/-! ## Outcomes and tables -/

variable {s}

/-- A record that a loss leaves in the ledger. -/
def isRepaired (s : EndpointState P) (sent : SentPacket) : Bool :=
  !sent.dataDelivered || s.sentPacketHasPendingFin sent

theorem markLost_reserves (h : ∀ found ∈ s.findSent packetNumber, found.2.accepted →
    found.2.lost = false →
      s.isRepaired found.2 = false → openCharge found.2 = 0) :
      Reserves s (s.markLost packetNumber).1 := by
  unfold markLost
  split
  · exact .refl s
  rename_i index sent hfind
  split
  · exact .refl s
  rename_i hflight
  simp only [not_eq_true, or_eq_false_iff, not_eq_false'] at hflight
  refine .of_set rfl (findSent_spec hfind).1 rfl ?_
  show slotWeight openCharge (if s.isRepaired sent then _ else none) = openCharge sent
  cases hrepaired : s.isRepaired sent with
  | true => rfl
  | false => exact (h (index, sent) hfind hflight.1 hflight.2 hrepaired).symm

/-- What a failed submission does to the budget: it gives back what its record held. -/
theorem packetSubmissionFailed_spec
    (hfind : s.findSent packetNumber = some (index, sent)) (haccepted : sent.accepted)
    (hlost : sent.lost = false) : (s.packetSubmissionFailed packetNumber).1.budget =
      (s.duplicationBudgetCapacity, s.duplicationCreditBytes,
        s.duplicationCreditRemainder, s.duplicationReservedBytes - openCharge sent) ∧
      (s.packetSubmissionFailed packetNumber).1.sentPackets = s.sentPackets.set index
        (if s.isRepaired sent then some { sent with lost := true } else none) := by
  simp only [packetSubmissionFailed, hfind, haccepted, hlost, openCharge]
  cases hcommitted : sent.duplicationBudgetCommitted with
  | true => exact ⟨rfl, rfl⟩
  | false =>
    by_cases hcharge : sent.duplicationCharge = 0
    · rw [hcharge]
      exact ⟨rfl, rfl⟩
    · rw [if_neg (by simp), if_pos (by simpa using hcharge)]
      exact ⟨rfl, rfl⟩

/-- The reservation is given back, so the record has to go with it. -/
theorem packetSubmissionFailed_reserves
    (h : ∀ found ∈ s.findSent packetNumber, found.2.accepted → found.2.lost = false →
      s.isRepaired found.2 = true → openCharge found.2 = 0) :
      Reserves s (s.packetSubmissionFailed packetNumber).1 := by
  cases hfind : s.findSent packetNumber with
  | none =>
    simp only [packetSubmissionFailed, hfind]
    exact .refl s
  | some found =>
  obtain ⟨index, sent⟩ := found
  by_cases hflight : (!sent.accepted || sent.lost) = true
  · simp only [packetSubmissionFailed, hfind, if_pos hflight]
    exact .refl s
  simp only [not_eq_true, or_eq_false_iff, not_eq_false'] at hflight
  obtain ⟨hbudget, hslots⟩ := packetSubmissionFailed_spec hfind hflight.1 hflight.2
  simp only [budget, Prod.mk.injEq] at hbudget
  obtain ⟨hcapacity, hcredit, hremainder, hreserved⟩ := hbudget
  -- Either way the slot ends up with nothing reserved.
  have hnew : slotWeight openCharge (if s.isRepaired sent then
      some { sent with lost := true } else none) = 0 := by
    cases hrepaired : s.isRepaired sent with
    | true => exact h (index, sent) hfind hflight.1 hflight.2 hrepaired
    | false => rfl
  have hweight := weight_set openCharge (findSent_spec hfind).1
    (if s.isRepaired sent then some { sent with lost := true } else none)
  rw [slotWeight_some] at hweight
  refine ⟨hcapacity, hcredit, hremainder, fun _ _ hexact => ?_, ?_⟩
  · rw [openCharges_eq_weight] at hexact ⊢
    rw [hslots]
    omega
  · rw [hreserved]
    exact (sub_le _ _).trans (le_max_left _ _)

theorem packetSubmissionBlocked_reserves :
    Reserves s (s.packetSubmissionBlocked packetNumber).1 := by
  cases hfind : s.findSent packetNumber with
  | none =>
    simp only [packetSubmissionBlocked, hfind]
    exact .refl s
  | some found =>
    obtain ⟨index, sent⟩ := found
    have hrelabels := (packetSubmissionBlocked_relabels hfind).1
    refine .of_set ?_ hrelabels.found hrelabels.slots rfl
    simp only [packetSubmissionBlocked, hfind]
    cases sent.accepted <;> rfl

/-- Every record keeps what it holds when the others do. -/
theorem map_reserves {f : SentPacket → SentPacket} (hbudget : s'.budget = s.budget)
    (hslots : s'.sentPackets = s.sentPackets.map (Option.map f))
    (hf : ∀ sent, openCharge (f sent) = openCharge sent) : Reserves s s' :=
  .of_bind hbudget (hslots.trans (map_eq_bind f s.sentPackets)) fun sent _ => hf sent

theorem suspendPath_reserves {pathId : Nat} : Reserves s (s.suspendPath pathId) := by
  unfold suspendPath
  split
  · exact .refl s
  · refine map_reserves rfl rfl fun sent => ?_
    split <;> rfl

theorem removePathState_reserves {pathId : Nat} : Reserves s (s.removePathState pathId).1 := by
  unfold removePathState
  split_ifs
  · exact .refl s
  · exact .refl s
  · refine map_reserves rfl rfl fun sent => ?_
    split <;> rfl

theorem addPathState_reserves : Reserves s s.addPathState.1 := by
  unfold addPathState
  split_ifs
  · exact .refl s
  · exact .of_slots rfl rfl

theorem Extends.reserves (h : Extends s s') : Reserves s s' := by
  rcases h with rfl | rfl | ⟨pathId, localCid, peerCid, rfl⟩
  · exact .refl _
  · exact addPathState_reserves
  · exact addPathState_reserves.trans (.of_slots rfl rfl)

theorem setTransmissionCapacity_reserves : Reserves s (s.setTransmissionCapacity limit).1 := by
  unfold setTransmissionCapacity
  split_ifs
  · exact .refl s
  refine .of_same rfl ?_
  rw [openCharges_eq_weight, openCharges_eq_weight, weight_eq_sum_entries, weight_eq_sum_entries]
  exact congrArg (fun records => (records.map openCharge).sum)
    (entries_resizeSlots s.sentPackets limit)

theorem setHistoryCapacity_reserves : Reserves s (s.setHistoryCapacity limit).1 := by
  unfold setHistoryCapacity
  split_ifs
  · exact .refl s
  · exact .of_slots rfl rfl

/-! ## Loss detection

A record leaves the ledger when it is found lost with nothing of it left to repair. Loss detection
looks at each path once, by that path's own acknowledgements and thresholds, so the condition on all
of them can be read off the state before the first.
-/

/-- Loss detection on the packet's path sweeps its record: it is lost already or declared lost now,
and nothing of it is left to repair. -/
def sweeps (s : EndpointState P) (sent : SentPacket) : Bool :=
  s.paths[sent.pathId]?.any fun path => path.largestAckedSendOrder.any fun largest =>
    (sent.lost || isNewlyLost sent.pathId largest path.packetReorderingThreshold
      (path.lossDelayUs s.peerMaxAckDelayUs) path.sendClock sent) && !s.isRepaired sent

/-- Every reservation on the paths `ids` outlasts loss detection there. -/
def HeldOn (s : EndpointState P) (ids : List Nat) : Prop :=
  ∀ sent ∈ s.records, sent.pathId ∈ ids → openCharge sent ≠ 0 → s.sweeps sent = false

/-- Every reservation outlasts loss detection. -/
def Held (s : EndpointState P) : Prop := s.HeldOn (range s.paths.length)

instance (s : EndpointState P) : Decidable s.Held :=
  inferInstanceAs (Decidable (∀ sent ∈ s.records, _))

/-- What sweeps a record is its own path, with the ranges and the peer's delay. -/
theorem sweeps_congr {s s' : EndpointState P}
    (hpath : s'.paths[sent.pathId]? = s.paths[sent.pathId]?)
    (hdelay : s'.peerMaxAckDelayUs = s.peerMaxAckDelayUs) (hbuffer : s'.sendBuffer = s.sendBuffer) :
    s'.sweeps sent = s.sweeps sent := by
  unfold sweeps isRepaired sentPacketHasPendingFin rangeAt
  rw [hpath, hdelay, hbuffer]

/-- Records and states of other paths stay as they are, so what is held there stays held. -/
theorem HeldOn.of_path {pathId : Nat} {ids : List Nat} (hheld : s.HeldOn (pathId :: ids))
    (hfresh : pathId ∉ ids) (hrecords : ∀ sent ∈ s'.records, sent.pathId ≠ pathId →
      sent ∈ s.records) (hpaths : ∀ id, id ≠ pathId → s'.paths[id]? = s.paths[id]?)
    (hdelay : s'.peerMaxAckDelayUs = s.peerMaxAckDelayUs) (hbuffer : s'.sendBuffer = s.sendBuffer) :
    s'.HeldOn ids := by
  intro sent hsent hid hopen
  have hother : sent.pathId ≠ pathId := fun h => hfresh (h ▸ hid)
  rw [sweeps_congr (hpaths _ hother) hdelay hbuffer]
  exact hheld sent (hrecords sent hsent hother) (mem_cons_of_mem _ hid) hopen

/-- A held record is marked at most, and not swept. -/
theorem detectAckLosses_reserves {pathId : Nat} {ids : List Nat} (hheld : s.HeldOn (pathId :: ids))
    (hfresh : pathId ∉ ids) :
    Reserves s (s.detectAckLosses pathId (s.pathAt pathId).largestAckedSendOrder) ∧
      (s.detectAckLosses pathId (s.pathAt pathId).largestAckedSendOrder).HeldOn ids := by
  unfold detectAckLosses
  split
  · rename_i largest path hlargest hpath
    generalize hnewly : isNewlyLost pathId largest path.packetReorderingThreshold
      (path.lossDelayUs s.peerMaxAckDelayUs) path.sendClock = newlyLost
    have hat : s.pathAt pathId = path := by rw [pathAt, getD_eq_getElem?_getD, hpath, getD_some]
    rw [hat] at hlargest
    -- A marked record is the old one, lost if it was lost or is declared lost now.
    have hmarked : ∀ sent ∈ (s.markNewlyLost newlyLost).records, ∃ old ∈ s.records,
        sent = if newlyLost old then { old with lost := true, inferredLost := true } else old := by
      intro sent hsent
      have hentries : sent ∈ entries (s.sentPackets.map (.bind · fun packet =>
          some (if newlyLost packet then
            { packet with lost := true, inferredLost := true } else packet))) := by
        rw [← Slots.map_eq_bind]
        exact hsent
      rw [entries_bind, mem_filterMap] at hentries
      obtain ⟨old, hold, heq⟩ := hentries
      exact ⟨old, hold, (some.inj heq).symm⟩
    have hreserves : Reserves s (s.markNewlyLost newlyLost) := by
      refine map_reserves rfl rfl fun sent => ?_
      split <;> rfl
    have hspent : ∀ sent ∈ (s.markNewlyLost newlyLost).records, openCharge sent ≠ 0 →
        (s.markNewlyLost newlyLost).isSpent pathId sent = false := by
      intro sent hsent hopen
      obtain ⟨old, hold, heq⟩ := hmarked sent hsent
      by_cases hid : old.pathId = pathId
      · have hcharge : openCharge old ≠ 0 := by
          rw [heq] at hopen
          split at hopen <;> exact hopen
        have hkept := hheld old hold (hid ▸ mem_cons_self) hcharge
        unfold sweeps at hkept
        rw [hid, hpath, any_some, hlargest, any_some, hnewly] at hkept
        rw [heq]
        unfold isSpent
        unfold isRepaired at hkept
        cases hnew : newlyLost old with
        | false =>
          rw [hnew] at hkept
          show (old.pathId == pathId && old.lost && old.dataDelivered &&
            !s.sentPacketHasPendingFin old) = false
          revert hkept
          cases old.lost <;> cases old.dataDelivered <;>
            cases s.sentPacketHasPendingFin old <;> simp
        | true =>
          rw [hnew] at hkept
          show (old.pathId == pathId && true && old.dataDelivered &&
            !s.sentPacketHasPendingFin old) = false
          revert hkept
          cases old.dataDelivered <;> cases s.sentPacketHasPendingFin old <;> simp
      · have hother : sent.pathId ≠ pathId := by
          rw [heq]
          split <;> exact hid
        simp [isSpent, hother]
    have hcleared : Reserves (s.markNewlyLost newlyLost)
        ((s.markNewlyLost newlyLost).clearSpent pathId) := by
      refine .of_bind rfl (filter_eq_bind _ _) fun sent hmem => ?_
      by_cases hcharge : openCharge sent = 0
      · split
        · rfl
        · exact hcharge.symm
      · rw [if_pos (by simp [hspent sent (mem_entries.mpr hmem) hcharge])]
        rfl
    refine ⟨(hreserves.trans hcleared).trans (.of_slots rfl rfl),
      hheld.of_path hfresh ?_ ?_ rfl rfl⟩
    · intro sent hsent hother
      have hentries : sent ∈ entries
          ((s.markNewlyLost newlyLost).sentPackets.map (.bind · fun packet =>
          if !(s.markNewlyLost newlyLost).isSpent pathId packet then some packet else none)) := by
        rw [← filter_eq_bind]
        exact hsent
      rw [entries_bind, mem_filterMap] at hentries
      obtain ⟨marked, hmem, heq⟩ := hentries
      split at heq
      · obtain rfl := some.inj heq
        obtain ⟨old, hold, heq⟩ := hmarked marked hmem
        have hother' : old.pathId ≠ pathId := by
          rw [heq] at hother
          split at hother <;> exact hother
        have hkept : newlyLost old = false := by simp [← hnewly, isNewlyLost, hother']
        rw [heq, hkept]
        exact hold
      · cases heq
    · intro id hid
      exact getElem?_modify_ne _ _ (Ne.symm hid)
  · exact ⟨.refl s, fun sent hsent hid => hheld sent hsent (mem_cons_of_mem _ hid)⟩

/-- Loss detection on one path after the other, whatever a turn does to its own path besides. -/
theorem foldl_reserves {f : EndpointState P → Nat → EndpointState P}
    (h : ∀ (s : EndpointState P) (pathId : Nat) (ids : List Nat), s.HeldOn (pathId :: ids) →
      pathId ∉ ids →
      Reserves s (f s pathId) ∧ (f s pathId).HeldOn ids)
    {ids : List Nat} (hheld : s.HeldOn ids) (hids : ids.Nodup) : Reserves s (ids.foldl f s) := by
  induction ids generalizing s with
  | nil => exact .refl s
  | cons pathId ids ih =>
    obtain ⟨hfresh, hids⟩ := nodup_cons.mp hids
    obtain ⟨hstep, hheld'⟩ := h s pathId ids hheld hfresh
    exact hstep.trans (ih hheld' hids)

theorem detectDueLosses_reserves (hheld : s.Held) : Reserves s s.detectDueLosses :=
  foldl_reserves (fun _ _ _ hheld hfresh => detectAckLosses_reserves hheld hfresh) hheld nodup_range

theorem detectLosses_reserves (hheld : s.Held) : Reserves s s.detectLosses := by
  refine foldl_reserves (fun t pathId ids hheld hfresh => ?_) hheld nodup_range
  obtain ⟨hreserves, hheld'⟩ := detectAckLosses_reserves hheld hfresh
  refine ⟨hreserves.trans (.of_slots rfl rfl), ?_⟩
  -- Persistent congestion is looked for on the same path only.
  intro sent hsent hid hopen
  have hother : pathId ≠ sent.pathId := fun h => hfresh (h ▸ hid)
  have hsame : ∀ (u : EndpointState P) f, (u.modifyPath pathId f).sweeps sent = u.sweeps sent :=
    fun u f => sweeps_congr (getElem?_modify_ne _ _ hother) rfl rfl
  exact (hsame _ _).trans (hheld' sent hsent hid hopen)

/-- What `retransmit_due` repairs or probes, once losses are detected, takes no reservation's
slot. -/
def SparesDue (s : EndpointState P) (now : Nat) : Prop :=
  ∀ n, (s.setTime now).detectDueLosses.RepairsLoss n ∨
    (s.setTime now).detectDueLosses.Outstanding n →
    (s.setTime now).detectDueLosses.Spares n

theorem retransmitDue_reserves {now capacity : Nat} (hheld : (s.setTime now).Held)
    (hspares : s.SparesDue now) :
    Reserves s (s.retransmitDue none now capacity).1 := by
  have hset : Reserves s (s.setTime now) := .of_slots rfl rfl
  exact (hset.trans (detectDueLosses_reserves hheld)).trans
    ((s.retransmitDue_recovers none now capacity).emits.reserves hspares)

/-! ## Acknowledgements -/

/-- The acknowledgement names no reservation, none of them is lost, and all outlast the loss
detection that follows. -/
structure HeldThrough (s : EndpointState P) (acknowledged : AckRangeSet)
    (delay ingressPath : Nat) : Prop where
  unacked : ∀ sent ∈ s.records, openCharge sent ≠ 0 → isAcked acknowledged sent = false
  live : ∀ sent ∈ s.records, openCharge sent ≠ 0 → sent.lost = false
  held : (s.acknowledge acknowledged delay ingressPath).Held

instance (s : EndpointState P) (acknowledged : AckRangeSet) (delay ingressPath : Nat) :
    Decidable (s.HeldThrough acknowledged delay ingressPath) :=
  decidable_of_iff ((∀ sent ∈ s.records, openCharge sent ≠ 0 → isAcked acknowledged sent = false) ∧
      (∀ sent ∈ s.records, openCharge sent ≠ 0 → sent.lost = false) ∧
        (s.acknowledge acknowledged delay ingressPath).Held)
    ⟨fun h => ⟨h.1, h.2.1, h.2.2⟩, fun h => ⟨h.unacked, h.live, h.held⟩⟩

/-- The walk over the ledger takes no reservation with it. -/
theorem retireTransmissions_reserves (hstays : ∀ sent ∈ s.records, openCharge sent ≠ 0 →
    isAcked acknowledged sent = false) (scan : AckScan) :
    Reserves s (s.retireTransmissions acknowledged scan) ∧
      ∀ sent ∈ (s.retireTransmissions acknowledged scan).records, sent ∈ s.records := by
  generalize hs₁ : ({ s with
      paths := scan.paths
      sentPackets := retireAcked acknowledged s.sentPackets } : EndpointState P) = s₁
  have hslots : s₁.sentPackets = s.sentPackets.map (.bind · fun sent =>
      if !isAcked acknowledged sent then some sent else none) := by
    rw [← hs₁]
    exact filter_eq_bind _ _
  have hretired : Reserves s s₁ := by
    refine .of_bind (by rw [← hs₁]; rfl) hslots fun sent hmem => ?_
    by_cases hopen : openCharge sent = 0
    · split
      · rfl
      · exact hopen.symm
    · rw [hstays sent (mem_entries.mpr hmem) hopen]
      rfl
  have hrecords : ∀ sent ∈ s₁.records, sent ∈ s.records := by
    intro sent hsent
    have hentries : sent ∈ entries s₁.sentPackets := hsent
    rw [hslots, entries_bind, mem_filterMap] at hentries
    obtain ⟨old, hold, heq⟩ := hentries
    split at heq
    · exact some.inj heq ▸ hold
    · cases heq
  have hrest : s.retireTransmissions acknowledged scan =
      { s₁.raiseReceiveFloor scan.floor with
        paths := acknowledgeStatuses
          (applyAckCongestionGrowth (s₁.raiseReceiveFloor scan.floor).paths scan.growth)
          scan.status } := by
    rw [← hs₁]
    rfl
  have hfloor : (s₁.raiseReceiveFloor scan.floor).budget = s₁.budget ∧
      (s₁.raiseReceiveFloor scan.floor).sentPackets = s₁.sentPackets := by
    unfold raiseReceiveFloor
    split <;> exact ⟨rfl, rfl⟩
  rw [hrest]
  refine ⟨hretired.trans (.of_slots hfloor.1 hfloor.2), fun sent hsent => hrecords sent ?_⟩
  show sent ∈ entries s₁.sentPackets
  rw [← hfloor.2]
  exact hsent

/-- A record that is not lost keeps what it holds. -/
theorem settle_reserves (hlive : ∀ sent ∈ s.records, openCharge sent ≠ 0 → sent.lost = false)
    (data : List (Nat × Nat × Nat)) (fins : List (Nat × Nat)) :
    Reserves s (s.settle data fins) := by
  have hrecord : ∀ (rangeAt : Nat → Option RetainedSendRange) (sent : SentPacket),
      (sent.lost ∧ settleRecord rangeAt sent = none) ∨
        ∃ o, settleRecord rangeAt sent = some o ∧ openCharge o = openCharge sent := by
    intro rangeAt sent
    unfold settleRecord
    split
    · exact .inr ⟨_, rfl, rfl⟩
    split_ifs with _ _ hlost
    · exact .inr ⟨_, rfl, rfl⟩
    · exact .inr ⟨_, rfl, rfl⟩
    · exact .inl ⟨hlost, rfl⟩
    · exact .inr ⟨_, rfl, rfl⟩
  refine .of_bind rfl rfl fun sent hmem => ?_
  rcases hrecord _ sent with ⟨hlost, hnone⟩ | ⟨o, hsome, hcharge⟩
  · rw [hnone]
    by_contra hopen
    rw [hlive sent (mem_entries.mpr hmem) (Ne.symm hopen)] at hlost
    cases hlost
  · rw [hsome, slotWeight_some, hcharge]

theorem acknowledge_reserves {delay : Nat} (hheld : s.HeldThrough acknowledged delay ingressPath) :
    Reserves s (s.acknowledge acknowledged delay ingressPath) := by
  unfold acknowledge
  extract_lets s₁ s₂ s₃ scan data fins newlyAcked s₄ s₅ s₆
  have h₃ : Reserves s s₃ ∧ s₃.sentPackets = s.sentPackets := by
    unfold s₃ s₂
    split
    · unfold retireCredit
      split <;> exact ⟨.of_slots rfl rfl, rfl⟩
    · exact ⟨.of_slots rfl rfl, rfl⟩
  have hrecords : s₃.records = s.records := congrArg entries h₃.2
  obtain ⟨hretired, hkept⟩ :=
    retireTransmissions_reserves (s := s₃) (by rw [hrecords]; exact hheld.unacked) scan
  have hsettled : Reserves (s₃.retireTransmissions acknowledged scan) s₄ :=
    settle_reserves (fun sent hsent => hheld.live sent (hrecords ▸ hkept sent hsent)) data fins
  have h₅ : Reserves s₄ s₅ :=
    .of_bystands (foldl_same (fun t (fin : Nat × Nat) => tryRetireStream_same t fin.1) s₄ _)
  have h₆ : Reserves s₅ s₆ := .of_slots rfl rfl
  have h₇ := Reserves.of_bystands (takeRttSample_same s₆ scan.rttCandidate delay ingressPath)
  exact (h₃.1.trans (hretired.trans hsettled)).trans ((h₅.trans h₆).trans h₇)

theorem applyAckRangesOnPath_reserves {delay : Nat}
    (hheld : s.HeldThrough acknowledged delay ingressPath) :
    Reserves s (s.applyAckRangesOnPath acknowledged delay ingressPath).1 := by
  unfold applyAckRangesOnPath
  split
  · exact .refl s
  · exact (acknowledge_reserves hheld).trans (detectLosses_reserves hheld.held)

/-! ## Packets -/

theorem receiveStreams_budget (header : ShortHeader) (streams : List StreamFrame)
    (ingressPath : Nat) (deferStreamAck : Bool) :
    (s.receiveStreams header streams ingressPath deferStreamAck).1.budget = s.budget := by
  unfold receiveStreams
  simp only
  split
  · rfl
  rename_i receive _
  have hretire : (((streams.filter fun frame => !s.receive.isRetired frame.id).filter (·.fin)).foldl
      (fun self frame => self.tryRetireStream frame.id) { s with
        receive := receive : EndpointState P }).budget =
      s.budget :=
    (foldl_same (fun t (frame : StreamFrame) => tryRetireStream_same t frame.id) _ _).budget
  cases deferStreamAck with
  | true => exact hretire
  | false => exact (commitStreamPacketReceive_budget _ _ _).trans hretire

/-- The credit frames of a packet. -/
def applyCredit (s : EndpointState P) (parsed : ParsedFrames) :
    EndpointState P × Except Error Unit :=
  if parsed.hasFlowControl then receiveFlowControl parsed.frames s else (s, .ok ())

/-- The ACK that a packet carries, once its credit frames are applied, loses no reservation. -/
def KeepsHeld (s : EndpointState P) (parsed : ParsedFrames) (ingressPath : Nat) : Prop :=
  (s.applyCredit parsed).2 = .ok () → parsed.hasAck →
    (s.applyCredit parsed).1.HeldThrough parsed.acknowledged parsed.reportedAckDelay ingressPath

instance (s : EndpointState P) (parsed : ParsedFrames) (ingressPath : Nat) :
    Decidable (s.KeepsHeld parsed ingressPath) := inferInstanceAs (Decidable (_ → _ → _))

theorem applyControl_reserves {parsed : ParsedFrames} (hheld : s.KeepsHeld parsed ingressPath) :
    Reserves s (s.applyControl parsed ingressPath).1 := by
  have hcredit : Reserves s (s.applyCredit parsed).1 := by
    unfold applyCredit
    split
    · exact .of_bystands (receiveFlowControl_same parsed.frames s)
    · exact .refl s
  unfold KeepsHeld applyCredit at hheld
  unfold applyCredit at hcredit
  unfold applyControl
  split <;> rename_i heq <;> rw [heq] at hcredit
  · exact hcredit
  rename_i t
  rw [heq] at hheld
  have hack : Reserves t (if parsed.hasAck then
      t.applyAckRangesOnPath parsed.acknowledged parsed.reportedAckDelay
      ingressPath else (t, .ok ())).1 := by
    split
    · exact applyAckRangesOnPath_reserves (hheld rfl ‹_›)
    · exact .refl t
  split <;> rename_i heq <;> rw [heq] at hack <;> refine hcredit.trans (hack.trans ?_)
  · exact .refl _
  split
  · exact .of_bystands (applyAckFrequency_same _ _)
  · exact .refl _

/-- A packet that is in order loses no reservation by the ACK it carries. -/
def PacketKeepsHeld (s : EndpointState P) (input : Bytes) (ingressPath : Nat) : Prop :=
  ∀ packet ∈ s.admitted input ingressPath, ¬(packet.2.closeCode.isSome ∧ packet.2.streams ≠ []) →
    s.KeepsHeld packet.2 ingressPath

instance (s : EndpointState P) (input : Bytes) (ingressPath : Nat) :
    Decidable (s.PacketKeepsHeld input ingressPath) :=
  inferInstanceAs (Decidable (∀ packet ∈ _, _ → _))

theorem receivePacketBatchOnPath_reserves {input : Bytes} {deferStreamAck : Bool}
    (hheld : s.PacketKeepsHeld input ingressPath) :
    Reserves s (s.receivePacketBatchOnPath input ingressPath deferStreamAck).1 :=
  receivePacketBatchOnPath_along .refl .trans (fun _ _ _ => .of_slots rfl rfl)
    (fun t _ _ => .of_bystands (scheduleAck_same t ..))
    (fun t _ _ => .of_ledger (observePacketOnPath_budget t ..) (observePacketOnPath_same t ..))
    (fun t _ _ _ _ => .of_ledger (receiveStreams_budget ..) (receiveStreams_same t ..))
    (fun header parsed hadmitted hclosing =>
      applyControl_reserves (hheld (header, parsed) hadmitted hclosing)) _

end EndpointState

end QuicLite
