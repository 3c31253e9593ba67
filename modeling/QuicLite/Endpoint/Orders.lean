import QuicLite.Endpoint.Flight

/-!
# Send orders

Every transmission takes the next send order of its path, and the next packet number of the
connection. So no path has used more send orders than the connection has used packet numbers, and a
64-bit send order never runs out. Calls that send nothing leave the orders of their paths as they
are (`KeepsOrder`); new paths start at zero.
-/

namespace QuicLite

open List Nat

namespace EndpointState

variable {P : Nat} {s s' : EndpointState P}

/-- No path has used more send orders than there were packet numbers. -/
structure OrderInv (s : EndpointState P) : Prop where
  order : ∀ path ∈ s.paths, path.nextSendOrder ≤ s.nextPacketNumber
  number : s.nextPacketNumber ≤ u32Max

theorem OrderInv.order_lt (h : OrderInv s) : ∀ p ∈ s.paths, p.nextSendOrder < u64Max := by
  intro p hp
  have hle := (h.order p hp).trans h.number
  exact hle.trans_lt (by decide)

theorem OrderInv.new (role : Role) (limits : ConnectionLimits)
    (maxPacketSize historyCapacity : Nat) :
    OrderInv (newWithHistoryCapacity P role limits maxPacketSize historyCapacity) where
  order := by
    intro path hpath
    rw [mem_singleton.mp hpath]
    exact zero_le _
  number := zero_le _

/-- The paths have the send orders that they had, or none. -/
structure KeepsOrder (s s' : EndpointState P) : Prop where
  paths : ∀ p' ∈ s'.paths, p'.nextSendOrder = 0 ∨ ∃ p ∈ s.paths, p'.nextSendOrder = p.nextSendOrder
  number : s.nextPacketNumber ≤ s'.nextPacketNumber
  bound : s.nextPacketNumber ≤ u32Max → s'.nextPacketNumber ≤ u32Max

namespace KeepsOrder

variable {s s' s'' : EndpointState P} {f : PathState → PathState}

/-- Nothing else of the state matters. -/
theorem of_paths (hpaths : ∀ p' ∈ s'.paths, ∃ p ∈ s.paths, p'.nextSendOrder = p.nextSendOrder)
    (hnumber : s'.nextPacketNumber = s.nextPacketNumber) : KeepsOrder s s' :=
  ⟨fun p' hp' => .inr (hpaths p' hp'), hnumber.ge, fun h => hnumber.le.trans h⟩

theorem refl (s : EndpointState P) : KeepsOrder s s := of_paths (fun p hp => ⟨p, hp, rfl⟩) rfl

theorem trans (h : KeepsOrder s s') (h' : KeepsOrder s' s'') : KeepsOrder s s'' := by
  refine ⟨fun p'' hp'' => ?_, h.number.trans h'.number, fun hbound => h'.bound (h.bound hbound)⟩
  rcases h'.paths p'' hp'' with hzero | ⟨p', hp', heq⟩
  · exact .inl hzero
  rcases h.paths p' hp' with hzero | ⟨p, hp, heq'⟩
  · exact .inl (heq.trans hzero)
  · exact .inr ⟨p, hp, heq.trans heq'⟩

theorem of_same (h : SameLedger s s') : KeepsOrder s s' := by
  refine ⟨fun p' hp' => ?_, h.number, h.bound⟩
  obtain ⟨i, hi⟩ := getElem?_of_mem hp'
  obtain ⟨p, hp, heq⟩ := h.getElem? hi
  exact .inr ⟨p, mem_of_getElem? hp, congrArg Prod.snd heq⟩

theorem of_modify {i : Nat} (hf : ∀ p ∈ s.paths, (f p).nextSendOrder = p.nextSendOrder)
    (hpaths : s'.paths = s.paths.modify i f) (hnumber : s'.nextPacketNumber = s.nextPacketNumber) :
    KeepsOrder s s' := by
  refine of_paths (fun p' hp' => ?_) hnumber
  rw [hpaths] at hp'
  obtain ⟨j, hj⟩ := getElem?_of_mem hp'
  rw [getElem?_modify, Option.map_eq_map, Option.map_eq_some_iff] at hj
  obtain ⟨p, hp, rfl⟩ := hj
  have hmem := mem_of_getElem? hp
  refine ⟨p, hmem, ?_⟩
  split_ifs
  · exact hf p hmem
  · rfl

theorem modifyPath (s : EndpointState P) (i : Nat)
    (hf : ∀ p, (f p).nextSendOrder = p.nextSendOrder) : KeepsOrder s (s.modifyPath i f) :=
  of_modify (fun p _ => hf p) rfl rfl

end KeepsOrder

theorem OrderInv.of_keeps (h : OrderInv s) (hkeeps : KeepsOrder s s') : OrderInv s' := by
  refine ⟨fun p' hp' => ?_, hkeeps.bound h.number⟩
  rcases hkeeps.paths p' hp' with hzero | ⟨p, hp, heq⟩
  · rw [hzero]
    exact zero_le _
  · rw [heq]
    exact (h.order p hp).trans hkeeps.number

theorem OrderInv.of_enters (h : OrderInv s) {slot : Nat} {sent : SentPacket}
    (henters : Enters s s' slot sent) : OrderInv s' := by
  obtain ⟨path, hcharges, hpaths⟩ := henters.charged
  have hnext := henters.next
  refine ⟨fun p' hp' => ?_, henters.bound⟩
  obtain ⟨i, hi⟩ := getElem?_of_mem hp'
  have hget : (s.paths.set sent.pathId path)[i]?.map flightOrder = some (flightOrder p') := by
    rw [← getElem?_map, ← hpaths, getElem?_map, hi]
    rfl
  obtain ⟨q, hq, heq⟩ := Option.map_eq_some_iff.mp hget
  have horder : p'.nextSendOrder = q.nextSendOrder := (congrArg Prod.snd heq).symm
  rw [horder]
  rcases mem_or_eq_of_mem_set (mem_of_getElem? hq) with hmem | rfl
  · have := h.order q hmem
    omega
  -- the path of the packet took one order, and the connection one number
  have := h.order _ (mem_of_getElem? (paths_getElem?_of_lt henters.path))
  rw [hcharges.order]
  omega

/-! ## Calls that send nothing -/

variable (s : EndpointState P) (packetNumber : Nat)

theorem packetSubmissionBlocked_keepsOrder :
    KeepsOrder s (s.packetSubmissionBlocked packetNumber).1 := by
  unfold packetSubmissionBlocked
  split
  · exact .refl s
  extract_lets s₁ s₂ s₃
  have h₁ : KeepsOrder s s₁ := by
    unfold s₁
    split
    · exact .modifyPath s _ fun _ => rfl
    · exact .refl s
  have h₂ : KeepsOrder s₁ s₂ := .modifyPath s₁ _ fun p => by split <;> rfl
  have h₃ : KeepsOrder s₂ s₃ := .of_paths (fun p hp => ⟨p, hp, rfl⟩) rfl
  exact ((h₁.trans h₂).trans h₃).trans (.modifyPath s₃ _ fun _ => rfl)

theorem packetSubmissionAccepted_keepsOrder (nowUs : Nat) :
    KeepsOrder s (s.packetSubmissionAccepted packetNumber nowUs).1 := by
  unfold packetSubmissionAccepted
  split
  · exact .refl s
  rename_i index sent _
  extract_lets congestion windowLimited s₁ s₂ s₃
  have h₁ : KeepsOrder s s₁ := by
    unfold s₁
    split
    · exact .refl s
    · exact .modifyPath s _ fun _ => rfl
  have h₂ : KeepsOrder s₁ s₂ := by
    unfold s₂ commitDuplicationBudget
    split_ifs <;> exact .of_paths (fun p hp => ⟨p, hp, rfl⟩) rfl
  have h₃ : KeepsOrder s₂ s₃ := .of_paths (fun p hp => ⟨p, hp, rfl⟩) rfl
  refine ((h₁.trans h₂).trans h₃).trans (.modifyPath s₃ _ fun p => ?_)
  exact congrArg Prod.snd (noteAccepted_flightOrder packetNumber nowUs sent.probeToken p)

theorem packetSubmissionFailed_keepsOrder :
    KeepsOrder s (s.packetSubmissionFailed packetNumber).1 := by
  unfold packetSubmissionFailed
  split
  · exact .refl s
  split
  · exact .refl s
  extract_lets s₁ s₂ lost keep
  have h₁ : KeepsOrder s s₁ := by
    unfold s₁
    split <;> exact .of_paths (fun p hp => ⟨p, hp, rfl⟩) rfl
  have h₂ : KeepsOrder s₁ s₂ := .modifyPath s₁ _ fun _ => rfl
  exact (h₁.trans h₂).trans (.of_paths (fun p hp => ⟨p, hp, rfl⟩) rfl)

theorem markLost_keepsOrder : KeepsOrder s (s.markLost packetNumber).1 := by
  unfold markLost
  split
  · exact .refl s
  split
  · exact .refl s
  extract_lets lost keep s₁
  have h₁ : KeepsOrder s s₁ :=
    .modifyPath s _ fun p => (declareLosses_spec p s.nextPacketNumber [lost]).2.1
  exact h₁.trans (.of_paths (fun p hp => ⟨p, hp, rfl⟩) rfl)

theorem suspendPath_keepsOrder (pathId : Nat) : KeepsOrder s (s.suspendPath pathId) := by
  unfold suspendPath
  cases hget : s.paths[pathId]? with
  | none => exact .refl s
  | some path =>
  have hfold : ∀ (sents : List SentPacket) (p : PathState),
      (sents.foldl (fun path sent => { path with
        congestion := path.congestion.removeInFlight sent.bytes }.modifyEvent sent.packetNumber
          fun event => { event with excluded := true }) p).nextSendOrder = p.nextSendOrder := by
    intro sents
    induction sents with
    | nil => exact fun p => rfl
    | cons sent sents ih => exact fun p => ih _
  apply KeepsOrder.of_paths
  · intro p' hp'
    rcases mem_or_eq_of_mem_set hp' with hmem | rfl
    · exact ⟨p', hmem, rfl⟩
    · exact ⟨path, mem_of_getElem? hget, hfold _ path⟩
  · rfl

theorem addPathState_keepsOrder : KeepsOrder s s.addPathState.1 := by
  unfold addPathState
  split
  · exact .refl s
  refine ⟨fun p' hp' => ?_, le_rfl, id⟩
  rcases mem_append.mp hp' with hmem | hnew
  · exact .inr ⟨p', hmem, rfl⟩
  · rw [mem_singleton.mp hnew]
    exact .inl rfl

theorem removePathState_keepsOrder (pathId : Nat) : KeepsOrder s (s.removePathState pathId).1 := by
  unfold removePathState
  split
  · exact .refl s
  split
  · exact .refl s
  · exact .of_paths (fun p hp => ⟨p, mem_of_mem_eraseIdx hp, rfl⟩) rfl

theorem setTransmissionCapacity_keepsOrder (limit : Nat) :
    KeepsOrder s (s.setTransmissionCapacity limit).1 := by
  unfold setTransmissionCapacity
  split
  · exact .refl s
  refine .of_paths (fun p' hp' => ?_) rfl
  obtain ⟨p, hp, rfl⟩ := mem_map.mp hp'
  exact ⟨p, hp, rfl⟩

/-! ## Losses and acknowledgements -/

theorem detectAckLosses_keepsOrder (pathId : Nat) (largestAcked : Option Nat) :
    KeepsOrder s (s.detectAckLosses pathId largestAcked) := by
  unfold detectAckLosses
  split
  · extract_lets newlyLost
    exact .of_modify (fun p _ => (declareLosses_spec p s.nextPacketNumber _).2.1) rfl rfl
  · exact .refl s

theorem retireTransmissions_keepsOrder (acknowledged : AckRangeSet) (ingressPath : Nat) :
    KeepsOrder s (s.retireTransmissions acknowledged (s.ackScan acknowledged ingressPath)) := by
  obtain ⟨-, hpaths⟩ := foldl_ackRecord_paths ingressPath (s.records.filter (isAcked acknowledged))
    (fun sent hsent => by
      have := (mem_filter.mp hsent).2
      simp only [isAcked, Bool.and_eq_true] at this
      exact this.1)
    ⟨s.paths, none, replicate maxPathStates false, replicate maxPathStates 0, [], [], [], false,
      s.receivePacketFloor⟩
  have hretired : KeepsOrder s { s with
      paths := (s.ackScan acknowledged ingressPath).paths
      sentPackets := retireAcked acknowledged s.sentPackets : EndpointState P } := by
    refine .of_paths (fun p' hp' => ?_) rfl
    obtain ⟨i, hi⟩ := getElem?_of_mem hp'
    obtain ⟨p, hp, -, horder⟩ := hpaths i p' hi
    exact ⟨p, mem_of_getElem? hp, horder⟩
  refine (hretired.trans (.of_same (raiseReceiveFloor_same _ _))).trans (.of_same (.of_paths ?_))
  rw [acknowledgeStatuses_flightOrder, applyAckCongestionGrowth_flightOrder]

/-! ## Every call -/

theorem OrderInv.of_moves {s : EndpointState P} (h : OrderInv s) (hmoves : Moves s s') :
    OrderInv s' := by
  apply h.of_keeps
  cases hmoves with
  | declares hdeclares =>
    cases hdeclares with
    | same hsame => exact .of_same hsame
    | idle hidle => exact .of_same (.of_idle h.order_lt hidle)
    | losses pathId largestAcked => exact s.detectAckLosses_keepsOrder pathId largestAcked
  | fails packetNumber => exact s.packetSubmissionFailed_keepsOrder packetNumber
  | marks packetNumber => exact s.markLost_keepsOrder packetNumber
  | ranges buffer limit => exact .of_paths (fun p hp => ⟨p, hp, rfl⟩) rfl
  | suspends pathId => exact s.suspendPath_keepsOrder pathId
  | opens => exact s.addPathState_keepsOrder
  | removes pathId => exact s.removePathState_keepsOrder pathId
  | resizes limit => exact s.setTransmissionCapacity_keepsOrder limit
  | retires acknowledged ingressPath =>
    exact s.retireTransmissions_keepsOrder acknowledged ingressPath
  | settles data fins => exact .of_paths (fun p hp => ⟨p, hp, rfl⟩) rfl

/-- Every call keeps the send orders within the packet numbers. -/
theorem OrderInv.step {s : EndpointState P} (h : OrderInv s) (op : Op) : OrderInv (s.step op) := by
  cases hreports : reports op with
  | false =>
    cases s.step_turn hreports with
    | moves hmoved => exact hmoved.invariant of_moves h
    | enrols before henrols after =>
      obtain ⟨slot, sent, henters, -, -⟩ := henrols
      have hbefore : Moved s _ := before.lift id fun _ _ => .declares
      exact after.invariant of_moves ((hbefore.invariant of_moves h).of_enters henters)
  | true =>
    cases op with
    | packetSubmissionBlocked packetNumber =>
      exact h.of_keeps (s.packetSubmissionBlocked_keepsOrder packetNumber)
    | packetSubmissionAccepted packetNumber nowUs =>
      exact h.of_keeps (s.packetSubmissionAccepted_keepsOrder packetNumber nowUs)
    | _ => cases hreports

end EndpointState

end QuicLite
