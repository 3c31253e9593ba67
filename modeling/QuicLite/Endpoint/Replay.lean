import QuicLite.Endpoint.Retired
import QuicLite.Endpoint.Moves

/-!
# Packet numbers are accepted once

A packet is a duplicate when its number is below the receive floor or in one of the received ranges.
ACKs raise the floor before they discard what lies below it, so that nothing is forgotten. The range
set itself is bounded: when an observation needs a range too many, the lowest range goes, and the
floor stays. `Retains` is the rule that every other step obeys.
-/

namespace QuicLite

open Intervals List Except

namespace EndpointState

variable {P : Nat} {s' : EndpointState P} {header : ShortHeader} {path : Nat} {deferred : Bool}
    {input : Bytes}

/-- `has_received_packet` -/
def hasReceivedPacket (self : EndpointState P) (packetNumber : Nat) : Bool :=
  decide (packetNumber < self.receivePacketFloor) || self.receivedPackets.contains packetNumber

/-- Every number received stays received. -/
def Retains (s s' : EndpointState P) : Prop :=
  ∀ packetNumber, s.hasReceivedPacket packetNumber = true → s'.hasReceivedPacket packetNumber = true

/-- The received numbers are stored as before. -/
structure SameReceived (s s' : EndpointState P) : Prop where
  ranges : s'.receivedPackets = s.receivedPackets
  floor : s'.receivePacketFloor = s.receivePacketFloor

section Rules

variable {s s' s'' : EndpointState P}

theorem Retains.refl (s : EndpointState P) : Retains s s := fun _ => id

theorem Retains.trans (h : Retains s s') (h' : Retains s' s'') : Retains s s'' :=
  fun n hn => h' n (h n hn)

theorem SameReceived.refl (s : EndpointState P) : SameReceived s s := ⟨rfl, rfl⟩

theorem SameReceived.trans (h : SameReceived s s') (h' : SameReceived s' s'') :
    SameReceived s s'' :=
  ⟨h'.ranges.trans h.ranges, h'.floor.trans h.floor⟩

theorem SameReceived.retains (h : SameReceived s s') : Retains s s' := by
  intro n hn
  unfold hasReceivedPacket at hn ⊢
  rwa [h.ranges, h.floor]

theorem SameReceived.of_bystands (h : Bystands s s') : SameReceived s s' := ⟨h.ranges, h.floor⟩

theorem SameReceived.of_idle (h : Idle s s') : SameReceived s s' := by
  rw [h.rest]
  exact ⟨rfl, rfl⟩

end Rules

/-! ## What moves the received numbers -/

variable (s : EndpointState P)

theorem raiseReceiveFloor_retains (confirmed : Nat) :
    Retains s (s.raiseReceiveFloor confirmed) := by
  intro n hn
  unfold raiseReceiveFloor
  split
  · simp only [hasReceivedPacket, Bool.or_eq_true, decide_eq_true_eq,
      AckRangeSet.contains_iff] at hn ⊢
    rw [AckRangeSet.discardBelow, denote_trimBelow s.receivedPackets.canonical]
    rcases hn with hbelow | hrange
    · exact .inl (lt_of_lt_of_le hbelow (le_max_right _ _))
    by_cases h : n < max (confirmed - ackRangeCapacity * 2) s.receivePacketFloor
    · exact .inl h
    · exact .inr ⟨hrange, by simpa using h⟩
  · exact hn

/-- Observing the number drops no range: it is old, or the set has room for it. -/
def roomFor (s : EndpointState P) (packetNumber : Nat) : Prop :=
  packetNumber < s.receivePacketFloor ∨
    (insertInto ⟨packetNumber, packetNumber⟩ s.receivedPackets.ranges).length ≤ ackRangeCapacity

instance (s : EndpointState P) (packetNumber : Nat) : Decidable (s.roomFor packetNumber) :=
  inferInstanceAs (Decidable (_ ∨ _))

theorem mem_insert_of_room {set : AckRangeSet} {n : Nat}
    (hroom : (insertInto ⟨n, n⟩ set.ranges).length ≤ ackRangeCapacity) (m : Nat) :
    m ∈ denote (set.insert n).ranges ↔ m = n ∨ m ∈ denote set.ranges := by
  unfold AckRangeSet.insert AckRangeSet.insertRange
  rw [dif_pos (le_refl n)]
  simp only [AckRangeSet.truncate]
  rw [take_of_length_le hroom, denote_insertInto (le_refl n) set.canonical]
  simp only [Set.mem_union, Set.mem_ofPred_eq, Segment.Mem]
  have hself : n ≤ m ∧ m ≤ n ↔ m = n := by omega
  rw [hself, or_comm]

/-- What an observation leaves of the received numbers. -/
theorem observePacketOnPath_received (packetNumber pathId : Nat) :
    (s.paths.length ≤ pathId ∨ packetNumber < s.receivePacketFloor) ∧
      s.observePacketOnPath packetNumber pathId = s ∨
      (s.observePacketOnPath packetNumber pathId).receivePacketFloor = s.receivePacketFloor ∧
        (s.observePacketOnPath packetNumber pathId).receivedPackets =
          s.receivedPackets.insert packetNumber := by
  unfold observePacketOnPath
  split
  · rename_i hpath
    exact .inl ⟨.inl (getElem?_eq_none_iff.mp hpath), rfl⟩
  split
  · exact .inl ⟨.inr ‹_›, rfl⟩
  · simp only
    split <;> exact .inr ⟨rfl, rfl⟩

variable {packetNumber : Nat}

theorem observePacketOnPath_retains {s : EndpointState P} (hroom : s.roomFor packetNumber)
    (pathId : Nat) : Retains s (s.observePacketOnPath packetNumber pathId) := by
  intro n hn
  rcases s.observePacketOnPath_received packetNumber pathId with ⟨-, heq⟩ | ⟨hfloor, hranges⟩
  · rwa [heq]
  rcases hroom with hold | hroom
  · -- An old number is not observed at all.
    unfold observePacketOnPath
    split
    · exact hn
    · rwa [if_pos hold]
  simp only [hasReceivedPacket, Bool.or_eq_true, decide_eq_true_eq,
    AckRangeSet.contains_iff] at hn ⊢
  rw [hfloor, hranges, mem_insert_of_room hroom]
  exact hn.imp_right .inr

theorem observePacketOnPath_observes {s : EndpointState P} (hroom : s.roomFor packetNumber)
    {pathId : Nat} (hpath : pathId < s.paths.length) :
    (s.observePacketOnPath packetNumber pathId).hasReceivedPacket packetNumber = true := by
  rcases s.observePacketOnPath_received packetNumber pathId with ⟨hold, heq⟩ | ⟨hfloor, hranges⟩
  · rcases hold with hpath' | hold
    · omega
    · rw [heq]
      simp [hasReceivedPacket, hold]
  simp only [hasReceivedPacket, Bool.or_eq_true, decide_eq_true_eq, AckRangeSet.contains_iff]
  rw [hfloor, hranges]
  rcases hroom with hold | hroom
  · exact .inl hold
  · exact .inr ((mem_insert_of_room hroom _).mpr (.inl rfl))

theorem SameReceived.roomFor {s : EndpointState P} (h : SameReceived s s')
    (hroom : s.roomFor packetNumber) : s'.roomFor packetNumber := by
  unfold EndpointState.roomFor at hroom ⊢
  rwa [h.ranges, h.floor]

variable (pathId : Nat)

open SameReceived

/-- Both halves of observing a packet after its frames were handed over. Only a path that exists
observes one. -/
theorem commitStreamPacketReceive_observes {s : EndpointState P} (pathId : Nat)
    (hroom : pathId < s.paths.length → s.roomFor packetNumber) :
    Retains s (s.commitStreamPacketReceive packetNumber pathId) ∧ (pathId < s.paths.length →
        (s.commitStreamPacketReceive packetNumber pathId).hasReceivedPacket packetNumber =
          true) := by
  unfold commitStreamPacketReceive
  extract_lets reordered s₀ s₁
  have hsame : SameReceived s s₁ := by
    unfold s₁
    split <;> exact ⟨rfl, rfl⟩
  have hlength : s₁.paths.length = s.paths.length := by
    unfold s₁
    split <;> simp [s₀, modifyPath]
  have hafter := (of_bystands
    (scheduleAck_same (s₁.observePacketOnPath packetNumber pathId) pathId false)).retains
  by_cases hpath : pathId < s.paths.length
  · have hroom₁ := hsame.roomFor (hroom hpath)
    exact ⟨(hsame.retains.trans (observePacketOnPath_retains hroom₁ pathId)).trans hafter,
      fun _ => hafter packetNumber (observePacketOnPath_observes hroom₁ (hlength ▸ hpath))⟩
  · have hnone : s₁.observePacketOnPath packetNumber pathId = s₁ := by
      unfold observePacketOnPath
      rw [getElem?_eq_none (by omega)]
    rw [hnone] at hafter ⊢
    exact ⟨hsame.retains.trans hafter, fun h => absurd h hpath⟩

/-! ## Control frames -/

theorem foldl_sameReceived {α : Type} {f : EndpointState P → α → EndpointState P}
    (h : ∀ s a, SameReceived s (f s a)) (s : EndpointState P) (l : List α) :
    SameReceived s (l.foldl f s) := by
  induction l generalizing s with
  | nil => exact refl s
  | cons a l ih => exact (h s a).trans (ih (f s a))

theorem detectAckLosses_sameReceived (largestAcked : Option Nat) :
    SameReceived s (s.detectAckLosses pathId largestAcked) := by
  unfold detectAckLosses
  split <;> exact ⟨rfl, rfl⟩

theorem detectLosses_sameReceived : SameReceived s s.detectLosses := by
  apply foldl_sameReceived
  intro t pathId
  exact (detectAckLosses_sameReceived t _ _).trans ⟨rfl, rfl⟩

theorem detectDueLosses_sameReceived : SameReceived s s.detectDueLosses :=
  foldl_sameReceived (fun t _ => detectAckLosses_sameReceived t _ _) s _

variable (acknowledged : AckRangeSet)

/-- The records of the acknowledged packets go, and the floor may rise. -/
theorem retireTransmissions_retains (scan : AckScan) :
    Retains s (s.retireTransmissions acknowledged scan) := by
  unfold retireTransmissions
  extract_lets s₁ s₂
  have hbefore : SameReceived s s₁ := ⟨rfl, rfl⟩
  have hafter : Retains s₁ s₂ := raiseReceiveFloor_retains s₁ scan.floor
  exact (hbefore.retains.trans hafter).trans (retains ⟨rfl, rfl⟩)

theorem applyAckRangesOnPath_retainsReceived (delay path : Nat) :
    Retains s (s.applyAckRangesOnPath acknowledged delay path).1 := by
  unfold applyAckRangesOnPath acknowledge
  split
  · exact Retains.refl s
  extract_lets +lift s₁ s₂ s₃ scan data fins newlyAcked s₄ s₅ s₆
  have hbefore : SameReceived s s₃ := by
    refine trans ?_ (⟨rfl, rfl⟩ : SameReceived s₂ s₃)
    unfold s₂
    split
    · exact (⟨rfl, rfl⟩ : SameReceived s s₁).trans (.of_bystands (retireCredit_same s₁))
    · exact ⟨rfl, rfl⟩
  have hretire : Retains s₃ s₄ :=
    (retireTransmissions_retains s₃ acknowledged scan).trans (retains ⟨rfl, rfl⟩)
  have hfins : SameReceived s₄ s₅ :=
    .of_bystands (foldl_same (fun t _ => tryRetireStream_same t _) s₄ _)
  have hpto : SameReceived s₅ s₆ := ⟨rfl, rfl⟩
  have hafter := (of_bystands (takeRttSample_same s₆ scan.rttCandidate delay path)).trans
    (detectLosses_sameReceived _)
  exact (hbefore.retains.trans hretire).trans ((hfins.trans hpto).trans hafter).retains

theorem applyControl_retainsReceived (parsed : ParsedFrames) (path : Nat) :
    Retains s (s.applyControl parsed path).1 :=
  applyControl_along Retains.refl Retains.trans (of_bystands (receiveFlowControl_same _ s)).retains
    (fun t _ _ => applyAckRangesOnPath_retainsReceived t _ _ _)
    fun t _ => (of_bystands (applyAckFrequency_same t _)).retains

/-! ## The paths stay -/

theorem foldl_ackRecord_paths_length (ingressPath : Nat) (sents : List SentPacket)
    (scan : AckScan) :
    (sents.foldl (ackRecord ingressPath) scan).paths.length = scan.paths.length := by
  induction sents generalizing scan with
  | nil => rfl
  | cons sent sents ih =>
    rw [foldl_cons, ih]
    exact length_modify ..

theorem detectAckLosses_paths_length (largestAcked : Option Nat) :
    (s.detectAckLosses pathId largestAcked).paths.length = s.paths.length := by
  unfold detectAckLosses
  split
  · exact length_modify ..
  · rfl

theorem detectLosses_paths_length : s.detectLosses.paths.length = s.paths.length := by
  unfold detectLosses
  generalize range s.paths.length = ids
  induction ids generalizing s with
  | nil => rfl
  | cons id ids ih =>
    rw [foldl_cons, ih]
    exact (length_modify ..).trans (detectAckLosses_paths_length s id _)

theorem applyAckRangesOnPath_paths_length (delay path : Nat) :
    (s.applyAckRangesOnPath acknowledged delay path).1.paths.length = s.paths.length := by
  unfold applyAckRangesOnPath acknowledge
  split
  · rfl
  extract_lets +lift s₁ s₂ s₃ scan data fins newlyAcked s₄ s₅ s₆
  have h₃ : s₃.paths.length = s.paths.length := by
    have hmap : s₁.paths.length = s.paths.length := length_map ..
    have hcredit : SameLedger s₁ s₂ := by
      unfold s₂
      split
      · exact (retireCredit_same s₁).toSameLedger
      · exact SameLedger.refl s₁
    exact hcredit.length.trans hmap
  have h₄ : s₄.paths.length = s₃.paths.length := by
    have hscan : scan.paths.length = s₃.paths.length := foldl_ackRecord_paths_length path _ _
    have hgrowth := congrArg length (acknowledgeStatuses_flightOrder
      (applyAckCongestionGrowth scan.paths scan.growth) scan.status)
    rw [applyAckCongestionGrowth_flightOrder] at hgrowth
    rw [← hscan]
    simp only [length_map] at hgrowth
    rw [← hgrowth]
    show (s₃.retireTransmissions acknowledged scan).paths.length = _
    unfold retireTransmissions raiseReceiveFloor
    simp only
    split <;> rfl
  have h₅ : s₅.paths.length = s₄.paths.length :=
    (foldl_same (fun t _ => tryRetireStream_same t _) s₄ _).length
  have h₆ : s₆.paths.length = s₅.paths.length := by
    have := congrArg length (resetPto_flightOrder newlyAcked scan.progress s₅.paths)
    simpa using this
  have h₇ := (takeRttSample_same s₆ scan.rttCandidate delay path).length
  rw [detectLosses_paths_length, h₇, h₆, h₅, h₄, h₃]

theorem applyControl_paths_length (parsed : ParsedFrames) (path : Nat) :
    (s.applyControl parsed path).1.paths.length = s.paths.length :=
  applyControl_along (R := fun s t => t.paths.length = s.paths.length) (fun _ => rfl) (fun h h' =>
    h'.trans h)
    (receiveFlowControl_same _ s).length (fun t _ _ => t.applyAckRangesOnPath_paths_length ..)
    fun t _ => (applyAckFrequency_same t _).length

/-! ## Packets -/

/-- What a packet that is not a duplicate does: it keeps what was received, and unless its STREAM
frames are still to be handed over it is received itself. -/
structure Observes (s : EndpointState P) (packetNumber : Nat) (deferred : Bool)
    (outcome : EndpointState P × Except Error TransportFrames) : Prop where
  retains : Retains s outcome.1
  number : ∀ frames, outcome.2 = .ok frames → frames.header.packetNumber = packetNumber
  observed : ∀ frames, outcome.2 = .ok frames → frames.duplicate = false → deferred = false →
    outcome.1.hasReceivedPacket packetNumber = true

theorem Observes.after {s s₁ : EndpointState P}
    {outcome : EndpointState P × Except Error TransportFrames} (h : Retains s s₁)
    (hrest : Observes s₁ packetNumber deferred outcome) :
    Observes s packetNumber deferred outcome :=
  ⟨h.trans hrest.retains, hrest.number, hrest.observed⟩

/-- Nothing but an error, or a duplicate, is reported. -/
theorem Observes.of_retains {s : EndpointState P} {result : Except Error TransportFrames}
    (h : Retains s s') (hresult : ∀ frames, result = .ok frames →
      frames.header.packetNumber = packetNumber ∧ frames.duplicate = true) :
    Observes s packetNumber deferred (s', result) := by
  refine ⟨h, fun frames hok => (hresult frames hok).1, fun frames hok hnew => ?_⟩
  rw [(hresult frames hok).2] at hnew
  cases hnew

theorem receiveStreams_observes {s : EndpointState P} {streams : List StreamFrame}
    (hpath : path < s.paths.length) (deferAck : Bool) (hroom : deferAck = false →
      (acceptStreams (streams.filter fun frame => !s.receive.isRetired frame.id) s.receive).2 =
        .ok () →
        s.roomFor header.packetNumber) :
    Observes s header.packetNumber deferAck (s.receiveStreams header streams path deferAck) := by
  unfold receiveStreams
  extract_lets live
  split
  · exact .of_retains (retains ⟨rfl, rfl⟩) (by simp)
  rename_i receive heq
  extract_lets s₁ s₂ s₃
  have hsame : SameReceived s s₂ :=
    (⟨rfl, rfl⟩ : SameReceived s s₁).trans
      (.of_bystands (foldl_same (fun t _ => tryRetireStream_same t _) s₁ _))
  have hlength : s₂.paths.length = s.paths.length :=
    (foldl_same (fun t _ => tryRetireStream_same t _) s₁ _).length
  have hs₃ : Retains s₂ s₃ ∧
      (deferAck = false → s₃.hasReceivedPacket header.packetNumber = true) := by
    unfold s₃
    cases deferAck with
    | true => exact ⟨Retains.refl s₂, by simp⟩
    | false =>
      have hcommit := commitStreamPacketReceive_observes path fun _ =>
        hsame.roomFor (hroom rfl (by rw [heq]))
      exact ⟨hcommit.1, fun _ => hcommit.2 (hlength ▸ hpath)⟩
  refine ⟨hsame.retains.trans hs₃.1, ?_, fun frames _ _ hnow => hs₃.2 hnow⟩
  intro frames hok
  rw [← ok.inj hok]

/-- A packet that is in order comes to be observed: it is new, its control frames apply, and it has
no STREAM frames, or these are admitted and their delivery is not waited for. -/
def ComesToObserve (s : EndpointState P) (header : ShortHeader) (parsed : ParsedFrames) (path : Nat)
    (deferAck : Bool) : Prop :=
  s.receivedPackets.contains header.packetNumber = false ∧
    ¬(parsed.closeCode.isSome ∧ parsed.streams ≠ []) ∧
    (s.applyControl parsed path).2 = .ok () ∧
      (parsed.streams = [] ∨ deferAck = false ∧
        (acceptStreams (parsed.streams.filter fun frame =>
          !(s.applyControl parsed path).1.receive.isRetired frame.id)
          (s.applyControl parsed path).1.receive).2 = .ok ())

instance (s : EndpointState P) (header : ShortHeader) (parsed : ParsedFrames) (path : Nat)
    (deferAck : Bool) : Decidable (s.ComesToObserve header parsed path deferAck) :=
  inferInstanceAs (Decidable (_ ∧ _ ∧ _ ∧ _))

theorem applyPacket_observes {s : EndpointState P} {parsed : ParsedFrames}
    (hpath : path < s.paths.length) (deferAck : Bool)
    (hroom : s.ComesToObserve header parsed path deferAck →
      (s.applyControl parsed path).1.roomFor header.packetNumber) :
    Observes s header.packetNumber deferAck
      (s.applyPacket header parsed (s.receivedPackets.contains header.packetNumber) path
        deferAck) := by
  have hcontrol := applyControl_retainsReceived s parsed path
  have hpaths := applyControl_paths_length s parsed path
  unfold applyPacket
  split
  · exact .of_retains (Retains.refl s) (by simp)
  rename_i hclosing
  unfold ComesToObserve at hroom
  split <;> rename_i heq <;> rw [heq] at hcontrol hroom hpaths
  · exact .of_retains hcontrol (by simp)
  rename_i s₁
  extract_lets closes t
  have hclose : SameReceived s₁ t := by
    unfold t
    split <;> exact ⟨rfl, rfl⟩
  have hlength : t.paths.length = s.paths.length := by
    rw [← hpaths]
    unfold t
    split <;> rfl
  have hreceive : t.receive = s₁.receive := by
    unfold t
    split <;> rfl
  refine .after (hcontrol.trans hclose.retains) ?_
  cases hnew : s.receivedPackets.contains header.packetNumber with
  | true =>
    refine .of_retains ?_ (by simp)
    exact (of_bystands (scheduleAck_same { t with controlPending := true } path true)).retains
  | false =>
  simp only [Bool.false_eq_true, if_false]
  split
  · rename_i u v hempty
    have hroom := hclose.roomFor (hroom ⟨hnew, hclosing, rfl, .inl hempty⟩)
    -- Whether an ACK is scheduled changes nothing of what was received.
    have hack : SameReceived u v := by
      unfold v
      split
      · exact .of_bystands (scheduleAck_same ..)
      · exact refl u
    refine ⟨(observePacketOnPath_retains hroom path).trans hack.retains, ?_, ?_⟩
    · intro frames hok
      rw [← ok.inj hok]
    · intro frames _ _ _
      exact hack.retains _ (observePacketOnPath_observes hroom (hlength ▸ hpath))
  · refine receiveStreams_observes (hlength ▸ hpath) deferAck ?_
    intro hnow haccepts
    rw [hreceive] at haccepts
    exact hclose.roomFor (hroom ⟨hnew, hclosing, rfl, .inr ⟨hnow, haccepts⟩⟩)

/-- Where the packet comes to be observed, the set has room for it once the packet's own control
frames were applied. -/
def roomForPacket (s : EndpointState P) (input : Bytes) (path : Nat) (deferAck : Bool) : Prop :=
  match s.admitted input path with
  | none => True
  | some (header, parsed) => s.ComesToObserve header parsed path deferAck →
      (s.applyControl parsed path).1.roomFor header.packetNumber

instance (s : EndpointState P) (input : Bytes) (path : Nat) (deferAck : Bool) :
    Decidable (s.roomForPacket input path deferAck) :=
  match hadmitted : s.admitted input path with
  | none => isTrue (by simp [roomForPacket, hadmitted])
  | some (header, parsed) => decidable_of_iff (s.ComesToObserve header parsed path deferAck →
      (s.applyControl parsed path).1.roomFor header.packetNumber)
        (by simp [roomForPacket, hadmitted])

/-- What was received stays received, and so does the packet of this call, unless it is refused, a
duplicate or still to be handed over. -/
def Receives (s : EndpointState P) (deferred : Bool)
    (outcome : EndpointState P × Except Error TransportFrames) : Prop :=
  Retains s outcome.1 ∧ ∀ frames, outcome.2 = .ok frames → frames.duplicate = false →
    deferred = false →
    outcome.1.hasReceivedPacket frames.header.packetNumber = true

theorem receivePacketBatchOnPath_receives {s : EndpointState P} {deferAck : Bool}
    (hroom : s.roomForPacket input path deferAck) :
    Receives s deferAck (s.receivePacketBatchOnPath input path deferAck) := by
  rcases s.receivePacketBatchOnPath_admitted input path deferAck with
    ⟨header, parsed, hadmitted, hpath, heq⟩ | ⟨code, pending, result, heq, hold⟩
  · unfold roomForPacket at hroom
    rw [hadmitted] at hroom
    rw [heq]
    have hobserves := applyPacket_observes hpath deferAck hroom
    refine ⟨hobserves.retains, ?_⟩
    intro frames hok hnew hnow
    rw [hobserves.number frames hok]
    exact hobserves.observed frames hok hnew hnow
  · rw [heq]
    refine ⟨retains ⟨rfl, rfl⟩, ?_⟩
    intro frames hok hnew
    rw [hold frames hok] at hnew
    cases hnew

/-- What a packet with a number received before does: no byte is counted, and a report says
duplicate and hands no STREAM frame on. -/
def Suppresses (s : EndpointState P)
    (outcome : EndpointState P × Except Error TransportFrames) : Prop :=
  outcome.1.receive.receivedData = s.receive.receivedData ∧
    ∀ frames, outcome.2 = .ok frames → frames.duplicate = true ∧ frames.streams = []

theorem applyPacket_suppresses (header : ShortHeader) (parsed : ParsedFrames) (path : Nat)
    (deferAck : Bool) : Suppresses s (s.applyPacket header parsed true path deferAck) := by
  have hcontrol := (applyControl_retires s parsed path).data
  rcases s.applyPacket_cases header parsed true path deferAck with
    ⟨t, e, ht | ht, heq⟩ | ⟨s₁, t, rfl, ⟨code, pending, ht⟩, heq | ⟨hnew, -⟩⟩
  · rw [heq, ht]
    exact ⟨rfl, by simp⟩
  · rw [heq, ht]
    exact ⟨hcontrol, by simp⟩
  · rw [heq]
    refine ⟨?_, by simp⟩
    rw [scheduleAck_receive, ht]
    exact hcontrol
  · cases hnew

theorem receivePacketBatchOnPath_suppresses {s : EndpointState P}
    {headerLen : Nat} (hheader : ShortHeader.decodeWithExpected input s.expectedPacketNumber =
      .ok (header, headerLen)) (hseen : s.hasReceivedPacket header.packetNumber = true) (path : Nat)
    (deferAck : Bool) :
    Suppresses s (s.receivePacketBatchOnPath input path deferAck) := by
  rcases s.receivePacketBatchOnPath_cases input path deferAck with
    ⟨e, heq⟩ | ⟨header', headerLen', hheader', heq | heq | ⟨-, hfloor, parsed, -, heq⟩⟩ <;> rw [heq]
  · exact ⟨rfl, by simp⟩
  · exact ⟨rfl, by simp⟩
  · exact ⟨rfl, by simp⟩
  obtain ⟨rfl, -⟩ := Prod.mk.inj (ok.inj (hheader.symm.trans hheader'))
  have hduplicate : s.receivedPackets.contains header.packetNumber = true := by
    simpa [hasReceivedPacket, not_lt.mpr hfloor] using hseen
  rw [hduplicate]
  exact applyPacket_suppresses s header _ path deferAck

/-! ## Whole runs -/

theorem configOp_sameReceived (op : ConfigOp) : SameReceived s (op.apply s).1 := by
  cases op with
  | setDuplicationBudgetCapacity => exact ⟨rfl, rfl⟩
  | _ => exact .of_bystands (configOp_bystands s rfl)

theorem Emits.sameReceived {s : EndpointState P} {target : Nat → Prop} {capacity : Nat}
    (h : Emits target capacity s s') : SameReceived s s' := by
  cases h with
  | quiet h => exact ⟨h.ranges, h.floor⟩
  | passes _ _ after =>
    refine SameReceived.trans ?_ ⟨after.ranges, after.floor⟩
    refine SameReceived.trans ?_ (.of_bystands (noteStatusSent_same _ _ _))
    exact ⟨rfl, rfl⟩
  | records before entry after =>
    exact ((of_idle before).trans ⟨entry.ranges, entry.floor⟩).trans ⟨after.ranges, after.floor⟩

/-- The observations that drop no range. A packet that is refused, is a duplicate or waits for its
delivery is not observed; nor is one committed on a path that does not exist. -/
def DropsNoRange (s : EndpointState P) : Op → Prop
  | .receivePacketBatch input ingressPath deferAck => s.roomForPacket input ingressPath deferAck
  | .commitStreamPacketReceive packetNumber ingressPath =>
    ingressPath < s.paths.length → s.roomFor packetNumber
  | _ => True

instance (s : EndpointState P) (op : Op) : Decidable (s.DropsNoRange op) :=
  match op with
  | .receivePacketBatch input ingressPath deferAck =>
    inferInstanceAs (Decidable (s.roomForPacket input ingressPath deferAck))
  | .commitStreamPacketReceive packetNumber _ =>
    inferInstanceAs (Decidable (_ → s.roomFor packetNumber))
  | .config _ | .continuePacketNumbersFrom _ | .openSendStream _ _ | .setInitialPeerBudget _ _ _
  | .setHistoryCapacity _ | .setTransmissionCapacity _ | .addPathState | .addPathStateWithIds _ _
  | .addPathStateWithLocalId _ | .suspendPath _
  | .removePathState _ | .encodeStreamPacket _ _ _ _ | .encodeStreamPacketFromOwned _ _ _ _
  | .encodePathControlPacket _ _ _ _ | .sendDatagram _ _ _ _ _ | .encodeProbePacket _ _
  | .pollTransmit _ _ | .pollClose _ | .retransmitStreamPacket _ _
  | .retransmitStreamPacketOnPath _ _ _ | .duplicateStreamPacket _ _ _
  | .duplicateCreditControl _ _ _ _ _ _ _ | .retransmitMarkedLoss _ | .retransmitPtoProbe _ _
  | .retransmitDue _ _ | .packetSubmissionBlocked _ | .packetSubmissionAccepted _ _
  | .packetSubmissionFailed _ | .markLost _ | .applyAckRanges _ _ _ | .streamConsumed _ _ _ _
  | .streamConsumedWithoutCredit _ _ | .grantReceiveWindow _ _ | .setReceiveGrowthLimits _
  | .prepareLocalBidiReceive _ => isTrue trivial

theorem submission_sameReceived (packetNumber nowUs : Nat) :
    SameReceived s (s.packetSubmissionBlocked packetNumber).1 ∧
      SameReceived s (s.packetSubmissionAccepted packetNumber nowUs).1 ∧
      SameReceived s (s.packetSubmissionFailed packetNumber).1 ∧
        SameReceived s (s.markLost packetNumber).1 := by
  refine ⟨?_, ?_, ?_, ?_⟩
  · unfold packetSubmissionBlocked
    split
    · exact refl s
    extract_lets s₁ s₂ s₃
    have h₁ : SameReceived s s₁ := by
      unfold s₁
      split <;> exact ⟨rfl, rfl⟩
    exact h₁.trans ⟨rfl, rfl⟩
  · unfold packetSubmissionAccepted
    split
    · exact refl s
    extract_lets congestion windowLimited s₁ s₂ s₃
    have h₁ : SameReceived s s₁ := by
      unfold s₁
      split <;> exact ⟨rfl, rfl⟩
    have h₂ : SameReceived s₁ s₂ := by
      unfold s₂
      split
      · exact refl _
      unfold commitDuplicationBudget
      split
      · exact ⟨rfl, rfl⟩
      · split <;> exact ⟨rfl, rfl⟩
    exact (h₁.trans h₂).trans ⟨rfl, rfl⟩
  · unfold packetSubmissionFailed
    split
    · exact refl s
    split
    · exact refl s
    extract_lets s₁ s₂ sent keep
    have h₁ : SameReceived s s₁ := by
      unfold s₁
      split <;> exact ⟨rfl, rfl⟩
    exact h₁.trans ⟨rfl, rfl⟩
  · unfold markLost
    split
    · exact refl s
    · split <;> exact ⟨rfl, rfl⟩

theorem addPathState_sameReceived : SameReceived s s.addPathState.1 := by
  unfold addPathState
  split <;> exact ⟨rfl, rfl⟩

theorem Extends.sameReceived {s' : EndpointState P} (h : Extends s s') : SameReceived s s' := by
  rcases h with rfl | rfl | ⟨pathId, localCid, peerCid, rfl⟩
  · exact refl _
  · exact s.addPathState_sameReceived
  · exact s.addPathState_sameReceived.trans ⟨rfl, rfl⟩

theorem suspendPath_sameReceived (pathId : Nat) : SameReceived s (s.suspendPath pathId) := by
  unfold suspendPath
  split <;> exact ⟨rfl, rfl⟩

theorem removePathState_sameReceived (pathId : Nat) :
    SameReceived s (s.removePathState pathId).1 := by
  unfold removePathState
  split
  · exact refl s
  · split <;> exact ⟨rfl, rfl⟩

/-- A call forgets a number only by dropping a range. -/
theorem step_retains (op : Op) (hok : s.DropsNoRange op) : Retains s (s.step op) := by
  cases hsends : sends op with
  | true => exact (s.step_emits hsends).sameReceived.retains
  | false =>
  cases op with
  | receivePacketBatch input ingressPath deferAck => exact (receivePacketBatchOnPath_receives hok).1
  | commitStreamPacketReceive packetNumber ingressPath =>
    exact (commitStreamPacketReceive_observes ingressPath hok).1
  | applyAckRanges acknowledged delay path =>
    exact applyAckRangesOnPath_retainsReceived s acknowledged delay path
  | config op => exact (configOp_sameReceived s op).retains
  | setHistoryCapacity limit =>
    refine retains ?_
    show SameReceived s (s.setHistoryCapacity limit).1
    unfold setHistoryCapacity
    split <;> exact ⟨rfl, rfl⟩
  | setTransmissionCapacity limit =>
    refine retains ?_
    show SameReceived s (s.setTransmissionCapacity limit).1
    unfold setTransmissionCapacity
    split <;> exact ⟨rfl, rfl⟩
  | addPathState => exact s.addPathState_sameReceived.retains
  | addPathStateWithIds localId peerId =>
    exact (s.addPathStateWithIds_extends localId peerId).sameReceived.retains
  | addPathStateWithLocalId localId =>
    exact (s.addPathStateWithLocalId_extends localId).sameReceived.retains
  | suspendPath pathId => exact (s.suspendPath_sameReceived pathId).retains
  | removePathState pathId => exact (s.removePathState_sameReceived pathId).retains
  | retransmitDue now capacity =>
    have htime : SameReceived s (s.setTime now) := ⟨rfl, rfl⟩
    exact ((htime.trans (detectDueLosses_sameReceived _)).trans
      (s.retransmitDue_recovers none now capacity).emits.sameReceived).retains
  | packetSubmissionBlocked packetNumber =>
    exact (s.submission_sameReceived packetNumber 0).1.retains
  | packetSubmissionAccepted packetNumber nowUs =>
    exact (s.submission_sameReceived packetNumber nowUs).2.1.retains
  | packetSubmissionFailed packetNumber =>
    exact (s.submission_sameReceived packetNumber 0).2.2.1.retains
  | markLost packetNumber => exact (s.submission_sameReceived packetNumber 0).2.2.2.retains
  | continuePacketNumbersFrom | openSendStream | setInitialPeerBudget | encodeProbePacket
  | pollTransmit | pollClose | streamConsumed | streamConsumedWithoutCredit | grantReceiveWindow
  | setReceiveGrowthLimits | prepareLocalBidiReceive =>
    exact (of_bystands (step_bystands s rfl (by simp) (by simp))).retains
  | _ => cases hsends

/-- The numbers a call accepts and commits: of a packet that was not a duplicate, unless its STREAM
frames wait for delivery, and of the commit that follows the delivery. -/
def accepted (s : EndpointState P) : Op → List Nat
  | .receivePacketBatch input ingressPath deferAck =>
    match s.receivePacketBatchOnPath input ingressPath deferAck with
    | (s', .ok frames) =>
      if !frames.duplicate && (!deferAck || s'.hasReceivedPacket frames.header.packetNumber) then
        [frames.header.packetNumber]
      else []
    | _ => []
  | .commitStreamPacketReceive packetNumber ingressPath =>
    if ingressPath < s.paths.length then [packetNumber] else []
  | _ => []

theorem accepted_received (op : Op) (hok : s.DropsNoRange op)
    (h : packetNumber ∈ s.accepted op) : (s.step op).hasReceivedPacket packetNumber = true := by
  cases op with
  | receivePacketBatch input ingressPath deferAck =>
    have hreceives := (receivePacketBatchOnPath_receives hok).2
    simp only [accepted] at h
    show (s.receivePacketBatchOnPath input ingressPath deferAck).1.hasReceivedPacket
      packetNumber = true
    split at h
    · rename_i s' frames heq
      rw [heq] at hreceives ⊢
      split at h
      · rename_i hnew
        obtain rfl := mem_singleton.mp h
        simp only [Bool.and_eq_true, Bool.not_eq_true', Bool.or_eq_true] at hnew
        obtain ⟨hnew, hnow | hseen⟩ := hnew
        · exact hreceives frames rfl hnew hnow
        · exact hseen
      · cases h
    · cases h
  | commitStreamPacketReceive n ingressPath =>
    simp only [accepted] at h
    split at h
    · rename_i hpath
      obtain rfl := mem_singleton.mp h
      exact (commitStreamPacketReceive_observes ingressPath hok).2 hpath
    · cases h
  | _ => cases h

/-- In every run in which no observation drops a range, a number that was accepted and committed is
never accepted again: any later packet with that number is reported as a duplicate, without STREAM
frames, and no byte of it is counted. -/
theorem accepted_once_of_run {role : Role} {limits : ConnectionLimits}
    {maxPacketSize historyCapacity : Nat} {ops : List Op} (hrun : Runs.Along step DropsNoRange
      (newWithHistoryCapacity P role limits maxPacketSize historyCapacity) ops) {packetNumber : Nat}
    (haccepted : packetNumber ∈
      Runs.trace step accepted (newWithHistoryCapacity P role limits maxPacketSize historyCapacity)
        ops) {input : Bytes} {header : ShortHeader} {headerLen : Nat}
        (hheader : ShortHeader.decodeWithExpected input
      (Runs.exec step (newWithHistoryCapacity P role limits maxPacketSize historyCapacity)
        ops).expectedPacketNumber = .ok (header, headerLen))
    (hnumber : header.packetNumber = packetNumber) (path : Nat) (deferAck : Bool) :
    Suppresses (Runs.exec step (newWithHistoryCapacity P role limits maxPacketSize historyCapacity)
      ops) ((Runs.exec step (newWithHistoryCapacity P role limits maxPacketSize historyCapacity)
        ops).receivePacketBatchOnPath input path deferAck) := by
  have hstep : ∀ (s : EndpointState P) (log : List Nat) (op : Op),
      (∀ n ∈ log, s.hasReceivedPacket n = true) → s.DropsNoRange op →
        ∀ n ∈ log ++ s.accepted op, (s.step op).hasReceivedPacket n = true := by
    intro s log op hlog hok n hn
    rcases mem_append.mp hn with hold | hnew
    · exact step_retains s op hok n (hlog n hold)
    · exact accepted_received s op hok hnew
  have hstart : ∀ n ∈ ([] : List Nat),
      (newWithHistoryCapacity P role limits maxPacketSize historyCapacity).hasReceivedPacket n =
        true := by simp
  have hseen := hrun.invariant_trace hstep hstart packetNumber haccepted
  exact receivePacketBatchOnPath_suppresses hheader (hnumber ▸ hseen) path deferAck

/-- One byte of stream 1 at offset 0, under this number. -/
def numbered (packetNumber : Nat) :
    Bytes := [0x43, 5, 0, 0, 0, UInt8.ofNat packetNumber, 0x0a, 1, 1, 7]

/-- Every other number arrives, so that each is a range of its own. -/
def gapped (count : Nat) : List Op :=
  .config (.installConnectionIds clientId serverId) ::
    (List.range count).map fun k => .receivePacketBatch (numbered (2 * k)) 0 false

/-- The number, the verdict and the count of STREAM frames of a report. -/
def reported (outcome : EndpointState P × Except Error TransportFrames) :
    Option (Nat × Bool × Nat) :=
  match outcome.2 with
  | .ok frames => some (frames.header.packetNumber, frames.duplicate, frames.streams.length)
  | .error _ => none

theorem gapped_accepted_once : Runs.Along step DropsNoRange freshClient (gapped 32) ∧
      0 ∈ Runs.trace step accepted freshClient (gapped 32) ∧
      reported ((Runs.exec step freshClient (gapped 32)).receivePacketBatchOnPath (numbered 0) 0
        false) =
        some (0, true, 0) ∧
      ((Runs.exec step freshClient (gapped 32)).receivePacketBatchOnPath (numbered 0) 0
        false).1.receive.receivedData =
        1 := by
  have hrun : Runs.Along step DropsNoRange freshClient (gapped 32) := by decide +kernel
  have haccepted : 0 ∈ Runs.trace step accepted freshClient (gapped 32) := by decide +kernel
  have hdata : (Runs.exec step freshClient (gapped 32)).receive.receivedData = 1 := by
    decide +kernel
  have hheader : ShortHeader.decodeWithExpected (numbered 0)
      (Runs.exec step freshClient (gapped 32)).expectedPacketNumber =
        .ok (⟨0x43, clientId, 0, 4⟩, 6) := by
    decide +kernel
  have honce : Suppresses (Runs.exec step freshClient (gapped 32))
      ((Runs.exec step freshClient (gapped 32)).receivePacketBatchOnPath (numbered 0) 0 false) :=
    accepted_once_of_run hrun haccepted hheader rfl 0 false
  refine ⟨hrun, haccepted, ?_, honce.1.trans hdata⟩
  decide +kernel

/-- The thirty-third range drops the lowest one, and its number is accepted a second time. -/
theorem evicted_number_accepted_again : 0 ∈ Runs.trace step accepted freshClient (gapped 33) ∧
      reported ((Runs.exec step freshClient (gapped 33)).receivePacketBatchOnPath (numbered 0) 0
        false) =
        some (0, false, 1) := by
  refine ⟨?_, ?_⟩ <;> decide +kernel

end EndpointState

end QuicLite
