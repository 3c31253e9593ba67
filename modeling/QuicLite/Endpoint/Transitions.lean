import QuicLite.Endpoint.Packets

/-!
# What an emission leaves behind

For every call that can write a packet, an inversion lemma: either nothing but pacing happened
(`Idle`), or the packet was charged to one path (`Charges`) and entered, as the planned commit
describes it. The repairs and probes, however they are reached, are one such step with pacing around
it (`Recovers`).
-/

namespace QuicLite

open List Option Except PathState CongestionController Packet.Formed Packet Prod Nat

namespace EndpointState

variable {P : Nat} {capacity bytes : Nat} {s : EndpointState P} {frame : StreamFrame}
    {send : SendFlowControl}
variable {p : PathState} {α : Type} {plan : StreamPlan} {id : Nat} {pkt : Packet} {keys : Keys}

/-! ## States -/

/-- The acknowledgements that the paths owe. -/
def owed (s : EndpointState P) : List (Bool × Nat × Bool × Nat) := s.paths.map PathState.owed

/-- Only paths differ; as long as send orders do not run out, no path in its flight. -/
structure Idle (s s' : EndpointState P) : Prop where
  rest : s' = { s with paths := s'.paths }
  owed : s'.owed = s.owed
  flight : (∀ p ∈ s.paths, p.nextSendOrder < u64Max) →
    Forall₂ KeepsFlight s.paths s'.paths
  peer : ∀ pathId, s'.peerConnectionIdOnPath pathId = s.peerConnectionIdOnPath pathId

theorem Idle.slots {s' : EndpointState P} (h : Idle s s') : s'.sentPackets = s.sentPackets := by
  rw [h.rest]

/-- One packet of this size was charged to the path, and a send order taken. -/
structure Charges (p p' : PathState) (bytes : Nat) : Prop where
  flight : p'.congestion.bytesInFlight = satAdd p.congestion.bytesInFlight bytes
  order : p'.nextSendOrder = p.nextSendOrder + 1
  bound : p.nextSendOrder < u64Max
  peer : p'.peerCid = p.peerCid
  owed : p'.owed = p.owed

theorem forall₂_keeps_refl (paths : List PathState) : Forall₂ KeepsFlight paths paths :=
  forall₂_same.mpr fun p _ => .refl p

variable {pathId : Nat} {p' : PathState}

theorem forall₂_keeps_set {paths : List PathState}
    (hp : paths[pathId]? = some p) (h : KeepsFlight p p') :
    Forall₂ KeepsFlight paths (paths.set pathId p') := by
  rw [forall₂_iff_get]
  refine ⟨by simp, ?_⟩
  intro i h₁ h₂
  simp only [get_eq_getElem, getElem_set]
  split_ifs with hi
  · subst hi
    rw [getElem?_eq_getElem h₁, some.injEq] at hp
    rwa [hp]
  · exact .refl _

namespace Idle

variable {s s' s'' : EndpointState P}

theorem refl (s : EndpointState P) : Idle s s :=
  ⟨rfl, rfl, fun _ => forall₂_keeps_refl s.paths, fun _ => rfl⟩

theorem order (h : Idle s s') (horder : ∀ p ∈ s.paths, p.nextSendOrder < u64Max) :
    ∀ p ∈ s'.paths, p.nextSendOrder < u64Max := by
  intro p hp
  obtain ⟨i, hi, rfl⟩ := getElem_of_mem hp
  obtain ⟨hlen, hkeeps⟩ := forall₂_iff_get.mp (h.flight horder)
  have := (hkeeps i (by omega) hi).order
  simp only [get_eq_getElem] at this
  rw [this]
  exact horder _ (getElem_mem _)

theorem trans (h : Idle s s') (h' : Idle s' s'') : Idle s s'' := by
  refine ⟨?_, h'.owed.trans h.owed, ?_, fun pathId => (h'.peer pathId).trans (h.peer pathId)⟩
  · rw [h'.rest, h.rest]
  intro horder
  have h₁ := h.flight horder
  have h₂ := h'.flight (h.order horder)
  rw [forall₂_iff_get] at h₁ h₂ ⊢
  refine ⟨h₁.1.trans h₂.1, fun i hi hi' => ?_⟩
  exact (h₁.2 i hi (by omega)).trans (h₂.2 i (by omega) hi')

end Idle

theorem paths_getElem?_of_lt (h : pathId < s.paths.length) :
    s.paths[pathId]? = some (s.pathAt pathId) := by
  rw [pathAt, getD_eq_getElem?_getD, getElem?_eq_getElem h]
  rfl

section

variable {s : EndpointState P} (hpath : pathId < s.paths.length)
include hpath

theorem peerConnectionIdOnPath_setPath (h : p'.peerCid = (s.pathAt pathId).peerCid) (id : Nat) :
    (s.setPath pathId p').peerConnectionIdOnPath id = s.peerConnectionIdOnPath id := by
  unfold peerConnectionIdOnPath setPath
  by_cases hid : pathId = id
  · subst hid
    simp only [getElem?_set_self hpath, paths_getElem?_of_lt hpath, bind_some, h]
  · simp only [getElem?_set_ne hid]

theorem owed_setPath (h : p'.owed = (s.pathAt pathId).owed) :
    (s.setPath pathId p').owed = s.owed := by
  have hget : s.owed[pathId]? = some p'.owed := by
    rw [owed, List.getElem?_map, paths_getElem?_of_lt hpath, h]; rfl
  obtain ⟨hlt, hself⟩ := List.getElem?_eq_some_iff.mp hget
  show (s.paths.set pathId p').map PathState.owed = s.owed
  rw [List.map_set, ← hself]
  exact set_getElem_self hlt

theorem idle_setPath (h : KeepsFlight (s.pathAt pathId) p') : Idle s (s.setPath pathId p') :=
  ⟨rfl, owed_setPath hpath h.owed, fun _ => forall₂_keeps_set (paths_getElem?_of_lt hpath) h,
    peerConnectionIdOnPath_setPath hpath h.peer⟩

/-- Running out of send orders leaves the charge behind. -/
theorem idle_of_exhausted (hpeer : p'.peerCid = (s.pathAt pathId).peerCid)
    (howed : p'.owed = (s.pathAt pathId).owed) (h : u64Max ≤ (s.pathAt pathId).nextSendOrder) :
    Idle s (s.setPath pathId p') := by
  refine ⟨rfl, owed_setPath hpath howed, fun horder =>
    ?_, peerConnectionIdOnPath_setPath hpath hpeer⟩
  have := horder _ (mem_of_getElem? (paths_getElem?_of_lt hpath))
  omega

end

theorem foldl_satAdd (lost : List SentPacket) (hbytes : bytes ≤ u64Max) :
    lost.foldl (fun bytes packet => satAdd bytes packet.bytes) bytes =
      min (bytes + (lost.map (·.bytes)).sum) u64Max := by
  induction lost generalizing bytes with
  | nil => simp [hbytes]
  | cons packet lost ih =>
    rw [foldl_cons, ih (by simp [satAdd, u64Max]), map_cons, sum_cons]
    simp only [satAdd, u64Max] at *
    omega

/-- Declared losses leave the flight, and nothing else of it changes. -/
theorem declareLosses_spec (p : PathState) (nextPacketNumber : Nat) (lost : List SentPacket) :
    (declareLosses p nextPacketNumber lost).congestion.bytesInFlight =
        p.congestion.bytesInFlight - min (lost.map (·.bytes)).sum u64Max ∧
      (declareLosses p nextPacketNumber lost).nextSendOrder = p.nextSendOrder ∧
      (declareLosses p nextPacketNumber lost).peerCid = p.peerCid := by
  have hfold : ∀ (lost : List SentPacket) (q : PathState),
      KeepsFlight q (lost.foldl (fun path packet =>
      (path.recordDeliveryOutcome false p.sendClock).modifyEvent packet.packetNumber fun event =>
        { event with lost := true }) q) := by
    intro lost
    induction lost with
    | nil => exact .refl
    | cons packet lost ih =>
      intro q
      refine ((recordDeliveryOutcome_keeps q false p.sendClock).trans ?_).trans (ih _)
      exact ⟨rfl, rfl, rfl, rfl⟩
  unfold declareLosses
  simp only
  have hkeeps := hfold lost p
  split
  · rename_i hnone
    obtain rfl : lost = [] := by simpa using hnone
    exact ⟨by simp, hkeeps.order, hkeeps.peer⟩
  · refine ⟨?_, hkeeps.order, hkeeps.peer⟩
    rw [onPacketLost_flight, foldl_satAdd lost (zero_le _), zero_add, hkeeps.flight]

/-- Either the send orders ran out, or the path is charged and its order taken. -/
theorem assignSendOrder_cases (p : PathState) (bytes : Nat) :
    let charged := { p with congestion := p.congestion.onRetransmissionSent bytes }
    (u64Max ≤ p.nextSendOrder ∧ charged.assignSendOrder = .error .historyFull) ∨
      ∃ p', charged.assignSendOrder = .ok (p', p.nextSendOrder) ∧ Charges p p' bytes := by
  simp only [assignSendOrder]
  split_ifs with h
  · exact .inl ⟨h, rfl⟩
  · exact .inr ⟨_, rfl, rfl, rfl, by omega, rfl, rfl⟩

/-- Pacing before the charge. -/
theorem Charges.after_keeps {q : PathState} (hkeeps : KeepsFlight p q)
    (h : Charges q p' bytes) : Charges p p' bytes := by
  refine ⟨?_, ?_, ?_, h.peer.trans hkeeps.peer, h.owed.trans hkeeps.owed⟩
  · rw [h.flight, hkeeps.flight]
  · rw [h.order, hkeeps.order]
  · rw [← hkeeps.order]
    exact h.bound

theorem onPacketSent_some {c c' : CongestionController} (h : c.onPacketSent bytes = some c') :
    c' = c.onRetransmissionSent bytes := by
  unfold onPacketSent at h
  split_ifs at h
  exact (some.inj h).symm

/-! ## Written packets -/

/-- The packet is this header with its frames, sealed for the path if there are keys. A datagram is
sealed when its number is taken already. -/
def Written (keys : Keys) (s : EndpointState P) (pathId : Nat) (header : ShortHeader)
    (capacity : Nat) (pkt : Packet) : Prop :=
  ∃ (t : EndpointState P) (plain : Packet) (room : Nat), Formed header capacity plain ∧
    t.peerConnectionIdOnPath pathId = s.peerConnectionIdOnPath pathId ∧
    (t.nextPacketNumber = s.nextPacketNumber ∨ t.nextPacketNumber = s.nextPacketNumber + 1) ∧
    t.protect keys pathId plain room = .ok pkt

section Written

variable {header : ShortHeader} {plain : Packet} {room : Nat}

theorem Written.formed (h : Written none s pathId header capacity pkt) :
    Formed header capacity pkt := by
  obtain ⟨t, plain, room, hformed, -, -, hprotect⟩ := h
  rwa [← ok.inj hprotect]

theorem Written.of_protect (hformed : Formed header capacity plain)
    (h : s.protect keys pathId plain room = .ok pkt) : Written keys s pathId header capacity pkt :=
  ⟨s, plain, room, hformed, rfl, .inl rfl, h⟩

theorem protect_frames (h : s.protect keys pathId plain room = .ok pkt) :
    pkt.frames = plain.frames := by
  unfold protect protectPacketInPlace at h
  split at h
  · rw [← ok.inj h]
  split at h
  · cases h
  · obtain ⟨bytes, -, h⟩ := bind_eq_ok.mp h
    rw [← ok.inj h]

theorem formed_withControl {piggyback : Bool} {control : Option EncodedControlFrames}
    (hpkt : Formed header room pkt)
    (h : s.encodeControlFramesOnPath pathId (room - pkt.bytes.length) piggyback = .ok control) :
    Formed header room (pkt.withControl control) := by
  cases control with
  | none => exact hpkt
  | some control =>
    have hspec := encodeControlFramesOnPath_spec h
    exact hpkt.extend hspec.wired hspec.fits

end Written

/-! ## Repairs -/

/-- What `planRepair` has checked when it yields a plan. -/
structure RepairSpec (keys : Keys) (s : EndpointState P) (packetNumber pathId capacity : Nat)
    (plan : RepairPlan) : Prop where
  path : pathId < s.paths.length
  number : s.nextPacketNumber < u32Max
  source : ∃ index sent range, s.findSent packetNumber = some (index, sent) ∧ sent.accepted ∧
    sent.sendBufferSlot = some plan.rangeSlot ∧ s.rangeAt plan.rangeSlot = some range ∧
    repairFrame range = .ok (some plan.frame) ∧
      plan.logicalPacketNumber = range.logicalPacketNumber ∧
    (s.freeTransmissionSlot = some plan.slot ∧ plan.evicted = none ∨
      s.freeTransmissionSlot = none ∧ sent.lost ∧ plan.slot = index ∧ plan.evicted = some sent)
  packet : ∃ peerCid, s.peerConnectionIdOnPath pathId = some peerCid ∧
    Written keys s pathId ⟨flagFixed, peerCid, s.nextPacketNumber, s.nextPacketNumberLen⟩ capacity
      plan.packet
  frames : plan.packet.frames = [.stream plan.frame]

/-- A guard that would have given another result was passed. -/
theorem guard_passed {p : Prop} [Decidable p] {a b c : α} (h : (if p then a else b) = c)
    (hne : a ≠ c := by simp) : ¬p ∧ b = c := by
  split_ifs at h with hp
  · exact absurd h hne
  · exact ⟨hp, h⟩

theorem planRepair_spec {packetNumber : Nat} {forced budgeted : Bool}
    {plan : RepairPlan} (h : s.planRepair keys packetNumber pathId capacity forced budgeted =
      .ok (some plan)) : RepairSpec keys s packetNumber pathId capacity plan ∧
      (budgeted → plan.packet.bytes.length ≤ s.duplicationBudgetAvailable) := by
  obtain ⟨hpath, h⟩ := guard_passed h
  cases hfind : s.findSent packetNumber with
  | none =>
    rw [hfind] at h
    cases h
  | some found =>
  obtain ⟨index, sent⟩ := found
  cases hpeer : s.peerConnectionIdOnPath pathId with
  | none =>
    simp only [hfind, hpeer] at h
    cases h
  | some peerCid =>
  simp only [hfind, hpeer] at h
  obtain ⟨hacc, h⟩ := guard_passed h
  obtain ⟨-, h⟩ := guard_passed h
  cases hslot : sent.sendBufferSlot with
  | none =>
    simp only [hslot] at h
    cases h
  | some rangeSlot =>
  cases hrange : s.rangeAt rangeSlot with
  | none =>
    simp only [hslot, hrange] at h
    cases h
  | some range =>
  simp only [hslot, hrange] at h
  obtain ⟨-, h⟩ := guard_passed h
  obtain ⟨frame?, hframe, h⟩ := bind_eq_ok.mp h
  cases frame? with
  | none => cases h
  | some frame =>
  simp only at h
  split at h
  · cases h
  rename_i slot evicted hchosen
  obtain ⟨hnumber, h⟩ := guard_passed h
  simp only [bind_eq_ok] at h
  obtain ⟨pkt, hstart, pkt', hpush, sealed, hprotect, h⟩ := h
  obtain ⟨hformed, hframes⟩ := (start hstart).push hpush
  obtain ⟨hbudget, h⟩ := guard_passed h
  obtain ⟨-, h⟩ := guard_passed h
  cases ok.inj h
  refine ⟨⟨by omega, by omega,
    ⟨index, sent, range, hfind, by simpa using hacc, hslot, hrange, hframe, rfl, ?_⟩,
    ⟨peerCid, hpeer, .of_protect hformed hprotect⟩,
    by rw [protect_frames hprotect, hframes, (start_ok hstart).1]; rfl⟩,
    fun hbudgeted => not_lt.mp fun hlt => hbudget ⟨hbudgeted, hlt⟩⟩
  cases hfree : s.freeTransmissionSlot with
  | some free =>
    rw [hfree] at hchosen
    cases hchosen
    exact .inl ⟨rfl, rfl⟩
  | none =>
    rw [hfree] at hchosen
    split_ifs at hchosen with hlost
    cases hchosen
    exact .inr ⟨rfl, hlost, rfl, rfl⟩

variable (s : EndpointState P) (keys : Keys) (packetNumber : Nat)

/-- A repair either changes nothing but pacing, or sends its plan. -/
theorem retransmitStreamPacketWithProbe_cases (pathId capacity : Nat) (forced budgeted : Bool) :
    let outcome := s.retransmitStreamPacketWithProbe keys packetNumber pathId capacity forced
      budgeted
    (Idle s outcome.1 ∧ ∀ sent, outcome.2 ≠ .ok (some sent)) ∨
      ∃ plan path windowLimited, RepairSpec keys s packetNumber pathId capacity plan ∧
        Charges (s.pathAt pathId) path plan.packet.bytes.length ∧
        (budgeted → plan.packet.bytes.length ≤ s.duplicationBudgetAvailable) ∧
        outcome = ((s.setPath pathId path).commitRepair pathId (s.pathAt pathId).nextSendOrder
          windowLimited budgeted plan, .ok (some (plan.packet, s.nextPacketNumber))) := by
  unfold retransmitStreamPacketWithProbe
  cases hplan : s.planRepair keys packetNumber pathId capacity forced budgeted with
  | error e => exact .inl ⟨.refl s, by simp⟩
  | ok plan? =>
  cases plan? with
  | none => exact .inl ⟨.refl s, by simp⟩
  | some plan =>
  obtain ⟨hspec, hbudget⟩ := planRepair_spec hplan
  have hpace : ∀ path paced, (if forced then (s.pathAt pathId, true) else
      (s.pathAt pathId).tryReservePacing plan.packet.bytes.length (s.pathAt pathId).sendClock) =
        (path, paced) →
      KeepsFlight (s.pathAt pathId) path := by
    intro path paced h
    split_ifs at h
    · cases h
      exact .refl _
    · rw [← show _ = path from congrArg fst h]
      exact tryReservePacing_keeps _ _ _
  simp only
  split
  · rename_i path hreserve
    exact .inl ⟨idle_setPath hspec.path (hpace path false hreserve), by simp⟩
  rename_i path hreserve
  have hkeeps := hpace path true hreserve
  split
  · exact .inl ⟨idle_setPath hspec.path hkeeps, by simp⟩
  rename_i congestion hcharge
  have hcongestion : congestion = path.congestion.onRetransmissionSent
      plan.packet.bytes.length := by
    split_ifs at hcharge
    · exact (some.inj hcharge).symm
    · exact onPacketSent_some hcharge
  subst hcongestion
  rcases assignSendOrder_cases path plan.packet.bytes.length with ⟨hfull, hassign⟩ |
    ⟨p', hassign, hcharges⟩
  · rw [hassign]
    refine .inl ⟨idle_of_exhausted hspec.path hkeeps.peer hkeeps.owed ?_, by simp⟩
    rw [← hkeeps.order]
    exact hfull
  · rw [hassign]
    exact .inr ⟨plan, p', _, hspec, hcharges.after_keeps hkeeps, hbudget, by rw [hkeeps.order]⟩

/-! ## Fresh stream data -/

/-- What a plan of a stream packet has checked. -/
structure StreamSpec (keys : Keys) (s : EndpointState P) (pathId : Nat) (dcid : ConnectionId)
    (frame : StreamFrame) (capacity : Nat) (plan : StreamPlan) : Prop where
  path : pathId < s.paths.length
  payload : frame.data.length ≤ P
  packet : Written keys s pathId ⟨flagFixed, dcid, s.nextPacketNumber, s.nextPacketNumberLen⟩
    capacity plan.packet
  frames : plan.packet.frames = .stream frame :: (plan.control.map (·.frames)).getD []
  control : ∀ c ∈ plan.control, ∃ room, ControlSpec s room c
  range : s.freeRangeSlot = some plan.rangeSlot
  slot : s.freeTransmissionSlot = some plan.transmissionSlot
  room : (s.pathAt pathId).congestion.canSend plan.packet.bytes.length = true

/-- The prefix the encoder writes before the data is the start of the frame's wire form. -/
theorem Wired.stream {bs : Bytes}
    (h : encodeStreamPrefix frame capacity = .ok bs) : Wired [.stream frame]
    (bs ++ frame.data) := by
  obtain ⟨hvalues, rfl, -⟩ := Frame.putAll_nil_eq_ok.mp h
  refine ⟨by simp [Frame.wire, Frame.values, Frame.trailer], ?_⟩
  intro f hf
  rw [mem_singleton.mp hf]
  exact ⟨hvalues, trivial⟩

section

variable {s : EndpointState P} {dcid : ConnectionId}

theorem admitStream_ok {control : Option EncodedControlFrames}
    (h : s.admitStream pathId frame pkt control = .ok plan) :
    plan = ⟨pkt, control, plan.rangeSlot, plan.transmissionSlot⟩ ∧
      s.freeRangeSlot = some plan.rangeSlot ∧
      s.freeTransmissionSlot = some plan.transmissionSlot ∧
      (s.pathAt pathId).congestion.canSend pkt.bytes.length = true := by
  unfold admitStream at h
  split at h
  · rename_i rangeSlot transmissionSlot hrange hslot
    obtain ⟨-, h⟩ := guard_passed h
    obtain ⟨hroom, h⟩ := guard_passed h
    cases ok.inj h
    exact ⟨rfl, hrange, hslot, by simpa using hroom⟩
  · cases h

theorem withControl_frames (pkt : Packet) (control : Option EncodedControlFrames) :
    (pkt.withControl control).frames = pkt.frames ++ (control.map (·.frames)).getD [] := by
  cases control with
  | none => exact (append_nil _).symm
  | some control => rfl

theorem piggyback_spec {room : Nat} {piggyback : Bool} {control : Option EncodedControlFrames}
    (h : s.encodeControlFramesOnPath pathId room piggyback = .ok control) :
    ∀ c ∈ control, ∃ room, ControlSpec s room c := by
  intro c hc
  subst hc
  exact ⟨_, encodeControlFramesOnPath_spec h⟩

theorem planStream_spec (h : s.planStream pathId dcid frame capacity = .ok plan) :
    StreamSpec none s pathId dcid frame capacity plan := by
  obtain ⟨hpath, h⟩ := guard_passed h
  obtain ⟨-, h⟩ := guard_passed h
  obtain ⟨hpayload, h⟩ := guard_passed h
  obtain ⟨-, h⟩ := guard_passed h
  simp only [bind_eq_ok] at h
  obtain ⟨pkt, hstart, streamPrefix, hhead, h⟩ := h
  obtain ⟨hroom, h⟩ := guard_passed h
  obtain ⟨control, hcontrol, h⟩ := bind_eq_ok.mp h
  obtain ⟨hplan, hrange, hslot, hsend⟩ := admitStream_ok h
  have hstarted := start hstart
  rw [(start_ok hstart).1] at hroom hcontrol hplan hsend hstarted
  simp only [length_append] at hroom
  have hformed := hstarted.extend (Wired.stream hhead) (by simp only [length_append]; omega)
  simp only [← append_assoc] at hformed
  rw [hplan]
  exact ⟨by omega, by omega, ⟨s, _, 0, formed_withControl hformed hcontrol, rfl, .inl rfl, rfl⟩,
    withControl_frames _ _, piggyback_spec hcontrol, hrange, hslot, hsend⟩

theorem planStreamProtected_spec {aead : Aead} {protection : EndpointProtection}
    (h : s.planStreamProtected aead protection pathId dcid frame capacity = .ok plan) :
    StreamSpec (some (aead, protection)) s pathId dcid frame capacity plan := by
  obtain ⟨hpath, h⟩ := guard_passed h
  obtain ⟨-, h⟩ := guard_passed h
  obtain ⟨hpayload, h⟩ := guard_passed h
  obtain ⟨-, h⟩ := guard_passed h
  obtain ⟨started, hstart, h⟩ := bind_eq_ok.mp h
  obtain ⟨hroom, h⟩ := guard_passed h
  obtain ⟨pushed, hpush, h⟩ := bind_eq_ok.mp h
  obtain ⟨control, hcontrol, h⟩ := bind_eq_ok.mp h
  obtain ⟨sealed, hseal, h⟩ := bind_eq_ok.mp h
  obtain ⟨hplan, hrange, hslot, hsend⟩ := admitStream_ok h
  have hlead : Formed ⟨flagFixed, dcid, s.nextPacketNumber, s.nextPacketNumberLen⟩
    (controlBodyEnd (some (aead, protection)) capacity) started :=
    ⟨(start hstart).header_eq, (start hstart).body, by omega⟩
  obtain ⟨hpushed, hframes⟩ := hlead.push hpush
  have hformed := (formed_withControl hpushed hcontrol).mono (sub_le capacity aeadTagLen)
  have hprotect : s.protect (some (aead, protection)) pathId (pushed.withControl control) capacity =
      .ok sealed := hseal
  rw [hplan]
  refine ⟨by omega, by omega, .of_protect hformed hprotect, ?_, piggyback_spec hcontrol, hrange,
    hslot, hsend⟩
  rw [protect_frames hprotect, withControl_frames, hframes, (start_ok hstart).1]
  rfl

end

/-- A reservation finds its stream, so that finishing it afterwards succeeds. -/
theorem reserved_stream {send' : SendFlowControl} {offset len : Nat}
    (h : send.reserved id offset len = .ok send') : (send'.stream id).isSome := by
  cases hcan : send.canSend id offset len with
  | false =>
    rw [send.reserved_of_refused hcan] at h
    cases h
  | true =>
    obtain ⟨stream, hstream⟩ := send.stream_of_canSend hcan
    rw [send.reserved_of_granted hcan hstream] at h
    rw [← ok.inj h]
    simp only [SendFlowControl.stream, SendFlowControl.modifyStream] at hstream ⊢
    rw [FirstMatch.find?_modifyFirst (by simp), hstream]
    rfl

theorem finishStream_of_isSome (h : (send.stream id).isSome) (fin : Bool) :
    ∃ send', (if fin then send.finishStream id else .ok send) = .ok send' := by
  obtain ⟨stream, hstream⟩ := isSome_iff_exists.mp h
  cases fin with
  | false => exact ⟨send, rfl⟩
  | true => exact ⟨_, by simp only [SendFlowControl.finishStream, hstream]; rfl⟩

theorem commitStream_of_finish {s : EndpointState P} {sendOrder : Nat} {windowLimited : Bool}
    {retain : Bool} (h : (if frame.fin then s.send.finishStream frame.id else .ok s.send) =
      .ok send) : s.commitStream pathId sendOrder windowLimited frame plan retain =
      ({ s.enterStream pathId sendOrder windowLimited frame plan retain with
          send := send : EndpointState P }.commitPiggyback pathId s.nextPacketNumber plan.control,
        .ok (plan.packet, s.nextPacketNumber)) := by
  unfold commitStream
  simp only
  rw [show (s.enterStream pathId sendOrder windowLimited frame plan retain).send = s.send from rfl,
    h]

/-- A fresh stream packet is refused before it is reserved, or has a plan that is reserved. -/
theorem encodeStreamPacketOnPathInner_plan (pathId : Nat) (dcid : ConnectionId)
    (frame : StreamFrame) (capacity : Nat) (retain : Bool) :
    let outcome := s.encodeStreamPacketOnPathInner keys pathId dcid frame capacity retain
    (outcome.1 = s ∧ ∃ e, outcome.2 = .error e) ∨
      ∃ plan, StreamSpec keys s pathId dcid frame capacity plan ∧
        outcome = s.reserveStream pathId frame plan retain := by
  cases keys with
  | none =>
    dsimp only [encodeStreamPacketOnPathInner]
    cases hplan : s.planStream pathId dcid frame capacity with
    | error e => exact .inl ⟨rfl, e, rfl⟩
    | ok plan => exact .inr ⟨plan, planStream_spec hplan, rfl⟩
  | some keys =>
    dsimp only [encodeStreamPacketOnPathInner, encodeStreamPacketProtected]
    cases hplan : s.planStreamProtected keys.1 keys.2 pathId dcid frame capacity with
    | error e => exact .inl ⟨rfl, e, rfl⟩
    | ok plan => exact .inr ⟨plan, planStreamProtected_spec hplan, rfl⟩

/-- A fresh stream packet either leaves at most its reserved credit behind, or is entered. -/
theorem encodeStreamPacketOnPathInner_cases (pathId : Nat) (dcid : ConnectionId)
    (frame : StreamFrame) (capacity : Nat) (retain : Bool) :
    let outcome := s.encodeStreamPacketOnPathInner keys pathId dcid frame capacity retain
    (∃ send, (send = s.send ∨ s.send.reserved frame.id frame.offset frame.data.length = .ok send) ∧
      Idle { s with send := send } outcome.1 ∧ ∃ e, outcome.2 = .error e) ∨
    ∃ plan path windowLimited send send', StreamSpec keys s pathId dcid frame capacity plan ∧
      s.nextPacketNumber < u32Max ∧ Charges (s.pathAt pathId) path plan.packet.bytes.length ∧
      s.send.reserved frame.id frame.offset frame.data.length = .ok send ∧
      (if frame.fin then send.finishStream frame.id else .ok send) = .ok send' ∧
      outcome = ({ (({ s with
        send := send : EndpointState P }.setPath pathId path).enterStream pathId
          (s.pathAt pathId).nextSendOrder windowLimited frame plan retain) with
          send := send' : EndpointState P }.commitPiggyback pathId s.nextPacketNumber plan.control,
        .ok (plan.packet, s.nextPacketNumber)) := by
  rcases s.encodeStreamPacketOnPathInner_plan keys pathId dcid frame capacity retain with
    ⟨hstate, e, herror⟩ | ⟨plan, hspec, heq⟩
  · exact .inl ⟨s.send, .inl rfl, by rw [hstate]; exact .refl s, e, herror⟩
  rw [heq]
  simp only [reserveStream]
  split
  · rename_i path hpaced
    refine .inl ⟨s.send, .inl rfl, idle_setPath hspec.path ?_, _, rfl⟩
    rw [← show _ = path from congrArg fst hpaced]
    exact canSendPaced_keeps _ _ _
  rename_i path₁ hpaced
  have hkeeps₁ : KeepsFlight (s.pathAt pathId) path₁ := by
    rw [← show _ = path₁ from congrArg fst hpaced]
    exact canSendPaced_keeps _ _ _
  by_cases hnumber : u32Max ≤ s.nextPacketNumber
  · rw [if_pos hnumber]
    exact .inl ⟨s.send, .inl rfl, idle_setPath hspec.path hkeeps₁, _, rfl⟩
  rw [if_neg hnumber]
  have hpace : ∀ path paced,
      path₁.tryReservePacing plan.packet.bytes.length (s.pathAt pathId).sendClock =
      (path, paced) → KeepsFlight (s.pathAt pathId) path := by
    intro path paced h
    refine hkeeps₁.trans ?_
    rw [← show _ = path from congrArg fst h]
    exact tryReservePacing_keeps _ _ _
  split
  · rename_i path hreserve
    exact .inl ⟨s.send, .inl rfl, idle_setPath hspec.path (hpace path false hreserve), _, rfl⟩
  rename_i path hreserve
  have hkeeps := hpace path true hreserve
  cases hcredit : s.send.reserved frame.id frame.offset frame.data.length with
  | error e => exact .inl ⟨s.send, .inl rfl, idle_setPath hspec.path hkeeps, e, rfl⟩
  | ok send =>
  simp only
  split
  · refine .inl ⟨send, .inr rfl, ?_, _, rfl⟩
    exact idle_setPath (s := { s with send := send }) hspec.path hkeeps
  rename_i congestion hcharge
  obtain rfl := onPacketSent_some hcharge
  rcases assignSendOrder_cases path plan.packet.bytes.length with
    ⟨hfull, hassign⟩ | ⟨p', hassign, hcharges⟩
  · rw [hassign]
    refine .inl ⟨send, .inr rfl, ?_, _, rfl⟩
    refine idle_of_exhausted (s := { s with send := send }) hspec.path hkeeps.peer hkeeps.owed ?_
    show u64Max ≤ (s.pathAt pathId).nextSendOrder
    rw [← hkeeps.order]
    exact hfull
  rw [hassign]
  obtain ⟨send', hsend'⟩ := finishStream_of_isSome (reserved_stream hcredit) frame.fin
  refine .inr ⟨plan, p', path.congestion.windowLimited plan.packet.bytes.length, send, send', hspec,
    by omega, hcharges.after_keeps hkeeps, rfl, hsend', ?_⟩
  rw [← hkeeps.order]
  exact commitStream_of_finish hsend'

/-! ## Path control -/

/-- What `planPathControl` has checked when it yields a plan. -/
structure PathControlSpec (keys : Keys) (s : EndpointState P) (pathId : Nat)
    (destination : ConnectionId) (frame : Frame) (capacity : Nat) (ptoProbe : Bool)
    (plan : PathControlPlan) : Prop where
  path : pathId < s.paths.length
  number : s.nextPacketNumber < u32Max
  control : isPathControl frame
  packet : Written keys s pathId ⟨flagFixed, destination, s.nextPacketNumber, 4⟩ capacity
    plan.packet
  frames : ∃ n, plan.packet.frames = frame :: replicate n .padding
  untracked : plan.slot = none → tracksFlight frame = false
  slot : ∀ slot ∈ plan.slot, s.freeTransmissionSlot = some slot ∧
    (ptoProbe = false → (s.pathAt pathId).congestion.canSend plan.packet.bytes.length)

theorem padChallenge_frames (pkt : Packet) (frame : Frame) (target : Nat) :
    ∃ n, (padChallenge pkt frame target).frames = pkt.frames ++ replicate n .padding := by
  unfold padChallenge
  split
  · exact ⟨_, rfl⟩
  · exact ⟨0, by simp⟩

theorem planPathControl_spec {s : EndpointState P} {keys : Keys} {destination : ConnectionId}
    {frame : Frame} {ptoProbe : Bool} {plan : PathControlPlan}
    (h : s.planPathControl keys pathId destination frame capacity ptoProbe = .ok plan) :
    PathControlSpec keys s pathId destination frame capacity ptoProbe plan := by
  obtain ⟨hvalid, h⟩ := guard_passed h
  simp only [not_or] at hvalid
  simp only [bind_eq_ok] at h
  obtain ⟨pkt, hstart, pkt', hpush, sealed, hprotect, h⟩ := h
  obtain ⟨hpushed, hframe⟩ := (start hstart).push hpush
  have hformed := hpushed.padChallenge frame
    (min_le_right (s.pathAt pathId).congestion.maxPacketSize capacity)
  obtain ⟨n, hframes⟩ := padChallenge_frames pkt' frame
    (min (s.pathAt pathId).congestion.maxPacketSize capacity)
  rw [← protect_frames hprotect, hframe, (start_ok hstart).1] at hframes
  have hwritten : Written keys s pathId _ capacity sealed := .of_protect hformed hprotect
  obtain ⟨hnumber, h⟩ := guard_passed h
  have hcontrol : isPathControl frame := by simpa using hvalid.2.2
  split at h
  · rename_i huntracked
    cases ok.inj h
    exact ⟨by omega, by omega, hcontrol, hwritten, ⟨n, hframes⟩, fun _ => by simpa using huntracked,
      by simp⟩
  obtain ⟨-, h⟩ := guard_passed h
  split at h
  · cases h
  rename_i slot hslot
  obtain ⟨hroom, h⟩ := guard_passed h
  cases ok.inj h
  refine ⟨by omega, by omega, hcontrol, hwritten, ⟨n, hframes⟩, by simp, ?_⟩
  intro free hfree
  rw [← mem_some.mp hfree]
  exact ⟨hslot, fun hpto => by simpa [hpto] using hroom⟩

/-- A path control packet is refused without a trace, passed by the ledger, or entered into it. -/
theorem encodePathControlPacketInner_cases (pathId : Nat) (destination : ConnectionId)
    (frame : Frame) (capacity : Nat) (ptoProbe : Bool) :
    let outcome := s.encodePathControlPacketInner keys pathId destination frame capacity ptoProbe
    (outcome.1 = s ∧ ∃ e, outcome.2 = .error e) ∨
    ∃ plan, PathControlSpec keys s pathId destination frame capacity ptoProbe plan ∧
      outcome.2 = .ok plan.packet ∧
      (tracksFlight frame = false ∧ outcome.1 = s.passPathControl pathId frame plan.packet ∨
        ∃ slot path windowLimited, s.freeTransmissionSlot = some slot ∧
          Charges (s.pathAt pathId) path plan.packet.bytes.length ∧
          outcome.1 = (s.setPath pathId path).enterPathControl pathId
            (s.pathAt pathId).nextSendOrder windowLimited frame plan.packet slot) := by
  unfold encodePathControlPacketInner
  cases hplan : s.planPathControl keys pathId destination frame capacity ptoProbe with
  | error e => exact .inl ⟨rfl, e, rfl⟩
  | ok plan =>
  have hspec := planPathControl_spec hplan
  obtain ⟨pkt, slot?⟩ := plan
  cases slot? with
  | none => exact .inr ⟨_, hspec, rfl, .inl ⟨hspec.untracked rfl, rfl⟩⟩
  | some slot =>
  obtain ⟨hfree, hroom⟩ := hspec.slot slot rfl
  simp only
  by_cases horder : u64Max ≤ (s.pathAt pathId).nextSendOrder
  · rw [assignSendOrder, if_pos horder]
    exact .inl ⟨rfl, _, rfl⟩
  rw [assignSendOrder, if_neg horder]
  -- The window was checked in the plan, so the charge succeeds.
  have hcharge : (if ptoProbe then
      some ((s.pathAt pathId).congestion.onRetransmissionSent pkt.bytes.length)
      else (s.pathAt pathId).congestion.onPacketSent pkt.bytes.length) =
      some ((s.pathAt pathId).congestion.onRetransmissionSent pkt.bytes.length) := by
    cases ptoProbe with
    | true => rfl
    | false =>
      simp only [onPacketSent]
      rw [if_neg (by simp), if_pos (hroom rfl)]
  simp only [hcharge]
  refine .inr ⟨_, hspec, rfl, .inr ⟨slot, _, _, hfree, ?_, rfl⟩⟩
  exact ⟨rfl, rfl, by omega, rfl, rfl⟩

/-! ## Datagrams -/

/-- What `datagramSendLayout` has checked when it yields a packet. -/
structure DatagramSpec (protection : Option EndpointProtection) (s : EndpointState P)
    (pathId mtu : Nat) (data : Bytes) (pkt : Packet) : Prop where
  path : pathId < s.paths.length
  number : s.nextPacketNumber < u32Max
  packet : ∃ peerCid, s.peerConnectionIdOnPath pathId = some peerCid ∧
    Formed ⟨flagFixed, peerCid, s.nextPacketNumber, s.nextPacketNumberLen⟩ mtu pkt
  frames : pkt.frames = [.datagram data false]
  room : (s.pathAt pathId).congestion.canSend (pkt.bytes.length + datagramTagLen protection)
  order : (s.pathAt pathId).nextSendOrder < u64Max

theorem wired_datagram (data : Bytes) : Wired [.datagram data false] (0x30 :: data) := by
  refine ⟨by simp [Frame.wire]; rfl, ?_⟩
  intro f hf
  rw [mem_singleton.mp hf]
  refine ⟨?_, trivial⟩
  rintro v hv
  rw [show v = 0x30 by simpa [Frame.values] using hv]
  decide

theorem datagramSendLayout_spec {s : EndpointState P} {start : Nat} {data : Bytes}
    {storage : DatagramStorage} {priority : DatagramPriority}
    {protection : Option EndpointProtection}
    (h : s.datagramSendLayout protection pathId start data storage priority = .ok pkt) :
    DatagramSpec protection s pathId storage.mtu data pkt := by
  obtain ⟨-, h⟩ := guard_passed h
  obtain ⟨hpath, h⟩ := guard_passed h
  obtain ⟨-, h⟩ := guard_passed h
  obtain ⟨-, h⟩ := guard_passed h
  split at h
  · cases h
  rename_i dcid hpeer
  obtain ⟨started, hstart, h⟩ := bind_eq_ok.mp h
  obtain ⟨-, h⟩ := guard_passed h
  obtain ⟨hsize, h⟩ := guard_passed h
  obtain ⟨-, h⟩ := guard_passed h
  obtain ⟨-, h⟩ := guard_passed h
  obtain ⟨hnumber, h⟩ := guard_passed h
  obtain ⟨hflight, h⟩ := guard_passed h
  obtain ⟨-, h⟩ := guard_passed h
  obtain ⟨horder, h⟩ := guard_passed h
  cases ok.inj h
  obtain ⟨rfl, -⟩ := start_ok hstart
  rw [not_or, not_lt] at hsize
  rw [not_or] at hflight
  exact ⟨by omega, by omega, ⟨dcid, hpeer, rfl, ⟨_, rfl, wired_datagram data⟩, by omega⟩,
    rfl, by simpa using hflight.2, by omega⟩

/-- As long as a number is left, the counter does not go around. -/
theorem enterDatagram_number {s : EndpointState P} (hnumber : s.nextPacketNumber < u32Max)
    (pathId sendOrder bytes : Nat) (windowLimited : Bool) (slot : Nat) :
    (s.enterDatagram pathId sendOrder bytes windowLimited slot).nextPacketNumber =
      s.nextPacketNumber + 1 :=
  mod_eq_of_lt (succ_lt_succ hnumber)

theorem recordSent_peer (s : EndpointState P) (slot : Nat) (sent : SentPacket) (pathId : Nat) :
    (s.recordSent slot sent).peerConnectionIdOnPath pathId = s.peerConnectionIdOnPath pathId := by
  simp only [peerConnectionIdOnPath, recordSent, getElem?_modify]
  cases s.paths[pathId]? with
  | none => rfl
  | some path =>
    split
    · rfl
    · rfl

theorem enterDatagram_peer (s : EndpointState P) (pathId sendOrder bytes : Nat)
    (windowLimited : Bool) (slot id : Nat) :
    (s.enterDatagram pathId sendOrder bytes windowLimited slot).peerConnectionIdOnPath id =
      s.peerConnectionIdOnPath id :=
  recordSent_peer { s with nextPacketNumber := (s.nextPacketNumber + 1) % (u32Max + 1) } slot _ id

/-- After its layout a datagram changes nothing but pacing, or is entered. -/
theorem commitDatagramTransmission_cases {s : EndpointState P}
    {protection : Option EndpointProtection} {mtu : Nat} {data : Bytes}
    (h : DatagramSpec protection s pathId mtu data pkt) :
    let size := pkt.bytes.length + datagramTagLen protection
    let outcome := s.commitDatagramTransmission pathId size
    (Idle s outcome.1 ∧ ∃ e, outcome.2 = .error e) ∨
    ∃ slot path windowLimited, s.freeTransmissionSlot = some slot ∧
      Charges (s.pathAt pathId) path size ∧
      outcome = ((s.setPath pathId path).enterDatagram pathId (s.pathAt pathId).nextSendOrder size
        windowLimited slot, .ok ()) := by
  have hroom := h.room
  generalize pkt.bytes.length + datagramTagLen protection = size at hroom
  simp only [commitDatagramTransmission]
  cases hfree : s.freeTransmissionSlot with
  | none => exact .inl ⟨.refl s, _, rfl⟩
  | some slot =>
  have hkeeps := tryReservePacing_keeps (s.pathAt pathId) size (s.pathAt pathId).sendClock
  have hcongestion := tryReservePacing_congestion (s.pathAt pathId) size (s.pathAt pathId).sendClock
  generalize (s.pathAt pathId).tryReservePacing size (s.pathAt pathId).sendClock = reserved at *
  obtain ⟨path, paced⟩ := reserved
  cases paced with
  | false => exact .inl ⟨idle_setPath h.path hkeeps, _, rfl⟩
  | true =>
  -- Window and order were checked in the layout.
  have horder : ¬u64Max ≤ path.nextSendOrder := by
    rw [hkeeps.order]
    exact not_le.mpr h.order
  have hcharge : path.congestion.onPacketSent size =
      some (path.congestion.onRetransmissionSent size) := by
    rw [onPacketSent, hcongestion, if_pos hroom]
  simp only [assignSendOrder, if_neg horder, hcharge]
  refine .inr ⟨slot, _, _, rfl, ?_, by rw [← hkeeps.order]⟩
  exact .after_keeps hkeeps ⟨rfl, rfl, not_le.mp horder, rfl, rfl⟩

/-- A datagram either changes nothing but pacing, or is entered and sealed. -/
theorem sendDatagram_cases (pathId start : Nat) (data : Bytes) (storage : DatagramStorage)
    (priority : DatagramPriority) :
    let outcome := s.sendDatagram keys pathId start data storage priority
    let protection := keys.map (·.2)
    (Idle s outcome.1 ∧ ∃ e, outcome.2 = .error e) ∨
    ∃ pkt slot path windowLimited room, DatagramSpec protection s pathId storage.mtu data pkt ∧
      s.freeTransmissionSlot = some slot ∧
      Charges (s.pathAt pathId) path (pkt.bytes.length + datagramTagLen protection) ∧
      outcome.1 = (s.setPath pathId path).enterDatagram pathId (s.pathAt pathId).nextSendOrder
        (pkt.bytes.length + datagramTagLen protection) windowLimited slot ∧
      outcome.2 = outcome.1.protect keys pathId pkt room := by
  unfold sendDatagram
  simp only
  cases hlayout : s.datagramSendLayout (keys.map (·.2)) pathId start data storage priority with
  | error e => exact .inl ⟨.refl s, e, rfl⟩
  | ok pkt =>
  have hspec := datagramSendLayout_spec hlayout
  simp only
  rcases commitDatagramTransmission_cases hspec with ⟨hidle, e, herror⟩ |
    ⟨slot, path, windowLimited, hfree, hcharges, heq⟩
  · split
    · rename_i heq
      rw [heq] at hidle
      exact .inl ⟨hidle, _, rfl⟩
    · rename_i heq
      rw [heq] at herror
      cases herror
  · rw [heq]
    exact .inr ⟨pkt, slot, path, windowLimited, _, hspec, hfree, hcharges, rfl, rfl⟩

/-! ## Copies of a credit publication -/

/-- What `planCreditCopy` has checked when it yields a plan. -/
structure CreditCopySpec (keys : Keys) (s : EndpointState P) (sourcePacketNumber pathId : Nat)
    (includeAck includeMaxData : Bool) (streamCreditCount : Nat) (includeMaxStreamsBidi : Bool)
    (capacity : Nat) (pkt : Packet) (slot : Nat) :
    Prop where
  path : pathId < s.paths.length
  number : s.nextPacketNumber < u32Max
  source : s.creditPacketNumber = some sourcePacketNumber
  packet : ∃ peerCid, s.peerConnectionIdOnPath pathId = some peerCid ∧
    Written keys s pathId ⟨flagFixed, peerCid, s.nextPacketNumber, s.nextPacketNumberLen⟩ capacity
      pkt
  frames : pkt.frames = s.creditCopyFrames includeAck includeMaxData streamCreditCount
    includeMaxStreamsBidi
    (s.largestReceived.getD 0)
  slot : s.freeTransmissionSlot = some slot

theorem planCreditCopy_spec {s : EndpointState P} {keys : Keys} {sourcePacketNumber : Nat}
    {includeAck includeMaxData : Bool} {streamCreditCount : Nat} {includeMaxStreamsBidi : Bool}
    {slot : Nat} (h : s.planCreditCopy keys sourcePacketNumber pathId includeAck includeMaxData
      streamCreditCount includeMaxStreamsBidi capacity = .ok (some (pkt, slot))) :
    CreditCopySpec keys s sourcePacketNumber pathId includeAck includeMaxData streamCreditCount
      includeMaxStreamsBidi capacity pkt slot := by
  obtain ⟨hvalid, h⟩ := guard_passed h
  simp only [not_or, not_not] at hvalid
  split at h
  · cases h
  · cases h
  rename_i peerCid free hpeer hfree
  obtain ⟨hnumber, h⟩ := guard_passed h
  obtain ⟨started, hstart, h⟩ := bind_eq_ok.mp h
  obtain ⟨-, h⟩ := guard_passed h
  obtain ⟨pushed, hpush, h⟩ := bind_eq_ok.mp h
  obtain ⟨sealed, hprotect, h⟩ := bind_eq_ok.mp h
  cases ok.inj h
  obtain ⟨hformed, hframes⟩ := (start hstart).pushAll hpush
  rw [← protect_frames hprotect, (start_ok hstart).1] at hframes
  exact ⟨by omega, by omega, hvalid.2.2.1, ⟨peerCid, hpeer, .of_protect hformed hprotect⟩,
    by simpa using hframes, hfree⟩

/-- A copy of the publication either changes nothing but pacing, or is entered. -/
theorem duplicateCreditControlOnPath_cases (sourcePacketNumber pathId : Nat)
    (includeAck includeMaxData : Bool) (streamCreditCount : Nat) (includeMaxStreamsBidi : Bool)
    (capacity : Nat) :
    let outcome := s.duplicateCreditControlOnPath keys sourcePacketNumber pathId includeAck
      includeMaxData streamCreditCount includeMaxStreamsBidi capacity
    (Idle s outcome.1 ∧ ∀ sent, outcome.2 ≠ .ok (some sent)) ∨
    ∃ pkt slot path windowLimited,
      CreditCopySpec keys s sourcePacketNumber pathId includeAck includeMaxData
        streamCreditCount includeMaxStreamsBidi capacity pkt slot ∧
      Charges (s.pathAt pathId) path pkt.bytes.length ∧
        pkt.bytes.length ≤ s.duplicationBudgetAvailable ∧
      outcome = ((s.setPath pathId path).enterCreditCopy sourcePacketNumber pathId
        (s.pathAt pathId).nextSendOrder windowLimited includeAck pkt slot,
          .ok (some (pkt, s.nextPacketNumber))) := by
  unfold duplicateCreditControlOnPath
  cases hplan : s.planCreditCopy keys sourcePacketNumber pathId includeAck includeMaxData
    streamCreditCount includeMaxStreamsBidi capacity with
  | error e => exact .inl ⟨.refl s, by simp⟩
  | ok plan? =>
  cases plan? with
  | none => exact .inl ⟨.refl s, by simp⟩
  | some plan =>
  obtain ⟨pkt, slot⟩ := plan
  have hspec := planCreditCopy_spec hplan
  simp only
  split
  · exact .inl ⟨.refl s, by simp⟩
  rename_i hrefused
  have hbudget : pkt.bytes.length ≤ s.duplicationBudgetAvailable :=
    not_lt.mp fun hlt => hrefused (.inl hlt)
  have hpace : ∀ path paced,
      (s.pathAt pathId).tryReservePacing pkt.bytes.length (s.pathAt pathId).sendClock =
      (path, paced) → KeepsFlight (s.pathAt pathId) path := by
    intro path paced h
    rw [← show _ = path from congrArg fst h]
    exact tryReservePacing_keeps _ _ _
  split
  · rename_i path hreserve
    exact .inl ⟨idle_setPath hspec.path (hpace path false hreserve), by simp⟩
  rename_i path hreserve
  have hkeeps := hpace path true hreserve
  split
  · exact .inl ⟨idle_setPath hspec.path hkeeps, by simp⟩
  rename_i congestion hcharge
  obtain rfl := onPacketSent_some hcharge
  rcases assignSendOrder_cases path pkt.bytes.length with ⟨hfull, hassign⟩ | ⟨p', hassign, hcharges⟩
  · rw [hassign]
    refine .inl ⟨idle_of_exhausted hspec.path hkeeps.peer hkeeps.owed ?_, by simp⟩
    rw [← hkeeps.order]
    exact hfull
  · rw [hassign]
    exact .inr ⟨pkt, slot, p', _, hspec, hcharges.after_keeps hkeeps, hbudget, by rw [hkeeps.order]⟩

/-! ## Packets outside the ledger -/

theorem controlBodyEnd_le (keys : Keys) (capacity : Nat) :
    controlBodyEnd keys capacity ≤ capacity := by
  unfold controlBodyEnd
  split <;> omega

theorem packet_eq_none {result : Except Error (Option Packet)}
    (h : ∀ pkt, result ≠ .ok (some pkt)) : (⟨s, result⟩ : Outcome P).packet = none := by
  unfold Outcome.packet
  split
  · rename_i found heq
    cases found with
    | none => rfl
    | some pkt => exact absurd heq (h pkt)
  · rfl

/-- A packet with control frames only. -/
theorem pollTransmitOnPath_cases (pathId capacity : Nat) :
    let outcome := s.pollTransmitOnPath keys pathId capacity
    (outcome.1 = s ∧ ∀ pkt, outcome.2 ≠ .ok (some pkt)) ∨
    ∃ pkt control room peerCid, s.nextPacketNumber < u32Max ∧ s.peerConnectionIdOnPath pathId =
      some peerCid ∧
      Written keys s pathId ⟨flagFixed, peerCid, s.nextPacketNumber, s.nextPacketNumberLen⟩ capacity
        pkt ∧
      pkt.frames = control.frames ∧ ControlSpec s room control ∧
      outcome = ({ s.commitControlFrames pathId s.nextPacketNumber control with
        nextPacketNumber := (s.commitControlFrames pathId s.nextPacketNumber
          control).nextPacketNumber + 1 },
        .ok (some pkt)) := by
  unfold pollTransmitOnPath
  cases hplan : s.planTransmit keys pathId capacity with
  | error e => exact .inl ⟨rfl, by simp⟩
  | ok plan? =>
  cases plan? with
  | none => exact .inl ⟨rfl, by simp⟩
  | some plan =>
  obtain ⟨pkt, control⟩ := plan
  right
  obtain ⟨-, hplan⟩ := guard_passed hplan
  obtain ⟨-, hplan⟩ := guard_passed hplan
  split at hplan
  · cases hplan
  rename_i dcid hdcid
  simp only [bind_eq_ok] at hplan
  obtain ⟨started, hstart, hplan⟩ := hplan
  obtain ⟨-, hplan⟩ := guard_passed hplan
  obtain ⟨control?, hcontrol, hplan⟩ := bind_eq_ok.mp hplan
  cases control? with
  | none => cases hplan
  | some control' =>
  obtain ⟨hnumber, hplan⟩ := guard_passed hplan
  obtain ⟨sealed, hprotect, hplan⟩ := bind_eq_ok.mp hplan
  cases ok.inj hplan
  have hspec := encodeControlFramesOnPath_spec hcontrol
  have hformed := (start hstart).extend hspec.wired
    (hspec.fits.trans (Nat.sub_le_sub_right (controlBodyEnd_le keys capacity) _))
  have hframes := protect_frames hprotect
  rw [(start_ok hstart).1] at hformed hprotect
  exact ⟨_, control, _, dcid, by omega, hdcid, .of_protect hformed hprotect, hframes, hspec, rfl⟩

theorem pollClose_cases (capacity : Nat) :
    let outcome := s.pollClose keys capacity
    (outcome.1 = s ∧ ∀ pkt, outcome.2 ≠ .ok (some pkt)) ∨
    ∃ pkt peerCid code, s.nextPacketNumber < u32Max ∧ s.peerConnectionIdOnPath 0 = some peerCid ∧
      Written keys s 0 ⟨flagFixed, peerCid, s.nextPacketNumber, s.nextPacketNumberLen⟩
        capacity pkt ∧
      pkt.frames = [.close code] ∧
      outcome = ({ s with nextPacketNumber := s.nextPacketNumber + 1 }, .ok (some pkt)) := by
  unfold pollClose
  split
  · exact .inl ⟨rfl, by simp⟩
  rename_i code _
  split
  · exact .inl ⟨rfl, by simp⟩
  rename_i dcid hdcid
  split
  · exact .inl ⟨rfl, by simp⟩
  rename_i pkt hpkt
  by_cases hnumber : u32Max ≤ s.nextPacketNumber
  · rw [if_pos hnumber]
    exact .inl ⟨rfl, by simp⟩
  rw [if_neg hnumber]
  obtain ⟨started, hstart, hpkt⟩ := bind_eq_ok.mp hpkt
  obtain ⟨pushed, hpush, hprotect⟩ := bind_eq_ok.mp hpkt
  obtain ⟨hformed, hframes⟩ := (start hstart).push hpush
  rw [← protect_frames hprotect, (start_ok hstart).1] at hframes
  exact .inr ⟨pkt, dcid, code, by omega, hdcid, .of_protect hformed hprotect, hframes, rfl⟩

theorem encodeProbePacket_cases (dcid : ConnectionId) (capacity : Nat) :
    let outcome := s.encodeProbePacket keys dcid capacity
    (outcome.1 = s ∧ ∃ e, outcome.2 = .error e) ∨
    ∃ pkt, s.nextPacketNumber < u32Max ∧
      Written keys s 0 ⟨flagFixed, dcid, s.nextPacketNumber,
        packetNumberLen s.nextPacketNumber s.largestReceived⟩ capacity pkt ∧
      pkt.frames = [.ping] ∧
      outcome = ({ s with nextPacketNumber := s.nextPacketNumber + 1 }, .ok pkt) := by
  unfold encodeProbePacket
  simp only
  split
  · exact .inl ⟨rfl, _, rfl⟩
  split
  · exact .inl ⟨rfl, _, rfl⟩
  rename_i pkt hpkt
  by_cases hnumber : u32Max ≤ s.nextPacketNumber
  · rw [if_pos hnumber]
    exact .inl ⟨rfl, _, rfl⟩
  rw [if_neg hnumber]
  obtain ⟨started, hstart, hpkt⟩ := bind_eq_ok.mp hpkt
  obtain ⟨pushed, hpush, hprotect⟩ := bind_eq_ok.mp hpkt
  obtain ⟨hformed, hframes⟩ := (start hstart).push hpush
  rw [← protect_frames hprotect, (start_ok hstart).1] at hframes
  exact .inr ⟨pkt, by omega, .of_protect hformed hprotect, hframes, rfl⟩

/-! ## Recovery -/

/-- What any repair or probe amounts to: pacing only, one repair of a packet among `target`, or one
Ping, with pacing around it. -/
inductive Recovers (keys : Keys) (s : EndpointState P) (target : Nat → Prop) (capacity : Nat) :
    EndpointState P → Option Packet → Prop
  | idle {s' : EndpointState P} (h : Idle s s') : Recovers keys s target capacity s' none
  | repair {s₁ s' : EndpointState P} {packetNumber pathId : Nat} {plan : RepairPlan}
      {path : PathState} {windowLimited budgeted : Bool} (among : target packetNumber)
      (before : Idle s s₁) (spec : RepairSpec keys s₁ packetNumber pathId capacity plan)
      (charges : Charges (s₁.pathAt pathId) path plan.packet.bytes.length)
      (backed : budgeted → plan.packet.bytes.length ≤ s₁.duplicationBudgetAvailable)
      (after : Idle ((s₁.setPath pathId path).commitRepair pathId (s₁.pathAt pathId).nextSendOrder
        windowLimited budgeted plan) s') : Recovers keys s target capacity s' (some plan.packet)
  | probe {s₁ s' : EndpointState P} {pathId slot : Nat} {destination : ConnectionId}
      {plan : PathControlPlan} {path : PathState} {windowLimited : Bool} (before : Idle s s₁)
      (peer : s₁.peerConnectionIdOnPath pathId = some destination)
      (spec : PathControlSpec keys s₁ pathId destination .ping capacity true plan)
      (free : s₁.freeTransmissionSlot = some slot)
      (charges : Charges (s₁.pathAt pathId) path plan.packet.bytes.length)
      (after : Idle ((s₁.setPath pathId path).enterPathControl pathId
        (s₁.pathAt pathId).nextSendOrder windowLimited
        .ping plan.packet slot) s') : Recovers keys s target capacity s' (some plan.packet)

/-- The packet of a result. -/
def sentPacket : Except Error (Option (Packet × Nat)) → Option Packet
  | .ok (some sent) => some sent.1
  | _ => none

theorem sentPacket_eq_none {result : Except Error (Option (Packet × Nat))}
    (h : ∀ sent, result ≠ .ok (some sent)) :
    sentPacket result = none := by
  unfold sentPacket
  split
  · exact absurd rfl (h _)
  · rfl

namespace Recovers

variable {s s₁ s' : EndpointState P} {target : Nat → Prop} {capacity : Nat} {pkt : Option Packet}
  {keys : Keys}

theorem after_idle (h : Idle s s₁) (hrest : Recovers keys s₁ target capacity s' pkt) :
    Recovers keys s target capacity s' pkt := by
  cases hrest with
  | idle h' => exact .idle (h.trans h')
  | repair among before spec charges backed after =>
    exact .repair among (h.trans before) spec charges backed after
  | probe before peer spec free charges after =>
    exact .probe (h.trans before) peer spec free charges after

theorem before_idle (h : Recovers keys s target capacity s₁ pkt) (hrest : Idle s₁ s') :
    Recovers keys s target capacity s' pkt := by
  cases h with
  | idle h' => exact .idle (h'.trans hrest)
  | repair among before spec charges backed after =>
    exact .repair among before spec charges backed (after.trans hrest)
  | probe before peer spec free charges after =>
    exact .probe before peer spec free charges (after.trans hrest)

theorem mono {target' : Nat → Prop} (h : Recovers keys s target capacity s' pkt)
    (hle : ∀ n, target n → target' n) :
    Recovers keys s target' capacity s' pkt := by
  cases h with
  | idle h' => exact .idle h'
  | repair among before spec charges backed after =>
    exact .repair (hle _ among) before spec charges backed after
  | probe before peer spec free charges after => exact .probe before peer spec free charges after

end Recovers

theorem idle_notePtoProbe (pathId now : Nat) : Idle s (s.notePtoProbe pathId now) := by
  by_cases hpath : pathId < s.paths.length
  · have heq : s.notePtoProbe pathId now = s.setPath pathId { s.pathAt pathId with
        lastPtoProbeAt := some now
        ptoBackoff := min ((s.pathAt pathId).ptoBackoff + 1) maxPtoBackoffExponent } := by
      simp only [notePtoProbe, modifyPath, modify_eq_set_getElem?, paths_getElem?_of_lt hpath]
      rfl
    rw [heq]
    exact idle_setPath hpath ⟨rfl, rfl, rfl, rfl⟩
  have heq : s.notePtoProbe pathId now = s := by
    simp only [notePtoProbe, modifyPath]
    rw [modify_eq_self (by omega)]
  rw [heq]
  exact .refl s

theorem retransmitStreamPacketWithProbe_recovers (pathId capacity : Nat) (forced budgeted : Bool) :
    Recovers keys s (· = packetNumber) capacity
      (s.retransmitStreamPacketWithProbe keys packetNumber pathId capacity forced budgeted).1
      (sentPacket (s.retransmitStreamPacketWithProbe keys packetNumber pathId capacity forced
        budgeted).2) := by
  rcases s.retransmitStreamPacketWithProbe_cases keys packetNumber pathId capacity forced
    budgeted with
    ⟨hidle, hnone⟩ | ⟨plan, path, windowLimited, hspec, hcharges, hbacked, heq⟩
  · rw [sentPacket_eq_none hnone]
    exact .idle hidle
  · rw [heq]
    exact .repair rfl (.refl s) hspec hcharges hbacked (.refl _)

theorem retransmitStreamPacket_recovers (capacity : Nat) : Recovers keys s (· = packetNumber)
      capacity (s.retransmitStreamPacket keys packetNumber capacity).1
      (sentPacket (s.retransmitStreamPacket keys packetNumber capacity).2) := by
  unfold retransmitStreamPacket
  split
  · exact .idle (.refl s)
  · exact s.retransmitStreamPacketWithProbe_recovers keys _ _ _ _ _

theorem retransmitOnFirst_recovers (capacity : Nat) (paths : List Nat) (s : EndpointState P) :
    Recovers keys s (· = packetNumber)
      capacity (retransmitOnFirst keys packetNumber capacity paths s).1
      (sentPacket (retransmitOnFirst keys packetNumber capacity paths s).2) := by
  induction paths generalizing s with
  | nil => exact .idle (.refl s)
  | cons pathId paths ih =>
    have hfirst := s.retransmitStreamPacketWithProbe_recovers keys packetNumber pathId capacity
      false false
    rw [retransmitOnFirst]
    split
    · rename_i s₁ hnone
      rw [hnone] at hfirst
      cases hfirst with
      | idle h => exact (ih s₁).after_idle h
    · exact hfirst

/-- The packet whose loss is repaired next. -/
def RepairsLoss (s : EndpointState P) (packetNumber : Nat) : Prop :=
  ∃ packet ∈ s.markedLossCandidate, packet.packetNumber = packetNumber

/-- A packet that is not declared lost. -/
def Outstanding (s : EndpointState P) (packetNumber : Nat) : Prop :=
  ∃ packet ∈ s.records, packet.packetNumber = packetNumber ∧ packet.lost = false

theorem retransmitMarkedLoss_recovers (capacity : Nat) :
    Recovers keys s s.RepairsLoss capacity (s.retransmitMarkedLoss keys capacity).1
      (sentPacket (s.retransmitMarkedLoss keys capacity).2) := by
  unfold retransmitMarkedLoss
  split
  · exact .idle (.refl s)
  rename_i packet hpacket
  refine (retransmitOnFirst_recovers keys _ _ _ s).mono ?_
  rintro n rfl
  exact ⟨packet, hpacket, rfl⟩

theorem probeDeliveredFlight_recovers (target : Nat → Prop) (now capacity : Nat) :
    Recovers keys s target capacity (s.probeDeliveredFlight keys now capacity).1
      (sentPacket (s.probeDeliveredFlight keys now capacity).2) := by
  unfold probeDeliveredFlight
  split
  · exact .idle (.refl s)
  rename_i pathId _
  split
  · exact .idle (.refl s)
  rename_i destination hpeer
  rcases s.encodePathControlPacketInner_cases keys pathId destination .ping capacity true with
    ⟨hstate, e, herror⟩ | ⟨plan, hspec, hok,
      ⟨htracks, -⟩ | ⟨slot, path, windowLimited, hfree, hcharges, hstate⟩⟩
  · rw [← mk.eta (p := s.encodePathControlPacketInner keys pathId destination .ping capacity
      true), hstate, herror]
    exact .idle (.refl s)
  · cases htracks
  · rw [← mk.eta (p := s.encodePathControlPacketInner keys pathId destination .ping capacity
      true), hstate, hok]
    exact .probe (.refl s) hpeer hspec hfree hcharges (idle_notePtoProbe _ pathId now)

theorem minByKey_mem {key : α → Nat} {l : List α} {a : α} (h : minByKey key l = some a) :
    a ∈ l := by
  cases l with
  | nil => cases h
  | cons b l =>
  have hfold : ∀ (l : List α) (best : α),
      l.foldl (fun best b => if key b < key best then b else best) best ∈ best :: l := by
    intro l
    induction l with
    | nil => exact fun best => mem_cons_self
    | cons c l ih =>
      intro best
      grind
  rw [← some.inj h]
  exact hfold l b

/-- The packet that a probe sends again. -/
def Probes (s : EndpointState P) (now packetNumber : Nat) : Prop :=
  ∃ packet ∈ s.ptoCandidate now, packet.packetNumber = packetNumber

theorem Probes.outstanding {s : EndpointState P} {now packetNumber : Nat}
    (h : s.Probes now packetNumber) :
    s.Outstanding packetNumber := by
  obtain ⟨packet, hpacket, hnumber⟩ := h
  obtain ⟨hmem, hcandidate⟩ := mem_filter.mp (minByKey_mem hpacket)
  simp only [Bool.and_eq_true, Bool.not_eq_true'] at hcandidate
  exact ⟨packet, hmem, hnumber, hcandidate.1.1.1.1.1⟩

theorem retransmitPtoProbe_recovers (now capacity : Nat) :
    Recovers keys s (s.Probes now) capacity (s.retransmitPtoProbe keys now capacity).1
      (sentPacket (s.retransmitPtoProbe keys now capacity).2) := by
  unfold retransmitPtoProbe
  split
  · exact s.probeDeliveredFlight_recovers keys _ now capacity
  rename_i packet hpacket
  have hprobes : ∀ n, n = packet.packetNumber → s.Probes now n := by
    rintro n rfl
    exact ⟨packet, hpacket, rfl⟩
  have hrepair := (s.retransmitStreamPacketWithProbe_recovers keys packet.packetNumber
    (s.probeEgress (((s.findSent packet.packetNumber).map (·.2.pathId)).getD 0)) capacity true
      false).mono
    hprobes
  simp only
  split
  · rename_i s₁ sent hsent
    rw [hsent] at hrepair
    exact hrepair.before_idle (idle_notePtoProbe s₁ _ now)
  · exact hrepair

/-- Once losses are detected, repairing or probing is a recovery like the others. -/
theorem retransmitDue_recovers (now capacity : Nat) : Recovers keys (s.setTime now).detectDueLosses
      (fun n => (s.setTime now).detectDueLosses.RepairsLoss n ∨
        (s.setTime now).detectDueLosses.Outstanding n)
          capacity (s.retransmitDue keys now capacity).1
      (sentPacket (s.retransmitDue keys now capacity).2) := by
  unfold retransmitDue
  have hmarked := (s.setTime now).detectDueLosses.retransmitMarkedLoss_recovers keys capacity
  simp only
  split
  · rename_i s₁ hnone
    rw [hnone] at hmarked
    cases hmarked with
    | idle h =>
      refine ((s₁.retransmitPtoProbe_recovers keys now capacity).mono ?_).after_idle h
      intro n hprobes
      have hn := hprobes.outstanding
      unfold Outstanding records at hn
      rw [show s₁.sentPackets = _ from h.slots] at hn
      exact .inr hn
  · exact hmarked.mono fun n => .inl

theorem commitControlFrames_number (pathId packetNumber : Nat) (control : EncodedControlFrames) :
    (s.commitControlFrames pathId packetNumber control).nextPacketNumber = s.nextPacketNumber := by
  simp only [commitControlFrames]
  split_ifs <;> rfl

end EndpointState

end QuicLite
