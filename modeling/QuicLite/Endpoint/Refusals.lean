import QuicLite.Endpoint.Orders

/-!
# Refused writes

A stream packet is refused by one of many checks, or committed: credit is reserved, its range
retained, its number used up. What the application can be held to afterwards is in `Commitments`. A
refusal leaves them as they are and, of everything else, touches the pacing of its path only; so the
paths tried after it meet the same checks (`streamRefusal`) as if they had been tried first.
-/

namespace QuicLite

open List Option Bool

variable {path : PathState}

namespace PathState

/-- Everything about a path but its pacing. -/
def unpaced (path : PathState) : PathState :=
  { path with
    pacingByteTokensQ16 := 0
    pacingPacketTokensQ16 := 0
    pacingLastRefillUs := 0
    pacingDeadlineUs := none }

theorem Repaced.unpaced {path' : PathState} (h : Repaced path path') :
    path'.unpaced = path.unpaced := by
  obtain ⟨_, _, _, _, rfl⟩ := h
  rfl

theorem canSendPaced_unpaced (path : PathState) (packetBytes nowUs : Nat) :
    (path.canSendPaced packetBytes nowUs).1.unpaced = path.unpaced :=
  (canSendPaced_repaced path packetBytes nowUs).unpaced

theorem tryReservePacing_unpaced (path : PathState) (packetBytes nowUs : Nat) :
    (path.tryReservePacing packetBytes nowUs).1.unpaced = path.unpaced :=
  (tryReservePacing_repaced path packetBytes nowUs).unpaced

end PathState

/-- What an association owes its peer and its application for the bytes it took. Which transmissions
carried a range before is no part of it. -/
structure Commitments where
  sentData : Nat
  sent : Nat → Nat
  finished : Nat → Bool
  retained : List (Option RetainedSendRange)

/-- Bytes of a stream that were charged against its credit. -/
def SendFlowControl.sentOn (self : SendFlowControl) (id : Nat) : Nat :=
  ((self.stream id).map (·.sent)).getD 0

namespace EndpointState

variable {P : Nat} {s : EndpointState P}

def commitments (self : EndpointState P) : Commitments where
  sentData := self.send.sentData
  sent := self.send.sentOn
  finished := self.send.isFinished
  retained := self.sendBuffer.map (Option.map fun range => { range with priorPackets := [] })

variable {s' : EndpointState P}

theorem commitments_congr (hsend : s'.send = s.send) (hbuffer : s'.sendBuffer = s.sendBuffer) :
    s'.commitments = s.commitments := by
  rw [commitments, commitments, hsend, hbuffer]

/-! ## Pacing aside -/

/-- Everything about an endpoint but the pacing of its paths. -/
def unpaced (self : EndpointState P) : EndpointState P :=
  { self with paths := self.paths.map PathState.unpaced }

/-- What does not read the pacing agrees where only the pacing differs. -/
theorem eq_of_unpaced {β : Type} (view : EndpointState P → β)
    (hview : ∀ s, view s.unpaced = view s) (h : s'.unpaced = s.unpaced) : view s' = view s := by
  rw [← hview s', h, hview]

variable (s : EndpointState P) (pathId : Nat)

theorem unpaced_getElem? : s.unpaced.paths[pathId]? = s.paths[pathId]?.map PathState.unpaced :=
  getElem?_map ..

theorem pathAt_unpaced : (s.unpaced.pathAt pathId).congestion = (s.pathAt pathId).congestion := by
  rw [pathAt, pathAt, getD_eq_getElem?_getD, getD_eq_getElem?_getD, unpaced_getElem?]
  cases s.paths[pathId]? <;> rfl

theorem peerConnectionIdOnPath_unpaced :
    s.unpaced.peerConnectionIdOnPath pathId = s.peerConnectionIdOnPath pathId := by
  rw [peerConnectionIdOnPath, peerConnectionIdOnPath, unpaced_getElem?]
  cases s.paths[pathId]? <;> rfl

theorem creditRetryAfter_unpaced : s.unpaced.creditRetryAfter = s.creditRetryAfter := by
  have hpto : s.unpaced.ptoTimeoutForPath 0 = s.ptoTimeoutForPath 0 := by
    rw [ptoTimeoutForPath, ptoTimeoutForPath, unpaced_getElem?]
    cases s.paths[0]? <;> rfl
  rw [creditRetryAfter, hpto]
  rfl

theorem pendingControlPath_unpaced : s.unpaced.pendingControlPath = s.pendingControlPath := by
  have himmediate : s.unpaced.paths.reverse.findIdx? (·.ackImmediate) =
      s.paths.reverse.findIdx? (·.ackImmediate) := by
    show (s.paths.map _).reverse.findIdx? _ = _
    rw [← map_reverse, findIdx?_map]
    rfl
  have hdue : ∀ due : PathState → Bool, (∀ path, due path.unpaced = due path) →
      s.unpaced.paths.findIdx? due = s.paths.findIdx? due := by
    intro due hdue
    show (s.paths.map _).findIdx? _ = _
    rw [findIdx?_map]
    congr 1
    exact funext hdue
  unfold pendingControlPath
  rw [himmediate, hdue _ (by intro path; rfl), creditRetryAfter_unpaced,
    show s.unpaced.paths.length = s.paths.length from length_map ..,
    show s.unpaced.paths.head? = s.paths.head?.map PathState.unpaced from head?_map ..]
  cases s.paths.head? <;> rfl

theorem pendingReceiveAckPath_unpaced :
    s.unpaced.pendingReceiveAckPath = s.pendingReceiveAckPath := by
  let strip : Nat × PathState → Nat × PathState := fun entry => (entry.1, entry.2.unpaced)
  have hpending : (s.unpaced.paths.mapIdx fun id path => (id, path)).filter (fun entry =>
    entry.2.ackPending) =
      ((s.paths.mapIdx fun id path => (id, path)).filter fun entry => entry.2.ackPending).map
        strip := by
    have hindexed : (s.unpaced.paths.mapIdx fun id path => (id, path)) =
        (s.paths.mapIdx fun id path => (id, path)).map strip := by
      apply ext_getElem?
      intro i
      rw [List.getElem?_mapIdx, List.getElem?_map, List.getElem?_mapIdx, unpaced_getElem?]
      cases s.paths[i]? <;> rfl
    rw [hindexed, List.filter_map]
    rfl
  have hfold : ∀ (rest : List (Nat × PathState)) (first : Nat × PathState),
      (rest.map strip).foldl (fun best entry =>
        if best.2.largestReceivedAt ≤ entry.2.largestReceivedAt then entry
        else best) (strip first) =
      strip (rest.foldl (fun best entry =>
        if best.2.largestReceivedAt ≤ entry.2.largestReceivedAt then entry else best) first) := by
    intro rest
    induction rest with
    | nil => exact fun first => rfl
    | cons entry rest ih =>
      intro first
      rw [map_cons, foldl_cons, foldl_cons, ← ih]
      congr 1
      show (if first.2.largestReceivedAt ≤ entry.2.largestReceivedAt then
        strip entry else strip first) = _
      split_ifs <;> rfl
  unfold pendingReceiveAckPath
  rw [hpending]
  cases (s.paths.mapIdx fun id path => (id, path)).filter fun entry => entry.2.ackPending with
  | nil => rfl
  | cons first rest =>
    rw [map_cons]
    simp only
    rw [hfold]

theorem encodeControlFramesOnPath_unpaced (capacity : Nat) (piggyback : Bool) :
    s.unpaced.encodeControlFramesOnPath pathId capacity piggyback =
      s.encodeControlFramesOnPath pathId capacity piggyback := by
  have hretry : ∀ path : PathState,
      s.unpaced.creditRetryDue pathId path.unpaced = s.creditRetryDue pathId path := by
    intro path
    rw [creditRetryDue, creditRetryAfter_unpaced]
    rfl
  have hcredit : ∀ path : PathState,
      s.unpaced.sendsCredit pathId path.unpaced = s.sendsCredit pathId path := by
    intro path
    rw [sendsCredit, hretry]
    rfl
  have hstreams : ∀ (ids : List Nat) (control : EncodedControlFrames),
      s.unpaced.encodeStreamCredit capacity ids control = s.encodeStreamCredit capacity ids
        control := by
    intro ids
    induction ids with
    | nil => exact fun control => rfl
    | cons id ids ih =>
      intro control
      rw [encodeStreamCredit]
      simp only [ih]
      rfl
  have hcreditFrames : ∀ control : EncodedControlFrames,
      s.unpaced.encodeCreditFrames capacity piggyback control =
        s.encodeCreditFrames capacity piggyback control := by
    intro control
    unfold encodeCreditFrames
    simp only [hstreams]
    rfl
  have hack : ∀ (path : PathState) (sendCredit : Bool),
      s.unpaced.encodeAckFrames path.unpaced capacity piggyback sendCredit =
        s.encodeAckFrames path capacity piggyback sendCredit := by
    intro path sendCredit
    unfold encodeAckFrames
    simp only [hcreditFrames]
    rfl
  unfold encodeControlFramesOnPath
  rw [unpaced_getElem?, pendingControlPath_unpaced, pendingReceiveAckPath_unpaced]
  cases s.paths[pathId]? with
  | none => rfl
  | some path =>
    simp only [map_some, hretry, hcredit, hack]
    rfl

/-- The checks before anything is reserved do not read the pacing of any path. -/
theorem planStream_unpaced (dcid : ConnectionId) (frame : StreamFrame)
    (capacity : Nat) : s.unpaced.planStream pathId dcid frame capacity =
      s.planStream pathId dcid frame capacity := by
  have hadmit : ∀ packet control, s.unpaced.admitStream pathId frame packet control =
      s.admitStream pathId frame packet control := by
    intro packet control
    unfold admitStream
    rw [pathAt_unpaced]
    rfl
  unfold planStream
  rw [peerConnectionIdOnPath_unpaced,
    show s.unpaced.paths.length = s.paths.length from length_map ..]
  simp only [encodeControlFramesOnPath_unpaced, hadmit]
  rfl

/-! ## Refusals -/

/-- The first check, in the order of `encode_stream_packet_on_path_inner`, that turns a stream
packet down before any of it is committed. -/
def streamRefusal (self : EndpointState P) (pathId : Nat) (dcid : ConnectionId)
    (frame : StreamFrame) (capacity : Nat) : Option Error :=
  match self.planStream pathId dcid frame capacity with
  | .error e => some e
  | .ok plan =>
    let bytes := plan.packet.bytes.length
    let path := self.pathAt pathId
    let paced := path.canSendPaced bytes path.sendClock
    if paced.2 = false then some .blocked
    else if u32Max ≤ self.nextPacketNumber then some .packetNumberExhausted
    else if (paced.1.tryReservePacing bytes path.sendClock).2 = false then some .blocked
    else
      match self.send.reserved frame.id frame.offset frame.data.length with
      | .error e => some e
      | .ok _ => none

/-- Of a refusal only the pacing of its path can be seen. -/
structure RefusedOn (s s' : EndpointState P) (pathId : Nat) : Prop where
  rest : s'.unpaced = s.unpaced
  others : ∀ id, id ≠ pathId → s'.paths[id]? = s.paths[id]?

theorem RefusedOn.refl : RefusedOn s s pathId := ⟨rfl, fun _ _ => rfl⟩

theorem refusedOn_setPath {s : EndpointState P} {pathId : Nat} (hpath : pathId < s.paths.length)
    (h : path.unpaced = (s.pathAt pathId).unpaced) :
    RefusedOn s (s.setPath pathId path) pathId := by
  refine ⟨?_, fun id hid => getElem?_set_ne hid.symm⟩
  have hpaths : (s.paths.set pathId path).map PathState.unpaced =
      s.paths.map PathState.unpaced := by
    rw [map_set, h]
    exact set_getElem?_self (by rw [getElem?_map, paths_getElem?_of_lt hpath]; rfl)
  show { s with paths := (s.paths.set pathId path).map PathState.unpaced } = _
  rw [hpaths]
  rfl

theorem pathAt_congr {s : EndpointState P} {pathId : Nat}
    (h : s'.paths[pathId]? = s.paths[pathId]?) :
    s'.pathAt pathId = s.pathAt pathId := by
  rw [pathAt, pathAt, getD_eq_getElem?_getD, getD_eq_getElem?_getD, h]

/-- What refuses a packet on one path is not changed by the pacing of the others. -/
theorem streamRefusal_congr {s : EndpointState P} {pathId : Nat} (hrest : s'.unpaced = s.unpaced)
    (hpath : s'.paths[pathId]? = s.paths[pathId]?) (dcid : ConnectionId) (frame : StreamFrame)
    (capacity : Nat) :
    s'.streamRefusal pathId dcid frame capacity = s.streamRefusal pathId dcid frame capacity := by
  have hplan : s'.planStream pathId dcid frame capacity = s.planStream pathId dcid frame capacity :=
    eq_of_unpaced (fun s => s.planStream pathId dcid frame capacity)
      (fun s => s.planStream_unpaced pathId dcid frame capacity) hrest
  have hsend : s'.send = s.send := eq_of_unpaced EndpointState.send (fun _ => rfl) hrest
  have hnumber : s'.nextPacketNumber = s.nextPacketNumber :=
    eq_of_unpaced EndpointState.nextPacketNumber (fun _ => rfl) hrest
  rw [streamRefusal, streamRefusal, hplan, hsend, hnumber, pathAt_congr hpath]

section Encoding

variable {s : EndpointState P} {pathId : Nat} {dcid : ConnectionId} {frame : StreamFrame}
    {capacity : Nat}
variable {e : Error} {plan : StreamPlan}

/-- The reservations of a planned packet one after the other. -/
theorem reserveStream_eq (plan : StreamPlan) (retain : Bool) :
    s.reserveStream pathId frame plan retain =
      let bytes := plan.packet.bytes.length
      let clock := (s.pathAt pathId).sendClock
      let paced := (s.pathAt pathId).canSendPaced bytes clock
      let reserved := paced.1.tryReservePacing bytes clock
      if paced.2 = false then (s.setPath pathId paced.1, .error .blocked)
      else if u32Max ≤ s.nextPacketNumber then
        (s.setPath pathId paced.1, .error .packetNumberExhausted)
      else if reserved.2 = false then (s.setPath pathId reserved.1, .error .blocked)
      else
        match s.send.reserved frame.id frame.offset frame.data.length with
        | .error e => (s.setPath pathId reserved.1, .error e)
        | .ok send =>
          let charged := { s with send := send : EndpointState P }
          match reserved.1.congestion.onPacketSent bytes with
          | none => (charged.setPath pathId reserved.1, .error .blocked)
          | some congestion =>
            match { reserved.1 with congestion := congestion : PathState }.assignSendOrder with
            | .error e =>
              (charged.setPath pathId { reserved.1 with congestion := congestion }, .error e)
            | .ok (path, sendOrder) =>
              (charged.setPath pathId path).commitStream pathId sendOrder
                (reserved.1.congestion.windowLimited bytes) frame plan retain := by
  unfold reserveStream
  simp only
  rcases (s.pathAt pathId).canSendPaced plan.packet.bytes.length
    (s.pathAt pathId).sendClock with ⟨path, _ | _⟩
  · rfl
  · simp only
    rcases path.tryReservePacing plan.packet.bytes.length (s.pathAt pathId).sendClock with ⟨path',
      _ | _⟩ <;> rfl

theorem encode_refused (retain : Bool) (h : s.streamRefusal pathId dcid frame capacity = some e) :
    (s.encodeStreamPacketOnPathInner none pathId dcid frame capacity retain).2 = .error e ∧
      RefusedOn s (s.encodeStreamPacketOnPathInner none pathId dcid frame capacity retain).1
        pathId := by
  unfold streamRefusal at h
  unfold encodeStreamPacketOnPathInner
  cases hplan : s.planStream pathId dcid frame capacity with
  | error e' =>
    rw [hplan] at h
    exact ⟨by rw [← some.inj h], .refl s pathId⟩
  | ok plan =>
  have hpath := (planStream_spec hplan).path
  rw [hplan] at h
  simp only [reserveStream_eq] at h ⊢
  have hpaced := (s.pathAt pathId).canSendPaced_unpaced plan.packet.bytes.length
    (s.pathAt pathId).sendClock
  have hreserved := (PathState.tryReservePacing_unpaced _ plan.packet.bytes.length
    (s.pathAt pathId).sendClock).trans hpaced
  split_ifs at h ⊢
  · exact ⟨by rw [← some.inj h], refusedOn_setPath hpath hpaced⟩
  · exact ⟨by rw [← some.inj h], refusedOn_setPath hpath hpaced⟩
  · exact ⟨by rw [← some.inj h], refusedOn_setPath hpath hreserved⟩
  cases hcredit : s.send.reserved frame.id frame.offset frame.data.length with
  | error e' =>
    rw [hcredit] at h
    exact ⟨by rw [← some.inj h], refusedOn_setPath hpath hreserved⟩
  | ok send =>
    rw [hcredit] at h
    cases h

/-- A frame that was written has an offset and a length that both fit a varint. -/
theorem StreamSpec.stop_le (h : StreamSpec none s pathId dcid frame capacity plan) :
    frame.offset + frame.data.length ≤ u64Max := by
  obtain ⟨body, -, hwired⟩ := h.packet.formed.body
  have hmem : .stream frame ∈ plan.packet.frames := by
    rw [h.frames]
    exact mem_cons_self
  obtain ⟨hvalues, -⟩ := hwired.encodable _ hmem
  have hoffset : frame.offset < varintBound := hvalues _ (by simp [Frame.values])
  have hlength : frame.data.length < varintBound := hvalues _ (by simp [Frame.values])
  simp only [varintBound] at hoffset hlength
  simp only [u64Max, usizeBound]
  omega

/-- What is not refused is committed: the frame is retained in a slot that was free. -/
theorem encode_taken (retain : Bool) (h : s.streamRefusal pathId dcid frame capacity = none)
    (horder : (s.pathAt pathId).nextSendOrder < u64Max) :
    ∃ packet number slot, (s.encodeStreamPacketOnPathInner none pathId dcid frame capacity
      retain).2 =
      .ok (packet, number) ∧
      s.freeRangeSlot = some slot ∧ frame.offset + frame.data.length ≤ u64Max ∧
      (s.encodeStreamPacketOnPathInner none pathId dcid frame capacity retain).1.sendBuffer =
        s.sendBuffer.set slot (some (retainFrame frame number retain)) := by
  rcases s.encodeStreamPacketOnPathInner_cases none pathId dcid frame capacity retain with
    ⟨-, -, -, e, herror⟩ | ⟨plan, path, windowLimited, send, send', hspec, -, -, -, -, heq⟩
  · exfalso
    unfold streamRefusal at h
    unfold encodeStreamPacketOnPathInner at herror
    cases hplan : s.planStream pathId dcid frame capacity with
    | error e' =>
      rw [hplan] at h
      cases h
    | ok plan =>
    have hsend := (planStream_spec hplan).room
    rw [hplan] at h herror
    simp only at h herror
    rw [reserveStream_eq] at herror
    simp only at herror
    have hunpaced := (PathState.tryReservePacing_unpaced _ plan.packet.bytes.length
      (s.pathAt pathId).sendClock).trans
      ((s.pathAt pathId).canSendPaced_unpaced plan.packet.bytes.length (s.pathAt pathId).sendClock)
    split_ifs at h herror
    cases hcredit : s.send.reserved frame.id frame.offset frame.data.length with
    | error e' =>
      rw [hcredit] at h
      cases h
    | ok send =>
    rw [hcredit] at herror
    generalize (((s.pathAt pathId).canSendPaced plan.packet.bytes.length
      (s.pathAt pathId).sendClock).1.tryReservePacing plan.packet.bytes.length
        (s.pathAt pathId).sendClock).1 =
      path at herror hunpaced
    have hcongestion : path.unpaced.congestion = (s.pathAt pathId).congestion := by
      rw [hunpaced]; rfl
    have hnext : path.unpaced.nextSendOrder = (s.pathAt pathId).nextSendOrder := by
      rw [hunpaced]; rfl
    change path.congestion = _ at hcongestion
    change path.nextSendOrder = _ at hnext
    -- the window was checked when the packet was planned, and pacing does not touch it
    rw [hcongestion, CongestionController.onPacketSent, if_pos hsend] at herror
    simp only [PathState.assignSendOrder, hnext, if_neg horder.not_ge] at herror
    obtain ⟨send', hfinish⟩ := finishStream_of_isSome (reserved_stream hcredit) frame.fin
    rw [commitStream_of_finish hfinish] at herror
    cases herror
  · rw [heq]
    refine ⟨plan.packet, s.nextPacketNumber, plan.rangeSlot, rfl, hspec.range, hspec.stop_le, ?_⟩
    rw [(commitPiggyback_same _ pathId s.nextPacketNumber plan.control).buffer]
    rfl

theorem encodeOwned_refused (h : s.streamRefusal pathId dcid frame capacity = some e) :
    (s.encodeStreamPacketFromOwnedOnPath none pathId dcid frame capacity).2 = .error e ∧
      RefusedOn s (s.encodeStreamPacketFromOwnedOnPath none pathId dcid frame capacity).1
        pathId := by
  obtain ⟨hresult, hrefused⟩ := encode_refused false h
  unfold encodeStreamPacketFromOwnedOnPath
  rcases hinner : s.encodeStreamPacketOnPathInner none pathId dcid frame capacity
    false with ⟨s', result⟩
  rw [hinner] at hresult hrefused
  obtain rfl : result = .error e := hresult
  exact ⟨rfl, hrefused⟩

/-- The range that takes over the source lease is there. -/
theorem encodeOwned_taken (h : s.streamRefusal pathId dcid frame capacity = none)
    (horder : (s.pathAt pathId).nextSendOrder < u64Max) :
    ∃ sent, (s.encodeStreamPacketFromOwnedOnPath none pathId dcid frame capacity).2 = .ok sent := by
  obtain ⟨packet, number, slot, hresult, hfree, -, hbuffer⟩ := encode_taken false h horder
  unfold encodeStreamPacketFromOwnedOnPath
  rcases hinner : s.encodeStreamPacketOnPathInner none pathId dcid frame capacity
    false with ⟨s', result⟩
  rw [hinner] at hresult hbuffer
  obtain rfl : result = .ok (packet, number) := hresult
  obtain ⟨hslot, -⟩ := List.getElem?_eq_some_iff.mp (free_getElem? hfree)
  have hmem : some (retainFrame frame number false) ∈ s'.sendBuffer := by
    rw [hbuffer]
    exact mem_set hslot _
  cases hfind : s'.sendBuffer.findIdx? fun slot => slot.any fun range =>
    range.logicalPacketNumber == number with
  | none =>
    have := findIdx?_eq_none_iff.mp hfind _ hmem
    simp [retainFrame] at this
  | some index =>
    simp only [hfind]
    exact ⟨_, rfl⟩

end Encoding

/-! ## Opening the stream -/

open SendFlowControl

theorem openStream_find (send : SendFlowControl) (id maxData : Nat) :
    ((send.openStream id maxData).stream id).isSome := by
  unfold openStream
  split
  · assumption
  · simp [stream]

theorem openStream_sentOn (send : SendFlowControl) (id maxData other : Nat) :
    (send.openStream id maxData).sentOn other = send.sentOn other ∧
      (send.openStream id maxData).isFinished other = send.isFinished other := by
  unfold openStream
  split
  · exact ⟨rfl, rfl⟩
  rename_i hnone
  unfold sentOn isFinished stream
  rw [find?_append]
  by_cases hother : id = other
  · -- the entry is new: nothing was sent, and nothing finished, before it
    subst hother
    have hfind : send.streams.find? (fun stream => stream.id == id) = none :=
      not_isSome_iff_eq_none.mp hnone
    rw [hfind]
    simp
  · simp [hother]

theorem insertStream_find (receive : ConnectionState) (id : Nat) :
    ((receive.insertStream id).find id).isSome := by
  simp [ConnectionState.insertStream, ConnectionState.find, StreamState.new]

section Opening

variable (s : EndpointState P) (id maxData : Nat)

/-- The peer allows no further stream of this kind. -/
def atStreamLimit : Prop :=
  s.receive.isLocal id ∧ (if isUnidirectional id then
    s.peerMaxStreamsUni else s.peerMaxStreamsBidi) ≤ streamOrdinal id

theorem openSendStream_refused (h : s.atStreamLimit id) :
    s.openSendStream id maxData = (s, .error .streamLimit) :=
  if_pos h

theorem openSendStream_opened (h : ¬s.atStreamLimit id) : s.openSendStream id maxData = ({ s with
      send := s.send.openStream id maxData
      receive := if (s.receive.isLocal id && !isUnidirectional id) &&
        (s.receive.find id).isNone then
        s.receive.insertStream id else s.receive }, .ok ()) := by
  unfold openSendStream
  extract_lets unidirectional locallyInitiated maximum opened
  have hroom : ¬(locallyInitiated ∧ maximum ≤ streamOrdinal id) := h
  rw [if_neg hroom]
  cases hboth : locallyInitiated && !unidirectional with
  | false =>
    rfl
  | true =>
    have hlocal : s.receive.isLocal id = true := (and_eq_true_iff.mp hboth).1
    unfold ConnectionState.openLocal
    cases (s.receive.find id) with
    | none => simp [opened, hlocal]
    | some stream => simp [opened, hlocal]

theorem openSendStream_rest : ∃ send receive, (s.openSendStream id maxData).1 = { s with
      send := send, receive := receive } := by
  by_cases h : s.atStreamLimit id
  · exact ⟨s.send, s.receive, by rw [s.openSendStream_refused id maxData h]⟩
  · exact ⟨_, _, by rw [s.openSendStream_opened id maxData h]⟩

theorem openSendStream_role : (s.openSendStream id maxData).1.receive.role = s.receive.role := by
  by_cases h : s.atStreamLimit id
  · rw [s.openSendStream_refused id maxData h]
  · rw [s.openSendStream_opened id maxData h]
    show (if _ then _ else _ : ConnectionState).role = _
    split <;> rfl

theorem openSendStream_commitments :
    (s.openSendStream id maxData).1.commitments = s.commitments := by
  by_cases h : s.atStreamLimit id
  · rw [s.openSendStream_refused id maxData h]
  rw [s.openSendStream_opened id maxData h]
  have hsentData : (s.send.openStream id maxData).sentData = s.send.sentData := by
    unfold openStream
    split <;> rfl
  show Commitments.mk _ _ _ _ = Commitments.mk _ _ _ _
  congr 1
  · exact funext fun other => (openStream_sentOn s.send id maxData other).1
  · exact funext fun other => (openStream_sentOn s.send id maxData other).2

theorem openSendStream_unpaced : s.unpaced.openSendStream id maxData =
      ((s.openSendStream id maxData).1.unpaced, (s.openSendStream id maxData).2) := by
  by_cases h : s.atStreamLimit id
  · rw [s.openSendStream_refused id maxData h]
    exact s.unpaced.openSendStream_refused id maxData h
  · rw [s.openSendStream_opened id maxData h]
    exact s.unpaced.openSendStream_opened id maxData h

/-- Opening a stream again changes nothing and gives the same answer. -/
theorem openSendStream_again :
    (s.openSendStream id maxData).1.openSendStream id maxData = s.openSendStream id maxData := by
  by_cases h : s.atStreamLimit id
  · rw [s.openSendStream_refused id maxData h]
    exact s.openSendStream_refused id maxData h
  rw [s.openSendStream_opened id maxData h]
  generalize hreceive : (if (s.receive.isLocal id && !isUnidirectional id) &&
    (s.receive.find id).isNone then
    s.receive.insertStream id else s.receive) = receive
  have hrole : receive.isLocal id = s.receive.isLocal id := by
    rw [← hreceive]
    split <;> rfl
  have hlimit : ¬({ s with send := s.send.openStream id maxData, receive := receive } :
    EndpointState P).atStreamLimit id := by
    unfold atStreamLimit
    simp only [hrole]
    exact h
  rw [openSendStream_opened _ id maxData hlimit]
  have hsend : (s.send.openStream id maxData).openStream id maxData =
      s.send.openStream id maxData :=
    if_pos (openStream_find s.send id maxData)
  have hfind : ((receive.isLocal id && !isUnidirectional id) && (receive.find id).isNone) =
      false := by
    rw [← hreceive]
    split
    · rw [isNone_eq_false_iff.mpr (insertStream_find s.receive id), Bool.and_false]
    · rename_i hopen
      exact Bool.eq_false_iff.mpr hopen
  simp [hsend, hfind]

end Opening

/-! ## Events between the packets of a write -/

theorem packetSubmissionBlocked_commitments (packetNumber : Nat) :
    (s.packetSubmissionBlocked packetNumber).1.commitments = s.commitments := by
  unfold packetSubmissionBlocked
  split
  · rfl
  apply commitments_congr
  · show (if _ then _ else _ : EndpointState P).send = _
    split <;> rfl
  · show (if _ then _ else _ : EndpointState P).sendBuffer = _
    split <;> rfl

theorem packetSubmissionAccepted_commitments (packetNumber nowUs : Nat) :
    (s.packetSubmissionAccepted packetNumber nowUs).1.commitments = s.commitments := by
  unfold packetSubmissionAccepted
  split
  · rfl
  extract_lets congestion windowLimited s₁ s₂ s₃
  have h₁ : s₁.send = s.send ∧ s₁.sendBuffer = s.sendBuffer := by
    unfold s₁
    split <;> exact ⟨rfl, rfl⟩
  have h₂ : s₂.send = s₁.send ∧ s₂.sendBuffer = s₁.sendBuffer := by
    unfold s₂ commitDuplicationBudget
    split_ifs <;> exact ⟨rfl, rfl⟩
  exact commitments_congr (h₂.1.trans h₁.1) (h₂.2.trans h₁.2)

theorem packetSubmissionFailed_commitments (packetNumber : Nat) :
    (s.packetSubmissionFailed packetNumber).1.commitments = s.commitments := by
  unfold packetSubmissionFailed
  split
  · rfl
  split
  · rfl
  extract_lets s₁
  have h₁ : s₁.send = s.send ∧ s₁.sendBuffer = s.sendBuffer := by
    unfold s₁
    split <;> exact ⟨rfl, rfl⟩
  exact commitments_congr h₁.1 h₁.2

theorem duplicateStreamPacketOnPath_commitments (packetNumber pathId capacity : Nat) :
    (s.duplicateStreamPacketOnPath none packetNumber pathId capacity).1.commitments =
      s.commitments := by
  unfold duplicateStreamPacketOnPath
  rcases s.retransmitStreamPacketWithProbe_cases none packetNumber pathId capacity false true with
    ⟨hidle, -⟩ | ⟨plan, path, windowLimited, -, -, -, heq⟩
  · rw [hidle.rest]
    rfl
  rw [heq]
  cases hevicted : plan.evicted with
  | none =>
    simp only [commitRepair, hevicted]
    rfl
  | some old =>
  simp only [commitRepair, hevicted]
  show Commitments.mk _ _ _ _ = Commitments.mk _ _ _ _
  congr 1
  show (s.sendBuffer.modify plan.rangeSlot (.map fun range =>
      range.addPriorPacket ⟨old.packetNumber, old.offset, old.dataLen, old.fin⟩)).map
      (.map fun range : RetainedSendRange => { range with priorPackets := [] }) =
    s.sendBuffer.map (Option.map fun range => { range with priorPackets := [] })
  apply ext_getElem?
  intro i
  rw [getElem?_map, getElem?_map, getElem?_modify]
  rcases s.sendBuffer[i]? with _ | _ | range
  · rfl
  · simp
  · split_ifs <;> rfl

theorem duplicateCreditControlOnPath_commitments (source pathId : Nat)
    (includeAck includeMaxData : Bool) (count : Nat) (includeMaxStreams : Bool) (capacity : Nat) :
    (s.duplicateCreditControlOnPath none source pathId includeAck includeMaxData count
      includeMaxStreams capacity).1.commitments = s.commitments := by
  rcases s.duplicateCreditControlOnPath_cases none source pathId includeAck includeMaxData count
    includeMaxStreams capacity
    with ⟨hidle, -⟩ | ⟨pkt, slot, path, windowLimited, -, -, -, heq⟩
  · rw [hidle.rest]
    rfl
  · rw [heq]
    rfl

end EndpointState

end QuicLite
