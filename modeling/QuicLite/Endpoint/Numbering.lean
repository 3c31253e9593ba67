import QuicLite.Endpoint.Transitions

/-!
# Numbering the emitted packets

Every emission truncates its packet number, and the peer widens it again around the number it
expects. Truncating against the largest number the peer acknowledged leaves enough digits for any
expectation above that number. One emission, `encode_probe_packet`, truncates against what was
received instead; `numberedByPeer_iff` says exactly when that is still enough.
-/

namespace QuicLite

namespace EndpointState

variable {P : Nat} {dcid : ConnectionId} {len pathId : Nat}
variable {s₀ s' : EndpointState P} {target : Nat → Prop} {number : Nat} {frame : StreamFrame}

/-! ## Headers -/

/-- The connection ids a call may put into its packet: the one it is given, or the peer's on its
path. -/
def Destination (s : EndpointState P) (dcid : ConnectionId) : Op → Prop
  | .encodeStreamPacket _ given _ _ | .encodeStreamPacketFromOwned _ given _ _
  | .encodePathControlPacket _ given _ _ | .encodeProbePacket given _ => dcid = given
  | .pollTransmit pathId _ | .retransmitStreamPacketOnPath _ pathId _
  | .duplicateStreamPacket _ pathId _ | .duplicateCreditControl _ pathId _ _ _ _ _
  | .sendDatagram pathId _ _ _ _ =>
    s.peerConnectionIdOnPath pathId = some dcid
  | .pollClose _ => s.peerConnectionIdOnPath 0 = some dcid
  | _ => ∃ pathId, s.peerConnectionIdOnPath pathId = some dcid

/-- The lengths a call may truncate its number to. -/
def TruncatesTo (s : EndpointState P) (len : Nat) : Op → Prop
  | .encodeProbePacket _ _ => len = packetNumberLen s.nextPacketNumber s.largestReceived
  | _ => len = s.nextPacketNumberLen ∨ len = 4

/-- The packet starts with the header of the next number. -/
structure Leads (s : EndpointState P) (op : Op) (pkt : Packet) : Prop where
  number : s.nextPacketNumber < u32Max
  header : ∃ dcid len, s.Destination dcid op ∧ s.TruncatesTo len op ∧
    pkt.header = ⟨flagFixed, dcid, s.nextPacketNumber, len⟩
  bytes : ∃ payload, pkt.bytes = pkt.header.bytes ++ payload

/-- The packet was written, and sealed if there are keys, under the next number. -/
structure Sends (keys : Keys) (s : EndpointState P) (op : Op) (pkt : Packet) : Prop where
  number : s.nextPacketNumber < u32Max
  written : ∃ dcid len pathId capacity, s.Destination dcid op ∧ s.TruncatesTo len op ∧
    Written keys s pathId ⟨flagFixed, dcid, s.nextPacketNumber, len⟩ capacity pkt

variable {pkt : Packet} {op : Op} {s : EndpointState P} {keys : Keys} {capacity : Nat}

theorem Sends.leads (h : Sends none s op pkt) : Leads s op pkt := by
  obtain ⟨dcid, len, pathId, capacity, hdest, hlen, hwritten⟩ := h.written
  have hformed := hwritten.formed
  obtain ⟨body, hbytes, -⟩ := hformed.body
  exact ⟨h.number, ⟨dcid, len, hdest, hlen, hformed.header_eq⟩, body,
    by rw [hformed.header_eq, hbytes]⟩

/-- Neither the numbers nor the peer's ids moved. -/
structure SameNumbers (s s' : EndpointState P) : Prop where
  next : s'.nextPacketNumber = s.nextPacketNumber
  acked : s'.largestAckedByPeer = s.largestAckedByPeer
  peer : ∀ pathId, s'.peerConnectionIdOnPath pathId = s.peerConnectionIdOnPath pathId

namespace SameNumbers

variable {s s' s'' : EndpointState P}

theorem trans (h : SameNumbers s s') (h' : SameNumbers s' s'') : SameNumbers s s'' :=
  ⟨h'.next.trans h.next, h'.acked.trans h.acked, fun pathId =>
    (h'.peer pathId).trans (h.peer pathId)⟩

theorem of_idle (h : Idle s s') : SameNumbers s s' := ⟨by rw [h.rest], by rw [h.rest], h.peer⟩

variable (s)

theorem setTime (now : Nat) : SameNumbers s (s.setTime now) := by
  refine ⟨rfl, rfl, fun pathId => ?_⟩
  simp only [peerConnectionIdOnPath, EndpointState.setTime, List.getElem?_map]
  cases s.paths[pathId]? <;> rfl

theorem detectAckLosses (pathId : Nat) (largestAcked : Option Nat) :
    SameNumbers s (s.detectAckLosses pathId largestAcked) := by
  unfold EndpointState.detectAckLosses
  split
  · refine ⟨rfl, rfl, fun id => ?_⟩
    simp only [peerConnectionIdOnPath, modifyPath, clearSpent, markNewlyLost, List.getElem?_modify]
    cases s.paths[id]? with
    | none => rfl
    | some path =>
      split_ifs
      · simp only [Option.map_eq_map, Option.map_some, Option.bind_some]
        rw [(declareLosses_spec _ _ _).2.2]
      · rfl
  · exact of_idle (.refl s)

theorem detectDueLosses : SameNumbers s s.detectDueLosses := by
  unfold EndpointState.detectDueLosses
  generalize List.range s.paths.length = ids
  induction ids generalizing s with
  | nil => exact of_idle (.refl s)
  | cons id ids ih => exact (detectAckLosses s id _).trans (ih _)

variable {s}

end SameNumbers

theorem Written.of_same {header : ShortHeader} (hsame : SameNumbers s s₀)
    (h : Written keys s₀ pathId header capacity pkt) :
    Written keys s pathId header capacity pkt := by
  obtain ⟨t, plain, room, hformed, hpeer, hnext, hprotect⟩ := h
  rw [hsame.next] at hnext
  exact ⟨t, plain, room, hformed, hpeer.trans (hsame.peer pathId), hnext, hprotect⟩

/-! ## Every emission -/

/-- What a call comes to: it sends nothing and does not depend on the keys, or it is refused, or
there is a packet under the next number. -/
inductive Numbers (keys : Keys) (s : EndpointState P) (op : Op) :
    EndpointState P → Option Packet → Prop
  | quiet (same : Op) : Numbers keys s op (s.step same) none
  | refused {s' : EndpointState P} (next : s.nextPacketNumber ≤ s'.nextPacketNumber) :
      Numbers keys s op s' none
  | sent {s' : EndpointState P} {pkt : Packet} (sends : Sends keys s op pkt)
      (next : s'.nextPacketNumber = s.nextPacketNumber + 1) : Numbers keys s op s' (some pkt)

namespace Numbers

theorem of_idle {s₀ : EndpointState P} (hsame : s₀.nextPacketNumber = s.nextPacketNumber)
    (h : Idle s₀ s') : Numbers keys s op s' none :=
  .refused (by rw [h.rest, ← hsame])

theorem of_sent {outcome : EndpointState P × Except Error (Packet × Nat)}
    (h : Numbers keys s op outcome.1 (outcome.2.map (·.1)).toOption) :
    Numbers keys s op (Outcome.sent outcome).state (Outcome.sent outcome).packet := by
  obtain ⟨state, result⟩ := outcome
  cases result <;> exact h

theorem of_maybeSent {outcome : EndpointState P × Except Error (Option (Packet × Nat))}
    (h : Numbers keys s op outcome.1 (sentPacket outcome.2)) :
    Numbers keys s op (Outcome.maybeSent outcome).state (Outcome.maybeSent outcome).packet := by
  obtain ⟨state, result⟩ := outcome
  cases result with
  | error e => exact h
  | ok sent => cases sent <;> exact h

theorem of_packet {result : Except Error Packet} (h : Numbers keys s op s' result.toOption) :
    Numbers keys s op s' (Outcome.packet ⟨s', result.map some⟩) := by
  cases result <;> exact h

theorem of_some (h : Numbers keys s op s' (some pkt)) :
    Sends keys s op pkt ∧ s'.nextPacketNumber = s.nextPacketNumber + 1 := by
  cases h with
  | sent sends next => exact ⟨sends, next⟩

end Numbers

theorem quiet_packet {α : Type} (outcome : EndpointState P × Except Error α) :
    (Outcome.quiet outcome).packet = none := by
  obtain ⟨state, result⟩ := outcome
  cases result <;> rfl

/-- A call that only returns a state. -/
theorem quiet_numbers (h : s.applyWith keys op = s.apply op) (hnone : (s.apply op).packet = none) :
    Numbers keys s op (s.applyWith keys op).state (s.applyWith keys op).packet := by
  rw [h, hnone]
  exact .quiet op

theorem recovers_numbers (op : Op)
    (hdest : ∀ dcid pathId, s.peerConnectionIdOnPath pathId = some dcid → s.Destination dcid op)
    (hlen : ∀ len, (len = s.nextPacketNumberLen ∨ len = 4) → s.TruncatesTo len op)
    (hsame : SameNumbers s s₀) {sent : Option Packet}
    (h : Recovers keys s₀ target capacity s' sent) : Numbers keys s op s' sent := by
  cases h with
  | idle h => exact .of_idle hsame.next h
  | repair _ before spec charges backed after =>
    have hsame := hsame.trans (.of_idle before)
    obtain ⟨dcid, hpeer, hwritten⟩ := spec.packet
    have hnumber := spec.number
    rw [hsame.next] at hwritten hnumber
    rw [hsame.peer] at hpeer
    refine .sent ⟨hnumber, dcid, _, _, capacity, hdest dcid _ hpeer, hlen _ (.inl ?_),
      hwritten.of_same hsame⟩ ?_
    · rw [nextPacketNumberLen, nextPacketNumberLen, hsame.next, hsame.acked]
    · rw [after.rest, ← hsame.next]
      rfl
  | @probe _ _ pathId slot destination plan path windowLimited before peer spec free charges
      after =>
    have hsame := hsame.trans (.of_idle before)
    have hwritten := spec.packet
    have hnumber := spec.number
    rw [hsame.next] at hwritten hnumber
    rw [hsame.peer] at peer
    refine .sent ⟨hnumber, _, 4, _, capacity, hdest _ _ peer, hlen _ (.inr rfl),
      hwritten.of_same hsame⟩ ?_
    rw [after.rest, ← hsame.next]
    rfl

/-- A repair of one packet on a path that is given. -/
theorem repair_numbers {packetNumber : Nat} {forced budgeted : Bool}
    (hdest : ∀ dcid, s.peerConnectionIdOnPath pathId = some dcid → s.Destination dcid op)
    (hlen : s.TruncatesTo s.nextPacketNumberLen op) :
    let outcome := s.retransmitStreamPacketWithProbe keys packetNumber pathId capacity forced
      budgeted
    Numbers keys s op outcome.1 (sentPacket outcome.2) := by
  simp only
  rcases s.retransmitStreamPacketWithProbe_cases keys packetNumber pathId capacity forced
    budgeted with ⟨hidle, hnone⟩ | ⟨plan, path, windowLimited, hspec, -, -, heq⟩
  · rw [sentPacket_eq_none hnone]
    exact .of_idle rfl hidle
  rw [heq]
  obtain ⟨dcid, hpeer, hwritten⟩ := hspec.packet
  exact .sent ⟨hspec.number, dcid, _, _, _, hdest dcid hpeer, hlen, hwritten⟩ rfl

theorem stream_numbers {retain : Bool} (hdest : s.Destination dcid op)
    (hlen : s.TruncatesTo s.nextPacketNumberLen op) :
    let outcome := s.encodeStreamPacketOnPathInner keys pathId dcid frame capacity retain
    Numbers keys s op outcome.1 (outcome.2.map (·.1)).toOption := by
  simp only
  rcases s.encodeStreamPacketOnPathInner_cases keys pathId dcid frame capacity retain with
    ⟨send, -, hidle, e, herror⟩ |
    ⟨plan, path, windowLimited, send, send', hspec, hnumber, -, -, -, heq⟩
  · rw [herror]
    exact .refused (by rw [hidle.rest])
  rw [heq]
  refine .sent ⟨hnumber, dcid, _, _, _, hdest, hlen, hspec.packet⟩ ?_
  cases plan.control with
  | none => rfl
  | some => exact commitControlFrames_number _ pathId s.nextPacketNumber ..

/-- Every call, with keys or without. -/
theorem applyWith_numbers (s : EndpointState P) (keys : Keys) (op : Op) :
    Numbers keys s op (s.applyWith keys op).state (s.applyWith keys op).packet := by
  cases op with
  | encodeStreamPacket pathId dcid frame capacity => exact .of_sent (stream_numbers rfl (.inl rfl))
  | encodeStreamPacketFromOwned pathId dcid frame capacity =>
    have hinner :
        let outcome := s.encodeStreamPacketOnPathInner keys pathId dcid frame capacity false
        Numbers keys s (.encodeStreamPacketFromOwned pathId dcid frame capacity) outcome.1
          (outcome.2.map (·.1)).toOption :=
      stream_numbers rfl (.inl rfl)
    simp only at hinner
    refine .of_sent ?_
    unfold encodeStreamPacketFromOwnedOnPath
    split
    · rename_i heq
      rw [heq] at hinner
      exact hinner
    rename_i heq
    rw [heq] at hinner
    cases hinner with
    | sent sends next =>
      split
      · exact .refused (Nat.le_of_lt (Nat.lt_of_succ_le (Nat.le_of_eq next.symm)))
      · exact .sent sends next
  | encodePathControlPacket pathId destination frame capacity =>
    show Numbers keys s _ (s.encodePathControlPacket keys pathId destination frame capacity).1
      (Outcome.packet ⟨_, _⟩)
    refine .of_packet ?_
    have hstatus : ∀ t : EndpointState P, (t.noteStatusSent pathId frame).nextPacketNumber =
        t.nextPacketNumber := by
      intro t
      unfold noteStatusSent
      split <;> rfl
    unfold encodePathControlPacket
    rcases s.encodePathControlPacketInner_cases keys pathId destination frame capacity false with
      ⟨hstate, e, herror⟩ | ⟨plan, hspec, hok, hstate⟩
    · rw [hstate, herror]
      exact .refused (Nat.le_refl _)
    rw [hok]
    refine .sent ⟨hspec.number, _, 4, _, _, rfl, .inr rfl, hspec.packet⟩ ?_
    rcases hstate with ⟨-, heq⟩ | ⟨slot, path, windowLimited, -, -, heq⟩
    · rw [heq]
      exact hstatus _
    · rw [heq]
      exact hstatus _
  | encodeProbePacket dcid capacity =>
    show Numbers keys s _ (s.encodeProbePacket keys dcid capacity).1 (Outcome.packet ⟨_, _⟩)
    refine .of_packet ?_
    rcases s.encodeProbePacket_cases keys dcid capacity with ⟨hstate, e, herror⟩ |
      ⟨p, hnumber, hwritten, -, heq⟩
    · rw [hstate, herror]
      exact .refused (Nat.le_refl _)
    rw [heq]
    exact .sent ⟨hnumber, _, _, _, _, rfl, rfl, hwritten⟩ rfl
  | pollTransmit pathId capacity =>
    show Numbers keys s _ (s.pollTransmitOnPath keys pathId capacity).1 (Outcome.packet ⟨_, _⟩)
    rcases s.pollTransmitOnPath_cases keys pathId capacity with
      ⟨hstate, hnone⟩ | ⟨p, control, room, dcid, hnumber, hpeer, hwritten, -, -, heq⟩
    · rw [hstate, packet_eq_none s hnone]
      exact .refused (Nat.le_refl _)
    rw [heq]
    exact .sent ⟨hnumber, _, _, _, _, hpeer, .inl rfl, hwritten⟩
      (congrArg (· + 1) (commitControlFrames_number ..))
  | pollClose capacity =>
    show Numbers keys s _ (s.pollClose keys capacity).1 (Outcome.packet ⟨_, _⟩)
    rcases s.pollClose_cases keys capacity with ⟨hstate, hnone⟩ |
      ⟨p, dcid, code, hnumber, hpeer, hwritten, -, heq⟩
    · rw [hstate, packet_eq_none s hnone]
      exact .refused (Nat.le_refl _)
    rw [heq]
    exact .sent ⟨hnumber, _, _, _, _, hpeer, .inl rfl, hwritten⟩ rfl
  | sendDatagram pathId start data storage priority =>
    show Numbers keys s _ (s.sendDatagram keys pathId start data storage priority).1
      (Outcome.packet ⟨_, _⟩)
    refine .of_packet ?_
    rcases s.sendDatagram_cases keys pathId start data storage priority with
      ⟨hidle, e, herror⟩ | ⟨plain, slot, path, windowLimited, room, hspec, -, hcharges,
        hstate, hsent⟩
    · rw [herror]
      exact .of_idle rfl hidle
    obtain ⟨dcid, hpeer, hformed⟩ := hspec.packet
    have hnext := enterDatagram_number (s := s.setPath pathId path) hspec.number pathId
      (s.pathAt pathId).nextSendOrder (plain.bytes.length + datagramTagLen (keys.map (·.2)))
      windowLimited slot
    rw [← hstate] at hnext
    cases hprotect : (s.sendDatagram keys pathId start data storage priority).1.protect keys pathId
      plain room with
    | error e =>
      rw [hsent, hprotect]
      exact .refused (Nat.le_of_lt (Nat.lt_of_succ_le (Nat.le_of_eq hnext.symm)))
    | ok pkt =>
      rw [hsent, hprotect]
      refine .sent ⟨hspec.number, dcid, _, pathId, _, hpeer, .inl rfl, _, plain, room, hformed, ?_,
        .inr hnext, hprotect⟩ hnext
      rw [hstate]
      exact (enterDatagram_peer ..).trans
        (peerConnectionIdOnPath_setPath hspec.path hcharges.peer _)
  | duplicateCreditControl source pathId includeAck includeMaxData count includeMaxStreams
      capacity =>
    refine .of_maybeSent ?_
    rcases s.duplicateCreditControlOnPath_cases keys source pathId includeAck includeMaxData count
      includeMaxStreams capacity with ⟨hidle, hnone⟩ |
      ⟨p, slot, path, windowLimited, hspec, -, -, heq⟩
    · rw [sentPacket_eq_none hnone]
      exact .of_idle rfl hidle
    rw [heq]
    obtain ⟨dcid, hpeer, hwritten⟩ := hspec.packet
    exact .sent ⟨hspec.number, dcid, _, _, _, hpeer, .inl rfl, hwritten⟩ rfl
  | retransmitStreamPacketOnPath packetNumber pathId capacity =>
    exact .of_maybeSent (repair_numbers (fun _ hpeer => hpeer) (.inl rfl))
  | duplicateStreamPacket packetNumber pathId capacity =>
    exact .of_maybeSent (repair_numbers (fun _ hpeer => hpeer) (.inl rfl))
  | retransmitStreamPacket packetNumber capacity =>
    exact .of_maybeSent (recovers_numbers (.retransmitStreamPacket packetNumber capacity)
      (fun _ _ hpeer => ⟨_, hpeer⟩) (fun _ hlen => hlen) (.of_idle (.refl s))
      (s.retransmitStreamPacket_recovers keys packetNumber capacity))
  | retransmitMarkedLoss capacity =>
    exact .of_maybeSent (recovers_numbers (.retransmitMarkedLoss capacity)
      (fun _ _ hpeer => ⟨_, hpeer⟩) (fun _ hlen => hlen) (.of_idle (.refl s))
      (s.retransmitMarkedLoss_recovers keys capacity))
  | retransmitPtoProbe now capacity =>
    exact .of_maybeSent (recovers_numbers (.retransmitPtoProbe now capacity)
      (fun _ _ hpeer => ⟨_, hpeer⟩) (fun _ hlen => hlen) (.of_idle (.refl s))
      (s.retransmitPtoProbe_recovers keys now capacity))
  | retransmitDue now capacity =>
    exact .of_maybeSent (recovers_numbers (.retransmitDue now capacity)
      (fun _ _ hpeer => ⟨_, hpeer⟩) (fun _ hlen => hlen)
        ((SameNumbers.setTime s now).trans (.detectDueLosses _))
      (s.retransmitDue_recovers keys now capacity))
  | receivePacketBatch input ingressPath deferStreamAck =>
    show Numbers keys s _ (s.receivePacketBatch keys input ingressPath deferStreamAck).1
      (Outcome.quiet _).packet
    rw [quiet_packet]
    unfold receivePacketBatch
    split
    · exact .quiet (.receivePacketBatch input ingressPath deferStreamAck)
    split
    · exact .refused (Nat.le_refl _)
    · exact .quiet (.receivePacketBatch _ ingressPath deferStreamAck)
  | suspendPath | packetSubmissionBlocked | packetSubmissionAccepted | packetSubmissionFailed
  | markLost | commitStreamPacketReceive => exact quiet_numbers rfl rfl
  | config | continuePacketNumbersFrom | openSendStream | setInitialPeerBudget | setHistoryCapacity
  | setTransmissionCapacity | addPathState | addPathStateWithIds | addPathStateWithLocalId
  | removePathState | applyAckRanges | streamConsumed | streamConsumedWithoutCredit
  | grantReceiveWindow | setReceiveGrowthLimits | prepareLocalBidiReceive =>
    exact quiet_numbers rfl (quiet_packet _)

theorem packet_eq_some {outcome : Outcome P} :
    outcome.packet = some pkt ↔ outcome.result = .ok (some pkt) := by
  unfold Outcome.packet
  split
  · rename_i heq
    rw [heq, Except.ok.injEq]
  · rename_i heq
    simp [heq]

/-- Every packet any call writes is the header of the next number and encoded frames. -/
theorem apply_emits (h : (s.apply op).result = .ok (some pkt)) :
    Sends none s op pkt ∧ (s.step op).nextPacketNumber = s.nextPacketNumber + 1 := by
  have hnumbers := s.applyWith_numbers none op
  rw [show (s.applyWith none op).packet = some pkt from packet_eq_some.mpr h] at hnumbers
  exact hnumbers.of_some

/-- Every packet any call writes leads with the header of the next number. -/
theorem apply_leads (h : (s.apply op).result = .ok (some pkt)) : Leads s op pkt :=
  (apply_emits h).1.leads

/-! ## Reading the number back -/

/-- The peer, expecting any number above what it last acknowledged and not too far above this one,
reads the number and the destination back. -/
def NumberedByPeer (s : EndpointState P) (op : Op) (pkt : Packet) : Prop :=
  let n := s.nextPacketNumber
  let a := s.largestAckedByPeer.getD 0
  a ≤ n → n - a < 2 ^ 31 → ∀ e, e ≤ u32Max → a < e →
    e < n + 2 ^ (8 * pkt.header.packetNumberLen - 1) →
    ∃ header, (ShortHeader.decodePrefix pkt.bytes >>= fun lead => lead.reconstruct e) = .ok header ∧
      header.packetNumber = n ∧ s.Destination header.dcid op

/-- The digits kept reach from the lowest expectation to the number. Only the probe can fall
short. -/
def EnoughDigits (s : EndpointState P) : Op → Prop
  | .encodeProbePacket _ _ =>
    s.largestAckedByPeer.getD 0 ≤ s.nextPacketNumber →
      s.nextPacketNumber - s.largestAckedByPeer.getD 0 < 2 ^ 31 →
        s.nextPacketNumber ≤ s.largestAckedByPeer.getD 0 + 1
          + 2 ^ (8 * packetNumberLen s.nextPacketNumber s.largestReceived - 1)
  | _ => True

theorem packetNumberLen_le (n : Nat) (baseline : Option Nat) :
    1 ≤ packetNumberLen n baseline ∧ packetNumberLen n baseline ≤ 4 := by
  unfold packetNumberLen
  simp only
  split_ifs <;> decide

theorem TruncatesTo.cases (h : s.TruncatesTo len op) :
    (∃ dcid capacity, op = .encodeProbePacket dcid capacity ∧
      len = packetNumberLen s.nextPacketNumber s.largestReceived) ∨ len = s.nextPacketNumberLen ∨
        len = 4 := by
  unfold TruncatesTo at h
  split at h
  · exact .inl ⟨_, _, rfl, h⟩
  · exact .inr h

theorem TruncatesTo.bounds (h : s.TruncatesTo len op) : 1 ≤ len ∧ len ≤ 4 := by
  rcases h.cases with ⟨_, _, -, rfl⟩ | rfl | rfl
  · exact packetNumberLen_le _ _
  · exact packetNumberLen_le _ _
  · decide

/-- One expectation: the number comes back exactly when it is at most half a window above. -/
theorem read_back_iff (h : Leads s op pkt) {e : Nat}
    (hbelow : e < s.nextPacketNumber + 2 ^ (8 * pkt.header.packetNumberLen - 1)) :
    (∃ header, (ShortHeader.decodePrefix pkt.bytes >>= fun lead => lead.reconstruct e) =
      .ok header ∧
      header.packetNumber = s.nextPacketNumber ∧ s.Destination header.dcid op) ↔
    s.nextPacketNumber ≤ e + 2 ^ (8 * pkt.header.packetNumberLen - 1) := by
  obtain ⟨hnumber, ⟨dcid, len, hdest, hlen, hheader⟩, payload, hbytes⟩ := h
  have hbounds := hlen.bounds
  have hclamp : clampLen len = len := by
    unfold clampLen
    omega
  rw [hheader] at hbytes hbelow ⊢
  rw [hbytes, ShortHeader.decodePrefix_bytes rfl, ok_bind]
  simp only [ShortHeaderPrefix.reconstruct, hclamp]
  rw [← reconstructNumber_iff hbounds (by omega) hbelow]
  constructor
  · rintro ⟨header, hread, hsame, -⟩
    obtain ⟨number, hok, hread⟩ := bind_eq_ok.mp hread
    cases Except.ok.inj hread
    have hsame : number = s.nextPacketNumber := hsame
    rw [hok, hsame]
  intro hok
  rw [hok]
  exact ⟨_, rfl, rfl, hdest⟩

/-- A packet can be numbered by its peer exactly when the digits kept suffice, which only the probe
may fail. -/
theorem numberedByPeer_iff {s : EndpointState P} {op : Op} {pkt : Packet}
    (h : (s.apply op).result = .ok (some pkt)) : NumberedByPeer s op pkt ↔ EnoughDigits s op := by
  have hlead := apply_leads h
  have hnumber := hlead.number
  obtain ⟨dcid, len, -, hlen, hheader⟩ := hlead.header
  have hpkt : pkt.header.packetNumberLen = len := by rw [hheader]
  have hbounds := hlen.bounds
  have hhalf : 2 ^ 7 ≤ 2 ^ (8 * len - 1) := Nat.pow_le_pow_right (by decide) (by omega)
  constructor
  · -- The lowest expectation needs the most digits.
    intro hnumbered
    unfold EnoughDigits
    split
    · intro hle hdist
      have hread := hnumbered hle hdist (s.largestAckedByPeer.getD 0 + 1) (by omega) (by omega)
        (by rw [hpkt]; omega)
      rw [read_back_iff hlead (by rw [hpkt]; omega), hpkt, hlen] at hread
      exact hread
    · trivial
  · intro henough hle hdist e _ habove hbelow
    rw [read_back_iff hlead hbelow, hpkt]
    rcases hlen.cases with ⟨dcid, capacity, rfl, rfl⟩ | rfl | rfl
    · have := henough hle hdist
      omega
    · have := (packetNumberLen_spec hdist).2.2
      rw [nextPacketNumberLen]
      omega
    · show s.nextPacketNumber ≤ e + 2 ^ 31
      omega

/-- A client whose numbers continue at 1000 and that has received packet 999, a Ping. -/
def probeHistory : List Op :=
  [.config (.installConnectionIds clientId serverId),
    .continuePacketNumbersFrom ⟨1000, Nat.le_of_ble_eq_true rfl⟩,
    .receivePacketBatch [0x43, 5, 0, 0, 3, 231, 1] 0 false]

def probeSender : EndpointState 1100 := Runs.exec step freshClient probeHistory

/-- Its path Ping keeps four digits, which suffice. -/
theorem numberedByPeer_pathPing :
    NumberedByPeer probeSender (.encodePathControlPacket 0 serverId .ping 100)
      ⟨⟨flagFixed, serverId, 1000, 4⟩, [.ping], [67, 7, 0, 0, 3, 232, 1]⟩ :=
  (numberedByPeer_iff (by decide +kernel)).mpr trivial

/-- Its probe keeps one digit, since 999 was received; a peer that acknowledged nothing and expects
packet 1 cannot place it. -/
theorem probe_not_numberedByPeer : (probeSender.apply (.encodeProbePacket serverId 100)).result =
        .ok (some ⟨⟨flagFixed, serverId, 1000, 1⟩, [.ping], [64, 7, 232, 1]⟩) ∧
      ¬NumberedByPeer probeSender (.encodeProbePacket serverId 100)
        ⟨⟨flagFixed, serverId, 1000, 1⟩, [.ping], [64, 7, 232, 1]⟩ := by
  refine ⟨by decide +kernel, fun hnumbered => ?_⟩
  obtain ⟨header, hread, -⟩ :=
    hnumbered (by decide +kernel) (by decide +kernel) 1 (by decide) (by decide +kernel)
    (by decide +kernel)
  have hfails : (ShortHeader.decodePrefix [64, 7, 232, 1] >>= fun lead => lead.reconstruct 1) =
      .error .packetNumberExhausted := by decide
  cases hfails.symm.trans hread

end EndpointState

end QuicLite
