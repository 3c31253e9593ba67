import QuicLite.Wire.Bootstrap
import QuicLite.Relay.Rewrite
import QuicLite.Relay.Setup

/-!
# Listening for packets

A listener that serves many connections sorts packets into classes: an OPEN creates a connection, an
OPEN_ACK and an established packet go to the connection that their destination names, and setup
messages go to the relay. The fixed bit is set in both header forms, so the order of the attempts
matters. A relay forwards an OPEN under an alias of its own.
-/

namespace QuicLite

open List

variable {header : ShortHeader}

/-- What the listener needs to know of a packet. -/
inductive ServerPacket where
  | initial (bootstrapOpen : BootstrapOpen)
  | pathOpen
  | pathOpenAck
  | bootstrapAck (destination : ConnectionId)
  | established (destination : ConnectionId)

/-- Long packets that are no OPEN. -/
def classifyLongPacket (packet : Bytes) (long : LongHeader) : Except Error ServerPacket :=
  if long.packetType = longPacketInitial then
    match long.dcid with
    | some destination => .ok (.bootstrapAck destination)
    | none => .error .invalid
  else if long.packetType = longPacketPathOpen ∧ (decodeSetupRequestPacket packet).isOk then
    .ok .pathOpen
  else if long.packetType = longPacketPathOpenAck ∧ (decodeSetupReplyPacket packet).isOk then
    .ok .pathOpenAck
  else .error .invalid

def classifyServerPacket (packet : Bytes) : Except Error ServerPacket :=
  match decodeBootstrapOpenPacketWithLimits packet with
  | .ok (_, bootstrapOpen) => .ok (.initial bootstrapOpen)
  | .error _ =>
    match decodeLongPacket packet with
    | .ok (long, _, _) => classifyLongPacket packet long
    | .error _ => do
        let (header, _) ← ShortHeader.decode packet
        .ok (.established header.dcid)

/-- The destination that led to the relay is removed before the OPEN is checked. -/
def rewriteRelayOpen (input : Bytes) (outboundDcid : Option ConnectionId)
    (relayReceiveCid : ConnectionId) (capacity : Nat) : Except Error Bytes :=
  if relayReceiveCid.value = 0 then .error .bootstrapInvalid
  else do
    let direct ← rewriteBootstrapDestination input defaultMaxPacketSize
    let _ ← decodeBootstrapOpenPacketWithLimits direct
    let (header, payloadAt, payloadLen) ← decodeLongPacket direct
    encodeLongPacket longPacketInitial outboundDcid (some relayReceiveCid) header.packetNumber
      header.packetNumberLen
      ((direct.drop payloadAt).take payloadLen) capacity

/-! ## Classes -/

variable {packet : Bytes}

theorem classifyServerPacket_of_open {bootstrapOpen : BootstrapOpen}
    (h : decodeBootstrapOpenPacketWithLimits packet = .ok (header, bootstrapOpen)) :
    classifyServerPacket packet = .ok (.initial bootstrapOpen) := by
  rw [classifyServerPacket, h]

/-- The OPEN decoder accepts no packet with a destination. -/
theorem decodeBootstrapOpen_error_of_dcid {long : LongHeader} {payloadAt payloadLen : Nat}
    (h : decodeLongPacket packet = .ok (long, payloadAt, payloadLen)) (hdcid : long.dcid.isSome) :
    decodeBootstrapOpenPacketWithLimits packet = .error .bootstrapInvalid := by
  rw [decodeBootstrapOpenPacketWithLimits, h]
  exact if_pos (.inr hdcid)

theorem classifyServerPacket_of_openAck {clientCid : ConnectionId} {ack : BootstrapOpenAck}
    (h : decodeBootstrapOpenAckPacketWithLimits packet clientCid = .ok (header, ack)) :
    classifyServerPacket packet = .ok (.bootstrapAck clientCid) := by
  obtain ⟨⟨long, headerLen, payloadLen⟩, hlong, h⟩ := bind_eq_ok.mp h
  simp only at h
  split at h
  · cases h
  rename_i hclass
  rw [not_or, not_not, not_not] at hclass
  obtain ⟨htype, hdcid⟩ := hclass
  have hopen := decodeBootstrapOpen_error_of_dcid hlong (by rw [hdcid]; rfl)
  rw [classifyServerPacket, hopen]
  simp only [hlong]
  rw [classifyLongPacket, if_pos htype, hdcid]

/-- The long decoder accepts no packet without the header-form bit. -/
theorem decodeLongPacket_of_short (h : isLongHeader packet = false) :
    decodeLongPacket packet = .error .invalid := by
  unfold decodeLongPacket
  split
  · rfl
  rename_i hlength
  cases packet with
  | nil => exact absurd (by decide) hlength
  | cons first rest =>
    have hbit : first &&& 0x80 = 0 := by simpa [isLongHeader] using h
    have hform : first &&& 0xc0 ≠ 0xc0 := by
      intro hform
      have : first &&& 0xc0 &&& 0x80 = 0x80 := by rw [hform]; decide
      rw [UInt8.and_assoc] at this
      exact absurd (hbit.symm.trans this) (by decide)
    rw [headD_cons, if_pos hform]

theorem classifyServerPacket_of_short {used : Nat}
    (hshort : isLongHeader packet = false) (h : ShortHeader.decode packet = .ok (header, used)) :
    classifyServerPacket packet = .ok (.established header.dcid) := by
  have hlong := decodeLongPacket_of_short hshort
  have hopen : decodeBootstrapOpenPacketWithLimits packet = .error .invalid := by
    rw [decodeBootstrapOpenPacketWithLimits, hlong, error_bind]
  rw [classifyServerPacket, hopen]
  simp [hlong, h]

/-! ## Relaying -/

theorem isLongHeader_longPacket {header : LongHeader} (h : header.Valid) (payload : Bytes) :
    isLongHeader (longPacket header payload) = true := by
  obtain ⟨hfirst, -, -⟩ := longFirstByte_spec h.packetType h.packetNumberLen
  show (longFirstByte header.packetType header.packetNumberLen &&& 0x80 != 0) = true
  have : longFirstByte header.packetType header.packetNumberLen &&& 0xc0 &&& 0x80 = 0x80 := by
    rw [hfirst]
    decide
  rw [UInt8.and_assoc] at this
  rw [show (0x80 : UInt8) = 0xc0 &&& 0x80 from by decide, this]
  decide

section Relay

variable {clientCid relayReceiveCid : ConnectionId} {packetNumber : Nat} {offer : Offer}

theorem rewriteBootstrapDestination_open (inbound : Option ConnectionId) (clientCid : ConnectionId)
    (hnumber : packetNumber < 256) (offer : Offer) : rewriteBootstrapDestination
      (longPacket (bootstrapHeader inbound (some clientCid) packetNumber) (offer.frame 0))
        defaultMaxPacketSize =
      .ok (longPacket (bootstrapHeader none (some clientCid) packetNumber) (offer.frame 0)) := by
  have hlength := offer.length_frame_le 0
  have hdecode := decodeLongPacket_bootstrap inbound (some clientCid) hnumber hlength
  rw [rewriteBootstrapDestination, rewriteDestination,
    if_pos (isLongHeader_longPacket (bootstrapHeader_valid _ _ hnumber) _), hdecode]
  simp only [ok_bind, drop_longPacket, take_length]
  exact encodeLongPacket_bootstrap none (some clientCid) hnumber (offer.frame_ne_nil 0) hlength

/-- A relayed OPEN has the alias for its source and the destination that the relay gives it. -/
theorem rewriteRelayOpen_open (inbound outbound : Option ConnectionId)
    (halias : relayReceiveCid.value ≠ 0) (clientCid : ConnectionId) (hnumber : packetNumber < 256)
    (h : offer.Valid) : rewriteRelayOpen
      (longPacket (bootstrapHeader inbound (some clientCid) packetNumber) (offer.frame 0))
        outbound relayReceiveCid defaultMaxPacketSize =
      .ok (longPacket (bootstrapHeader outbound (some relayReceiveCid) packetNumber)
        (offer.frame 0)) := by
  have hlength := offer.length_frame_le 0
  have hdecode := decodeLongPacket_bootstrap none (some clientCid) hnumber hlength
  rw [rewriteRelayOpen, if_neg halias,
    rewriteBootstrapDestination_open inbound clientCid hnumber offer, ok_bind,
    decodeBootstrapOpenPacketWithLimits_eq clientCid hnumber h, hdecode]
  simp only [ok_bind, drop_longPacket, take_length]
  exact encodeLongPacket_bootstrap outbound (some relayReceiveCid) hnumber (offer.frame_ne_nil 0)
    hlength

end Relay

/-! ## Round trips -/

/-- Every OPEN and OPEN_ACK arrives as it was sent, relayed or not, and the listener tells the two
and the established packets apart. -/
theorem bootstrap_packets_roundTrip {clientCid serverCid : ConnectionId}
    (hclient : clientCid.value ≠ 0) (hserver : serverCid.value ≠ 0) (hne : clientCid ≠ serverCid)
    {packetNumber : Nat} (hnumber : packetNumber < 256) {limits : ConnectionLimits}
    (hlimits : limits.Advertisable) (maxInFlightPackets : UInt16)
    (token : Option StatelessResetToken) {request : Option ReceiveWindowRequest}
    (hrequest : ∀ r ∈ request, r.Valid) :
    (∃ packet header, encodeBootstrapOpenPacket clientCid packetNumber limits maxInFlightPackets
      token request defaultMaxPacketSize = .ok packet ∧
        packet = openPacket none clientCid packetNumber limits maxInFlightPackets token request ∧
        decodeBootstrapOpenPacketWithLimits packet =
          .ok (header, ⟨clientCid, limits.maxData, limits.maxStreamData,
            limits.maxDatagramFrameSize, maxInFlightPackets, token, request⟩) ∧
        header.packetNumber = packetNumber ∧
        classifyServerPacket packet =
          .ok (.initial ⟨clientCid, limits.maxData, limits.maxStreamData,
            limits.maxDatagramFrameSize, maxInFlightPackets, token, request⟩)) ∧
      (∃ packet header, encodeBootstrapOpenAckPacket clientCid serverCid packetNumber limits
        maxInFlightPackets token defaultMaxPacketSize = .ok packet ∧
        decodeBootstrapOpenAckPacketWithLimits packet clientCid =
          .ok (header, ⟨serverCid, limits.maxData, limits.maxStreamData,
            limits.maxDatagramFrameSize, maxInFlightPackets, token⟩) ∧
        header.packetNumber = packetNumber ∧
        classifyServerPacket packet = .ok (.bootstrapAck clientCid)) ∧
      (∀ (inbound outbound : Option ConnectionId) (relayReceiveCid : ConnectionId),
        relayReceiveCid.value ≠ 0 →
        rewriteRelayOpen (openPacket inbound clientCid packetNumber limits maxInFlightPackets token
          request) outbound relayReceiveCid defaultMaxPacketSize =
          .ok (openPacket outbound relayReceiveCid packetNumber limits maxInFlightPackets token
            request)) ∧
      (∀ (packet : Bytes) (header : ShortHeader) (used : Nat), isLongHeader packet = false →
        ShortHeader.decode packet = .ok (header, used) →
          classifyServerPacket packet = .ok (.established header.dcid)) := by
  have hopen : Offer.Valid ⟨limits, maxInFlightPackets, token, request⟩ := ⟨hlimits, hrequest⟩
  have hack : Offer.Valid ⟨limits, maxInFlightPackets, token, none⟩ := ⟨hlimits, by simp⟩
  refine ⟨?_, ?_, ?_, ?_⟩
  · have hdecode := decodeBootstrapOpenPacketWithLimits_eq clientCid hnumber hopen
    have hencode := encodeBootstrapOpenPacket_eq hclient hnumber hopen
    exact ⟨_, _, hencode, rfl, hdecode, rfl, classifyServerPacket_of_open hdecode⟩
  · obtain ⟨packet, hencode, hdecode⟩ :=
      bootstrapOpenAck_eq hclient hserver hne hnumber hack rfl
    exact ⟨_, _, hencode, hdecode, rfl, classifyServerPacket_of_openAck hdecode⟩
  · intro inbound outbound relayReceiveCid halias
    have hrewrite := rewriteRelayOpen_open inbound outbound halias clientCid hnumber hopen
    exact hrewrite
  · intro packet header used hshort hdecode
    exact classifyServerPacket_of_short hshort hdecode

/-- A profile of version 7, which has all of the optional parts. -/
theorem full_profile_roundTrip :
    ∃ packet, encodeBootstrapOpenPacket ⟨5, by decide⟩ 200 ⟨1200, 2 ^ 61, 4096, 16, 4⟩ 12
        (some ⟨replicate 16 7, rfl⟩) (some ⟨1, 2 ^ 61⟩) defaultMaxPacketSize = .ok packet ∧
      classifyServerPacket packet = .ok (.initial ⟨⟨5, by decide⟩, 2 ^ 61, 4096, 1200, 12,
        some ⟨replicate 16 7, rfl⟩, some ⟨1, 2 ^ 61⟩⟩) := by
  have hrequest : ∀ r ∈ some (⟨1, 2 ^ 61⟩ : ReceiveWindowRequest), r.Valid := by
    rintro r hr
    cases hr
    exact ⟨by decide, by decide⟩
  obtain ⟨⟨packet, header, hencode, -, -, -, hclass⟩, -, -, -⟩ :=
    bootstrap_packets_roundTrip (show (⟨5, by decide⟩ : ConnectionId).value ≠ 0 by decide)
      (show (⟨9, by decide⟩ : ConnectionId).value ≠ 0 by decide) (by decide)
        (show 200 < 256 by decide)
      (show (⟨1200, 2 ^ 61, 4096, 16, 4⟩ : ConnectionLimits).Advertisable from ⟨by decide,
        by decide, by decide⟩) 12
      (some ⟨replicate 16 7, rfl⟩) hrequest
  exact ⟨packet, hencode, hclass⟩

end QuicLite
