import QuicLite.Endpoint.Nonces
import QuicLite.Relay.Rewrite

/-!
# Opening at the far end

Both ends derive the same keys. A packet is sealed with the sender's idea of its peer's id on a path
as destination, and opened with the receiver's own id there. Relays rewrite the id on the wire only,
so that a packet opens exactly where the two ids agree: on every direct path, and on a relayed path
only where the first relay hands out the receiver's own id.
-/

namespace QuicLite

open BigEndian List Option Except ConnectionId

/-! ## Deriving keys -/

variable {wire : Bytes} {hops : List (ConnectionId × Nat)}
variable {material : Bytes}

/-- The key schedule: salt, secret and context give a key and the base of its nonces. -/
structure Hkdf where
  expand : Bytes → Bytes → Bytes → Bytes
  length_expand : ∀ salt psk info, (expand salt psk info).length = 28

/-- `b"dmesh/quic-lite/traffic/v1/"` -/
def trafficLabel : Bytes :=
  [0x64, 0x6d, 0x65, 0x73, 0x68, 0x2f, 0x71, 0x75, 0x69, 0x63, 0x2d, 0x6c, 0x69, 0x74, 0x65, 0x2f,
    0x74, 0x72, 0x61, 0x66, 0x66, 0x69, 0x63, 0x2f, 0x76, 0x31, 0x2f]

theorem length_traffic_key (h : material.length = 28) : (material.take 16).length = 16 := by
  rw [length_take, h]
  rfl

theorem length_traffic_iv (h : material.length = 28) : (material.drop 16).length = 12 := by
  rw [length_drop, h]

def DirectionKey.new (material : Bytes) (h : material.length = 28) : DirectionKey :=
  ⟨material.take 16, material.drop 16, length_traffic_key h, length_traffic_iv h⟩

def deriveTrafficKeys (hkdf : Hkdf) (psk clientRandom serverRandom : Bytes)
    (clientCid serverCid : ConnectionId) : Except Error TrafficKeys :=
  if clientCid.value = 0 ∨ serverCid.value = 0 ∨ clientCid = serverCid then .error .invalid
  else
    let salt := clientRandom ++ serverRandom
    let context := trafficLabel ++ (toBytes 8 clientCid.value ++ toBytes 8 serverCid.value)
    -- `c2s\0` and `s2c\0`
    .ok ⟨.new (hkdf.expand salt psk (context ++ [0x63, 0x32, 0x73, 0])) (hkdf.length_expand _ _ _),
      .new (hkdf.expand salt psk (context ++ [0x73, 0x32, 0x63, 0])) (hkdf.length_expand _ _ _)⟩

namespace EndpointState

variable {P : Nat} {hkdf : Hkdf} {s : EndpointState P} {psk clientRandom serverRandom : Bytes}

/-- `configure_packet_protection`, for an endpoint with or without keys. -/
def configurePacketProtection (hkdf : Hkdf) (self : EndpointState P)
    (protection : Option EndpointProtection) (psk clientRandom serverRandom : Bytes) :
    Except Error EndpointProtection :=
  if protection.isSome ∨ self.nextPacketNumber ≠ 0 ∨ self.highestReceivedPacket.isSome then
    .error .invalid
  else
    match self.localCid, self.peerCid with
    | none, _ => .error .wrongConnectionId
    | some _, none => .error .wrongConnectionId
    | some localCid, some peerCid => do
        let cids :=
          match self.receive.role with
          | .client => (localCid, peerCid)
          | .server => (peerCid, localCid)
        let keys ← deriveTrafficKeys hkdf psk clientRandom serverRandom cids.1 cids.2
        .ok (keys.forRole self.receive.role)

/-- The keys of a client with this server. -/
theorem configurePacketProtection_ok {protection : EndpointProtection}
    (h : s.configurePacketProtection hkdf none psk clientRandom serverRandom = .ok protection) :
    ∃ clientCid serverCid keys,
      deriveTrafficKeys hkdf psk clientRandom serverRandom clientCid serverCid = .ok keys ∧
      protection = keys.forRole s.receive.role ∧
      (s.receive.role = .client → s.localCid = some clientCid ∧ s.peerCid = some serverCid) ∧
      (s.receive.role = .server → s.localCid = some serverCid ∧ s.peerCid = some clientCid) := by
  unfold configurePacketProtection at h
  split at h
  · cases h
  split at h
  · cases h
  · cases h
  rename_i localCid peerCid hlocal hpeer
  obtain ⟨keys, hkeys, h⟩ := bind_eq_ok.mp h
  have hprotection := (ok.inj h).symm
  cases hrole : s.receive.role with
  | client =>
    rw [hrole] at hkeys hprotection
    exact ⟨localCid, peerCid, keys, hkeys, hprotection, fun _ => ⟨hlocal, hpeer⟩,
      (fun hne => by cases hne)⟩
  | server =>
    rw [hrole] at hkeys hprotection
    exact ⟨peerCid, localCid, keys, hkeys, hprotection, (fun hne => by cases hne), fun _ =>
      ⟨hlocal, hpeer⟩⟩

/-- The two ends of an association: opposite roles, each the other's peer, and keys from the same
secret. -/
structure Paired {Q : Nat} (hkdf : Hkdf) (psk clientRandom serverRandom : Bytes)
    (s : EndpointState P) (r : EndpointState Q)
    (sending receiving : EndpointProtection) : Prop where
  roles : s.receive.role ≠ r.receive.role
  forward : s.peerCid = r.localCid
  backward : s.localCid = r.peerCid
  sender : s.configurePacketProtection hkdf none psk clientRandom serverRandom = .ok sending
  receiver : r.configurePacketProtection hkdf none psk clientRandom serverRandom = .ok receiving

/-- What one end sends with, the other receives with. -/
theorem Paired.keys {Q : Nat} {r : EndpointState Q} {sending receiving : EndpointProtection}
    (h : Paired hkdf psk clientRandom serverRandom s r sending receiving) :
    receiving.receive = sending.send := by
  obtain ⟨sClient, sServer, sKeys, hsKeys, rfl, hsClient, hsServer⟩ :=
    configurePacketProtection_ok h.sender
  obtain ⟨rClient, rServer, rKeys, hrKeys, rfl, hrClient, hrServer⟩ :=
    configurePacketProtection_ok h.receiver
  have hroles := h.roles
  have hforward := h.forward
  have hbackward := h.backward
  cases hs : s.receive.role with
  | client =>
    cases hr : r.receive.role with
    | client => exact absurd (hs.trans hr.symm) hroles
    | server =>
      rw [(hsClient hs).2, (hrServer hr).1] at hforward
      rw [(hsClient hs).1, (hrServer hr).2] at hbackward
      obtain rfl := some.inj hforward
      obtain rfl := some.inj hbackward
      obtain rfl := ok.inj (hsKeys.symm.trans hrKeys)
      rfl
  | server =>
    cases hr : r.receive.role with
    | server => exact absurd (hs.trans hr.symm) hroles
    | client =>
      rw [(hsServer hs).2, (hrClient hr).1] at hforward
      rw [(hsServer hs).1, (hrClient hr).2] at hbackward
      obtain rfl := some.inj hforward
      obtain rfl := some.inj hbackward
      obtain rfl := ok.inj (hsKeys.symm.trans hrKeys)
      rfl

end EndpointState

/-! ## Relays -/

/-- `rewrite_dcid` of a build with protection, where the key phase of a short header passes. -/
def rewriteDcidKeyed (input : Bytes) (outboundDcid : ConnectionId) (capacity : Nat) :
    Except Error Bytes :=
  if outboundDcid.value = 0 then .error .invalid
  else if isLongHeader input then rewriteDestination input (some outboundDcid) capacity
  else do
    let short ← ShortHeader.decodePrefixKeyed input
    let inboundLen := short.dcid.encodedLen
    if input.length < inboundLen then .error .invalid
    else if capacity < input.length - inboundLen + outboundDcid.encodedLen then
      .error .bufferTooSmall
    else do
      let encoded ← outboundDcid.encode (capacity - 1)
      .ok (input.take 1 ++ (encoded ++ input.drop (1 + inboundLen)))

/-- A packet on its way: each relay has the id that it writes, and room. -/
def forwardAlong : List (ConnectionId × Nat) → Bytes → Except Error Bytes
  | [], packet => .ok packet
  | (dcid, capacity) :: hops, packet => do
      let packet ← rewriteDcidKeyed packet dcid capacity
      forwardAlong hops packet

/-- The id that a packet arrives with. -/
def lastDcid (hops : List (ConnectionId × Nat)) (sent : ConnectionId) : ConnectionId :=
  (hops.getLast?.map (·.1)).getD sent

theorem lastDcid_cons (dcid : ConnectionId) (capacity : Nat) (hops : List (ConnectionId × Nat))
    (sent : ConnectionId) :
    lastDcid ((dcid, capacity) :: hops) sent = lastDcid hops dcid := by
  cases hops with
  | nil => rfl
  | cons next hops =>
    rfl

section Relays

variable {aead : Aead} {key : DirectionKey} {pnLen n : Nat} {endpointDcid wireDcid : ConnectionId}
    {body : Bytes}

/-- A relay exchanges the id on the wire and nothing else. -/
theorem rewriteDcidKeyed_sealedPacket (hbounds : 1 ≤ pnLen ∧ pnLen ≤ 4) {outbound : ConnectionId}
    {capacity : Nat} (h : rewriteDcidKeyed
      (sealedPacket aead key endpointDcid wireDcid pnLen n body) outbound capacity = .ok wire) :
    wire = sealedPacket aead key endpointDcid outbound pnLen n body := by
  obtain ⟨hflags, hlen⟩ :=
    (ShortHeader.keyedFirstByte_spec hbounds).2.2.2 (sealedFirst pnLen) (.inr rfl)
  have hshort : isLongHeader (sealedPacket aead key endpointDcid wireDcid pnLen n body) =
      false := by
    obtain ⟨hlow, hhigh⟩ := hbounds
    have hfirst : sealedFirst pnLen &&& 0x80 = 0 := by interval_cases pnLen <;> decide
    simp [sealedPacket, isLongHeader, hfirst]
  unfold rewriteDcidKeyed at h
  split at h
  · cases h
  rw [hshort, if_neg Bool.false_ne_true] at h
  unfold sealedPacket at h ⊢
  rw [ShortHeader.decodePrefixKeyed_cons hflags hlen, ok_bind] at h
  simp only at h
  split at h
  · cases h
  split at h
  · cases h
  obtain ⟨encoded, hencode, h⟩ := bind_eq_ok.mp h
  obtain ⟨-, rfl⟩ := encode_eq_ok.mp hencode
  rw [← ok.inj h, Nat.add_comm 1, drop_succ_cons, drop_left' wireDcid.length_bytes]
  rfl

theorem forwardAlong_sealedPacket (hbounds : 1 ≤ pnLen ∧ pnLen ≤ 4)
    (h : forwardAlong hops (sealedPacket aead key endpointDcid wireDcid pnLen n body) = .ok wire) :
    wire = sealedPacket aead key endpointDcid (lastDcid hops wireDcid) pnLen n body := by
  induction hops generalizing wireDcid with
  | nil => exact (ok.inj h).symm
  | cons hop hops ih =>
    obtain ⟨packet, hrewrite, h⟩ := bind_eq_ok.mp h
    rw [rewriteDcidKeyed_sealedPacket hbounds hrewrite] at h
    rw [ih h, lastDcid_cons]

/-- No relay writes the empty id. -/
theorem lastDcid_nonzero {sent : ConnectionId} (hsent : sent.value ≠ 0)
    {packet : Bytes} (h : forwardAlong hops packet = .ok wire) :
    (lastDcid hops sent).value ≠ 0 := by
  induction hops generalizing sent packet with
  | nil => exact hsent
  | cons hop hops ih =>
    obtain ⟨dcid, capacity⟩ := hop
    obtain ⟨next, hrewrite, h⟩ := bind_eq_ok.mp h
    have hdcid : dcid.value ≠ 0 := by
      intro hzero
      rw [rewriteDcidKeyed, if_pos hzero] at hrewrite
      cases hrewrite
    rw [lastDcid_cons]
    exact ih hdcid h

end Relays

/-! ## Delivery -/

/-- What is taken for granted of the cipher: it opens what it sealed, and refuses other associated
data. Associated data are headers, and shorter than a tag. -/
structure Aead.Authenticates (aead : Aead) : Prop where
  opens : ∀ key nonce aad body,
    aead.decrypt key nonce aad (aead.encrypt key nonce aad body).1
      (aead.encrypt key nonce aad body).2 = some body
  refuses : ∀ key nonce aad aad' body, aad.length < aeadTagLen → aad'.length < aeadTagLen →
    aad ≠ aad' →
    aead.decrypt key nonce aad' (aead.encrypt key nonce aad body).1
      (aead.encrypt key nonce aad body).2 = none

theorem ConnectionId.bytes_cancel {a b : ConnectionId} {tail : Bytes}
    (h : a.bytes ++ tail = b.bytes ++ tail) : a =
    b := by
  have hread := congrArg decode h
  rw [decode_bytes, decode_bytes] at hread
  exact congrArg Prod.fst (ok.inj hread)

section Delivery

variable {aead : Aead} {P Q : Nat} {protection : EndpointProtection} {s : EndpointState P}
    {sendPath : Nat} {pkt : Packet} {body : Bytes} {r : EndpointState Q}
    {receiving : EndpointProtection} {pathId : Nat} {localCid : ConnectionId}

theorem length_sealedAad_lt {pnLen : Nat} (hbounds : 1 ≤ pnLen ∧ pnLen ≤ 4) (cid : ConnectionId)
    (n : Nat) :
    (sealedAad cid pnLen n).length < aeadTagLen := by
  have hwidth := cid.encodedLen_le
  simp only [sealedAad, length_cons, length_append, length_bytes, length_toBytes, aeadTagLen]
  omega

/-- A delivered packet opens where both ends mean the same id, and is refused elsewhere. -/
theorem openPacketInPlace_delivered (haead : aead.Authenticates)
    (hseals : EndpointState.Seals aead protection s sendPath pkt body)
    (hkeys : receiving.receive = protection.send) (hwire : forwardAlong hops pkt.bytes = .ok wire)
    (hlocal : r.localConnectionIdOnPath pathId = some localCid)
    (hlast : lastDcid hops pkt.header.dcid = localCid)
    (hread : reconstructNumber pkt.header.packetNumberLen
      (s.nextPacketNumber % 256 ^ pkt.header.packetNumberLen)
      r.expectedPacketNumber = .ok s.nextPacketNumber) :
    r.openPacketInPlace aead receiving pathId wire = if pkt.header.dcid = localCid then
        .ok (sealedFirst pkt.header.packetNumberLen ::
          (localCid.bytes ++ toBytes pkt.header.packetNumberLen s.nextPacketNumber) ++ body)
      else .error .invalid := by
  have hdigits := hseals.digits
  have hnonzero : localCid.value ≠ 0 := by
    rw [← hlast]
    exact lastDcid_nonzero hseals.nonzero hwire
  rw [hseals.bytes] at hwire
  have harrived := forwardAlong_sealedPacket hdigits hwire
  rw [hlast] at harrived
  unfold EndpointState.openPacketInPlace
  rw [hlocal, harrived]
  simp only
  rw [openProtected_sealedPacket hdigits hread hnonzero, hkeys]
  split
  · rename_i hsame
    rw [hsame]
    unfold DirectionKey.seal DirectionKey.unseal
    rw [haead.opens]
    rfl
  rename_i hother
  have haad : sealedAad pkt.header.dcid pkt.header.packetNumberLen s.nextPacketNumber ≠
      sealedAad localCid pkt.header.packetNumberLen s.nextPacketNumber := fun h =>
    hother (bytes_cancel (tail_eq_of_cons_eq h))
  unfold DirectionKey.seal DirectionKey.unseal
  rw [haead.refuses _ _ _ _ _ (length_sealedAad_lt hdigits _ _)
    (length_sealedAad_lt hdigits _ _) haad]
  rfl

/-- Every packet that one end emits, by whatever call, opens at the other end to the frames that
were sealed, if and only if the sender's id for its peer on the path is the id that the receiver has
there. -/
theorem delivered_opens_iff (haead : aead.Authenticates) {hkdf : Hkdf}
    {psk clientRandom serverRandom : Bytes} {sender : EndpointState P} {receiver : EndpointState Q}
    {sending : EndpointProtection}
    (hpaired : EndpointState.Paired hkdf psk clientRandom serverRandom sender receiver sending
      receiving) {op : EndpointState.Op} (hsent : pkt ∈ s.sentWith aead (some sending) op)
    {hops : List (ConnectionId × Nat)} {wire : Bytes}
    (hwire : forwardAlong hops pkt.bytes = .ok wire)
    (hlocal : r.localConnectionIdOnPath pathId = some localCid)
    (hlast : lastDcid hops pkt.header.dcid = localCid)
    (hread : reconstructNumber pkt.header.packetNumberLen
      (pkt.header.packetNumber % 256 ^ pkt.header.packetNumberLen)
      r.expectedPacketNumber = .ok pkt.header.packetNumber) :
    ∃ sendPath body, EndpointState.Seals aead sending s sendPath pkt body ∧
      ((∃ header, header.length = 1 + localCid.encodedLen + pkt.header.packetNumberLen ∧
          r.openPacketInPlace aead receiving pathId wire = .ok (header ++ body)) ↔
        s.peerConnectionIdOnPath sendPath = r.localConnectionIdOnPath pathId) := by
  obtain ⟨sendPath, body, seals⟩ := (EndpointState.sentWith_sends hsent).1.seals
  rw [seals.number] at hread
  have hopens := openPacketInPlace_delivered haead seals hpaired.keys hwire hlocal hlast hread
  refine ⟨sendPath, body, seals, ?_⟩
  rw [hopens, seals.peer, hlocal, some_inj]
  constructor
  · rintro ⟨header, -, h⟩
    by_contra hother
    rw [if_neg hother] at h
    cases h
  intro hsame
  rw [if_pos hsame]
  refine ⟨_, ?_, rfl⟩
  simp only [length_cons, length_append, length_bytes, length_toBytes]
  omega

end Delivery

/-! ## One relay -/

section Concrete

open EndpointState

theorem plainTag_injective {a b : Bytes} (ha : a.length < aeadTagLen) (hb : b.length < aeadTagLen)
    (h : plainTag a = plainTag b) : a = b := by
  have ha' : a.length < 16 := ha
  have hb' : b.length < 16 := hb
  have hlength : a.length = b.length := by
    have hhead := congrArg UInt8.toNat (cons.inj h).1
    rw [UInt8.toNat_ofNat', UInt8.toNat_ofNat'] at hhead
    omega
  have hlead : ∀ c : Bytes, c.length < 16 → c = (plainTag c).tail.take c.length := by
    intro c hc
    rw [plainTag, take_succ_cons, tail_cons, take_take, Nat.min_eq_left (by omega), take_left]
  rw [hlead a ha', hlead b hb', h, hlength]

theorem plainAead_authenticates : plainAead.Authenticates where
  opens _ _ _ _ := if_pos rfl
  refuses _ _ _ _ _ ha ha' hne := if_neg fun h => hne (plainTag_injective ha ha' h)

/-- A key schedule that hands out its context. -/
def plainExpand (info : Bytes) : Bytes := (info.drop 19 ++ List.replicate 28 0).take 28

theorem length_plainExpand (info : Bytes) : (plainExpand info).length = 28 := by
  simp [plainExpand]

def plainHkdf : Hkdf where
  expand _ _ info := plainExpand info
  length_expand _ _ info := length_plainExpand info

def freshServer : EndpointState 1100 :=
  newWithHistoryCapacity 1100 .server ⟨1000, 100000, 50000, 16, 4⟩ 1100 4

/-- The ids that the first relay and the opener hand out on the relayed path, and the server's own
one there. -/
def relayId : ConnectionId := ⟨9, by decide⟩
def openerId : ConnectionId := ⟨11, by decide⟩
def joinedId : ConnectionId := ⟨8, by decide⟩

def pairedClient : EndpointState 1100 :=
  freshClient.step (.config (.installConnectionIds clientId serverId))
def pairedServer : EndpointState 1100 :=
  freshServer.step (.config (.installConnectionIds serverId clientId))

/-- Path `1` runs through one relay. -/
def relayedClient : EndpointState 1100 := pairedClient.step (.addPathStateWithIds openerId relayId)
def relayedServer : EndpointState 1100 := pairedServer.step (.addPathStateWithIds joinedId relayId)

def keyToServer : DirectionKey :=
  .new (plainExpand (trafficLabel ++ (toBytes 8 5 ++ toBytes 8 7) ++ [0x63, 0x32, 0x73, 0]))
    (length_plainExpand _)

def keyToClient : DirectionKey :=
  .new (plainExpand (trafficLabel ++ (toBytes 8 5 ++ toBytes 8 7) ++ [0x73, 0x32, 0x63, 0]))
    (length_plainExpand _)

theorem paired_client_server :
    Paired plainHkdf [] [] [] pairedClient pairedServer ⟨keyToServer, keyToClient⟩
      ⟨keyToClient, keyToServer⟩ where
  roles := by decide
  forward := rfl
  backward := rfl
  sender := by decide +kernel
  receiver := by decide +kernel

/-- A Ping on the direct path, and one on the relayed path. -/
def directPing : Packet :=
  ⟨⟨flagFixed, serverId, 0, 4⟩, [.ping], [71, 7, 0, 0, 0, 0, 1, 6, 71, 7, 0, 0, 0, 0, 0, 0, 0, 0, 0,
    0, 0, 0, 0]⟩

def relayedPing : Packet :=
  ⟨⟨flagFixed, relayId, 0, 4⟩, [.ping], [71, 9, 0, 0, 0, 0, 1, 6, 71, 9, 0, 0, 0, 0, 0, 0, 0, 0, 0,
    0, 0, 0, 0]⟩

/-- On the direct path the Ping opens. -/
theorem directPing_opens : ∃ sendPath body,
    Seals plainAead ⟨keyToServer, keyToClient⟩ relayedClient sendPath directPing body ∧
    ((∃ header, header.length = 1 + serverId.encodedLen + directPing.header.packetNumberLen ∧
        relayedServer.openPacketInPlace plainAead ⟨keyToClient, keyToServer⟩ 0 directPing.bytes =
          .ok (header ++ body)) ↔
      relayedClient.peerConnectionIdOnPath sendPath = relayedServer.localConnectionIdOnPath 0) :=
  have hsent : directPing ∈ relayedClient.sentWith plainAead (some ⟨keyToServer, keyToClient⟩)
      (.encodePathControlPacket 0 serverId .ping 64) := mem_sentWith.mpr rfl
  have hwire : forwardAlong [] directPing.bytes = .ok directPing.bytes := rfl
  delivered_opens_iff plainAead_authenticates paired_client_server hsent hwire rfl rfl rfl

/-- The Ping of the relayed path, as it comes from the relay. -/
def forwardedPing : Bytes := [71, 8, 0, 0, 0, 0, 1, 6, 71, 9, 0, 0, 0, 0, 0, 0, 0, 0, 0, 0, 0, 0, 0]

/-- The relay's id is in the associated data, and the server's own one is where it is opened. -/
theorem relayedPing_refused : plainAead.Authenticates ∧
    Paired plainHkdf [] [] [] pairedClient pairedServer ⟨keyToServer, keyToClient⟩
      ⟨keyToClient, keyToServer⟩ ∧
    relayedPing ∈ relayedClient.sentWith plainAead (some ⟨keyToServer, keyToClient⟩)
      (.encodePathControlPacket 1 relayId .ping 64) ∧
    forwardAlong [(joinedId, 64)] relayedPing.bytes = .ok forwardedPing ∧
    relayedServer.localConnectionIdOnPath 1 = some joinedId ∧
    reconstructNumber 4 0 relayedServer.expectedPacketNumber = .ok 0 ∧
    relayedServer.openPacketInPlace plainAead ⟨keyToClient, keyToServer⟩ 1 forwardedPing =
      .error .invalid := by
  refine ⟨plainAead_authenticates, paired_client_server, mem_sentWith.mpr rfl, rfl, rfl,
    by decide, rfl⟩

end Concrete

end QuicLite
