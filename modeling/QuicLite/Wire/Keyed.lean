import QuicLite.Wire.Header

/-!
# Protected packets

A build with packet protection reads the key-phase bit as the mark of a protected packet. The body
of such a packet is sealed under a nonce made from its number, with the header as associated data;
the destination in that data is the receiver's own id, since relays rewrite the one on the wire. The
cipher itself is a parameter.
-/

namespace QuicLite

open BigEndian List Nat ShortHeader

/-! ## Headers with a key phase -/

variable {n a b : Nat}

def flagProtected : UInt8 := flagKeyPhase

namespace ShortHeader

/-- Only the reserved bits are cleared. -/
def keyedFirstByte (flags : UInt8) (pnLen : Nat) : UInt8 :=
  (flags &&& ~~~flagReserved) ||| flagFixed ||| (UInt8.ofNat (pnLen - 1) &&& 3)

def keyedBytes (h : ShortHeader) : Bytes :=
  keyedFirstByte h.flags (clampLen h.packetNumberLen) ::
    (h.dcid.bytes ++ toBytes (clampLen h.packetNumberLen) h.packetNumber)

def encodeKeyed (h : ShortHeader) (capacity : Nat) : Except Error Bytes :=
  if capacity < 1 + h.dcid.encodedLen + clampLen h.packetNumberLen then .error .bufferTooSmall
  else .ok h.keyedBytes

/-- `decode_prefix`, which lets the key phase pass. -/
def decodePrefixKeyed (input : Bytes) : Except Error ShortHeaderPrefix :=
  match input with
  | [] => .error .truncated
  | first :: rest =>
    if first &&& flagFixed = 0 ∨ first &&& flagReserved ≠ 0 then .error .invalid
    else do
      let pnLen := (first &&& 3).toNat + 1
      let (dcid, cidLen) ← ConnectionId.decode rest
      if input.length < 1 + cidLen + pnLen then .error .truncated
      else
        .ok {
          flags := first
          dcid := dcid
          truncatedPacketNumber := ofBytes 0 ((rest.drop cidLen).take pnLen)
          packetNumberLen := pnLen
          headerLen := 1 + cidLen + pnLen }

def decodeWithExpectedKeyed (input : Bytes) (expected : Nat) :
    Except Error (ShortHeader × Nat) := do
  let lead ← decodePrefixKeyed input
  let header ← lead.reconstruct expected
  .ok (header, lead.headerLen)

end ShortHeader

/-! ## Keys -/

def aeadTagLen : Nat := 16

/-- A key and the base of its nonces. -/
structure DirectionKey where
  key : Bytes
  iv : Bytes
  length_key : key.length = 16
  length_iv : iv.length = 12
  deriving DecidableEq

/-- The packet number goes into the low 32 bits of the base. -/
def DirectionKey.nonce (self : DirectionKey) (packetNumber : Nat) : Bytes :=
  self.iv.take 8 ++ zipWith (· ^^^ ·) (self.iv.drop 8) (toBytes 4 packetNumber)

/-- The keys of one endpoint. -/
structure EndpointProtection where
  send : DirectionKey
  receive : DirectionKey
  deriving DecidableEq

structure TrafficKeys where
  clientToServer : DirectionKey
  serverToClient : DirectionKey

def TrafficKeys.forRole (self : TrafficKeys) : Role → EndpointProtection
  | .client => ⟨self.clientToServer, self.serverToClient⟩
  | .server => ⟨self.serverToClient, self.clientToServer⟩

/-- An authenticated cipher that works in place: key, nonce, associated data and body give as long a
body and a tag. -/
structure Aead where
  encrypt : Bytes → Bytes → Bytes → Bytes → Bytes × Bytes
  decrypt : Bytes → Bytes → Bytes → Bytes → Bytes → Option Bytes
  length_body : ∀ key nonce aad body, (encrypt key nonce aad body).1.length = body.length
  length_tag : ∀ key nonce aad body, (encrypt key nonce aad body).2.length = aeadTagLen

/-- The tag of the concrete runs holds the associated data, with their length before and zeros
behind them. -/
def plainTag (aad : Bytes) : Bytes :=
  (UInt8.ofNat aad.length :: (aad ++ replicate 15 0)).take 16

theorem length_plainTag (aad : Bytes) : (plainTag aad).length = aeadTagLen := by
  simp [plainTag, aeadTagLen]

/-- A cipher that authenticates and hides nothing. -/
def plainAead : Aead where
  encrypt _ _ aad body := (body, plainTag aad)
  decrypt _ _ aad body tag := if tag = plainTag aad then some body else none
  length_body _ _ _ _ := rfl
  length_tag _ _ aad _ := length_plainTag aad

def DirectionKey.seal (aead : Aead) (self : DirectionKey) (packetNumber : Nat)
    (associatedData body : Bytes) : Bytes × Bytes :=
  aead.encrypt self.key (self.nonce packetNumber) associatedData body

def DirectionKey.unseal (aead : Aead) (self : DirectionKey) (packetNumber : Nat)
    (associatedData body tag : Bytes) : Option Bytes :=
  aead.decrypt self.key (self.nonce packetNumber) associatedData body tag

/-- The header as associated data, with the endpoint's id as its destination. -/
def canonicalShortHeaderAad (header : ShortHeader) (endpointDcid : ConnectionId) :
    Except Error Bytes :=
  if endpointDcid.value = 0 then .error .invalid
  else { header with dcid := endpointDcid }.encodeKeyed 16

/-! ## Sealing and opening one packet -/

/-- `protect_packet_in_place`, for a sender that reaches the receiver as `destination` and whose
next number is `expected`. The body of the packet becomes ciphertext and the tag goes behind it. -/
def protectPacket (aead : Aead) (key : DirectionKey) (destination : ConnectionId) (expected : Nat)
    (packet : Bytes) (capacity : Nat) : Except Error Bytes :=
  if capacity < packet.length then .error .truncated
  else do
    let (header, headerLen) ← decodeWithExpectedKeyed packet expected
    if header.flags &&& flagProtected ≠ 0 ∨ header.dcid ≠ destination then .error .invalid
    else if capacity < packet.length + aeadTagLen then .error .bufferTooSmall
    else do
      let aad ← canonicalShortHeaderAad { header with
          flags := header.flags ||| flagProtected } destination
      let (body, tag) := key.seal aead header.packetNumber aad (packet.drop headerLen)
      .ok ((packet.take headerLen).modifyHead (· ||| flagProtected) ++ (body ++ tag))

/-- `open_packet_in_place`, for a receiver that is reached as `localCid`: the packet without its
tag. -/
def openProtected (aead : Aead) (key : DirectionKey) (localCid : ConnectionId) (expected : Nat)
    (packet : Bytes) : Except Error Bytes := do
  let (header, headerLen) ← decodeWithExpectedKeyed packet expected
  if header.flags &&& flagProtected = 0 ∨ header.dcid ≠ localCid then .error .invalid
  else if packet.length < headerLen + aeadTagLen then .error .truncated
  else do
    let bodyEnd := packet.length - aeadTagLen
    let aad ← canonicalShortHeaderAad header localCid
    match key.unseal aead header.packetNumber aad ((packet.take bodyEnd).drop headerLen)
      (packet.drop bodyEnd) with
    | some body => .ok (packet.take headerLen ++ body)
    | none => .error .invalid

/-! ## Nonces -/

theorem zipWith_xor_injective {pad : Bytes} :
    ∀ {xs ys : Bytes}, xs.length = pad.length → ys.length = pad.length →
      zipWith (· ^^^ ·) pad xs = zipWith (· ^^^ ·) pad ys → xs = ys := by
  induction pad with
  | nil =>
    intro xs ys hxs hys _
    rw [length_eq_zero_iff.mp hxs, length_eq_zero_iff.mp hys]
  | cons p pad ih =>
    intro xs ys hxs hys h
    obtain ⟨x, xs, rfl⟩ := exists_cons_of_length_eq_add_one hxs
    obtain ⟨y, ys, rfl⟩ := exists_cons_of_length_eq_add_one hys
    rw [zipWith_cons_cons, zipWith_cons_cons, cons.injEq] at h
    have hhead : x = y := by
      have hcancel := congrArg (p ^^^ ·) h.1
      simpa only [← UInt8.xor_assoc, UInt8.xor_self, UInt8.zero_xor] using hcancel
    rw [hhead, ih (succ.inj hxs) (succ.inj hys) h.2]

theorem toBytes_injective (ha : a < 256 ^ n) (hb : b < 256 ^ n) (h : toBytes n a = toBytes n b) :
    a = b := by
  have hread := congrArg (ofBytes 0) h
  rw [ofBytes_toBytes, ofBytes_toBytes, mod_eq_of_lt ha, mod_eq_of_lt hb] at hread
  omega

/-- Under one key every packet number has a nonce of its own. -/
theorem DirectionKey.nonce_injective (key : DirectionKey) (ha : a ≤ u32Max) (hb : b ≤ u32Max)
    (h : key.nonce a = key.nonce b) : a = b := by
  have hdrop : (key.iv.drop 8).length = 4 := by
    rw [length_drop, key.length_iv]
  have hlow := append_cancel_left h
  have hbytes := zipWith_xor_injective (by rw [length_toBytes, hdrop])
    (by rw [length_toBytes, hdrop]) hlow
  exact toBytes_injective (lt_succ_of_le ha) (lt_succ_of_le hb) hbytes

/-! ## Reading headers -/

namespace ShortHeader

theorem keyedFirstByte_spec {pnLen : Nat} (h : 1 ≤ pnLen ∧ pnLen ≤ 4) :
    firstByte flagFixed pnLen = keyedFirstByte flagFixed pnLen ∧ keyedFirstByte flagFixed pnLen &&&
      flagProtected = 0 ∧
      keyedFirstByte (keyedFirstByte flagFixed pnLen ||| flagProtected) pnLen =
        keyedFirstByte flagFixed pnLen ||| flagProtected ∧
      ∀ first, first = keyedFirstByte flagFixed pnLen ∨ first = keyedFirstByte flagFixed pnLen |||
        flagProtected →
        ¬(first &&& flagFixed = 0 ∨ first &&& flagReserved ≠ 0) ∧ (first &&& 3).toNat +
          1 = pnLen := by
  obtain ⟨hlow, hhigh⟩ := h
  interval_cases pnLen
  all_goals
    refine ⟨by decide, by decide, by decide, fun first hfirst => ?_⟩
    rcases hfirst with rfl | rfl <;> decide

section

variable {first : UInt8} {pnLen : Nat}
    (hflags : ¬(first &&& flagFixed = 0 ∨ first &&& flagReserved ≠ 0))
    (hlen : (first &&& 3).toNat + 1 = pnLen) (dcid : ConnectionId)
include hflags hlen

/-- A first byte with these digits, a destination and what follows. -/
theorem decodePrefixKeyed_cons (n : Nat) (rest : Bytes) :
    decodePrefixKeyed (first :: (dcid.bytes ++ (toBytes pnLen n ++ rest))) =
      .ok ⟨first, dcid, n % 256 ^ pnLen, pnLen, 1 + dcid.encodedLen + pnLen⟩ := by
  have hdrop : (dcid.bytes ++ (toBytes pnLen n ++ rest)).drop dcid.encodedLen =
      toBytes pnLen n ++ rest :=
    drop_left' dcid.length_bytes
  have htake : (toBytes pnLen n ++ rest).take pnLen = toBytes pnLen n :=
    take_left' (length_toBytes pnLen n)
  simp only [decodePrefixKeyed, if_neg hflags, ConnectionId.decode_bytes, ok_bind, hlen, hdrop,
    htake, ofBytes_toBytes, zero_mul, zero_add]
  rw [if_neg]
  simp only [length_cons, length_append, ConnectionId.length_bytes, length_toBytes]
  omega

/-- Where the expectation is near enough, the number comes back. -/
theorem decodeWithExpectedKeyed_cons {expected : Nat}
    (hread : reconstructNumber pnLen (n % 256 ^ pnLen) expected = .ok n) (rest : Bytes) :
    decodeWithExpectedKeyed (first :: (dcid.bytes ++ (toBytes pnLen n ++ rest))) expected =
      .ok (⟨first, dcid, n, pnLen⟩, 1 + dcid.encodedLen + pnLen) := by
  rw [decodeWithExpectedKeyed, decodePrefixKeyed_cons hflags hlen, ok_bind,
    ShortHeaderPrefix.reconstruct]
  simp [hread]

end

end ShortHeader

/-! ## What is sealed -/

def sealedFirst (pnLen : Nat) : UInt8 :=
  keyedFirstByte flagFixed pnLen ||| flagProtected

def sealedAad (endpointDcid : ConnectionId) (pnLen n : Nat) : Bytes :=
  sealedFirst pnLen :: (endpointDcid.bytes ++ toBytes pnLen n)

/-- A packet that was sealed for one destination and is on its way to another. -/
def sealedPacket (aead : Aead) (key : DirectionKey) (endpointDcid wireDcid : ConnectionId)
    (pnLen n : Nat) (body : Bytes) : Bytes :=
  sealedFirst pnLen :: (wireDcid.bytes ++ (toBytes pnLen n ++
    ((key.seal aead n (sealedAad endpointDcid pnLen n) body).1 ++
      (key.seal aead n (sealedAad endpointDcid pnLen n) body).2)))

section Sealing

variable {aead : Aead} {key : DirectionKey} {pnLen n expected : Nat}

section

variable (hbounds : 1 ≤ pnLen ∧ pnLen ≤ 4)
variable {dcid : ConnectionId}
include hbounds

theorem canonicalShortHeaderAad_eq {endpointDcid : ConnectionId} (hzero : endpointDcid.value ≠ 0)
    (dcid : ConnectionId) :
    canonicalShortHeaderAad ⟨sealedFirst pnLen, dcid, n, pnLen⟩ endpointDcid =
      .ok (sealedAad endpointDcid pnLen n) := by
  have hclamp : clampLen pnLen = pnLen := by
    unfold clampLen
    omega
  have hwidth := endpointDcid.encodedLen_le
  obtain ⟨-, -, hfirst, -⟩ := keyedFirstByte_spec hbounds
  rw [canonicalShortHeaderAad, if_neg hzero, encodeKeyed, if_neg (by simp only; omega), keyedBytes]
  simp only [hclamp]
  rw [show keyedFirstByte (sealedFirst pnLen) pnLen = sealedFirst pnLen from hfirst]
  rfl

open ShortHeader

/-- The bytes of a fresh header, as a build with protection writes them. -/
theorem ShortHeader.bytes_append (body : Bytes) :
    (⟨flagFixed, dcid, n, pnLen⟩ : ShortHeader).bytes ++ body =
      keyedFirstByte flagFixed pnLen :: (dcid.bytes ++ (toBytes pnLen n ++ body)) := by
  have hclamp : clampLen pnLen = pnLen := by
    unfold clampLen
    omega
  simp only [bytes, hclamp, (keyedFirstByte_spec hbounds).1, cons_append, append_assoc]

/-- A packet that is protected was for this destination, and its body is sealed under its number. -/
theorem protectPacket_ok
    (hread : reconstructNumber pnLen (n % 256 ^ pnLen) expected = .ok n)
    {destination : ConnectionId} {body out : Bytes} {capacity : Nat}
    (h : protectPacket aead key destination expected
      ((⟨flagFixed, dcid, n, pnLen⟩ : ShortHeader).bytes ++ body) capacity = .ok out) :
    dcid = destination ∧ destination.value ≠ 0 ∧
      out = sealedPacket aead key destination destination pnLen n body := by
  obtain ⟨-, hplain, -, hfirst⟩ := keyedFirstByte_spec hbounds
  obtain ⟨hflags, hlen⟩ := hfirst _ (.inl rfl)
  rw [bytes_append hbounds] at h
  unfold protectPacket at h
  split at h
  · cases h
  rw [decodeWithExpectedKeyed_cons hflags hlen dcid hread, ok_bind] at h
  simp only at h
  split at h
  · cases h
  rename_i hrefused
  obtain ⟨-, hdcid⟩ := not_or.mp hrefused
  obtain rfl := not_not.mp hdcid
  split at h
  · cases h
  obtain ⟨aad, haad, h⟩ := bind_eq_ok.mp h
  have hzero : dcid.value ≠ 0 := by
    intro hzero
    rw [canonicalShortHeaderAad, if_pos hzero] at haad
    cases haad
  have hexact := haad.symm.trans (canonicalShortHeaderAad_eq hbounds hzero dcid)
  obtain rfl := Except.ok.inj hexact
  have hsplit : keyedFirstByte flagFixed pnLen :: (dcid.bytes ++ (toBytes pnLen n ++ body)) =
      (keyedFirstByte flagFixed pnLen :: (dcid.bytes ++ toBytes pnLen n)) ++ body := by
    rw [cons_append, append_assoc]
  have hlead : (keyedFirstByte flagFixed pnLen :: (dcid.bytes ++ toBytes pnLen n)).length =
      1 + dcid.encodedLen + pnLen := by
    simp only [length_cons, length_append, ConnectionId.length_bytes, length_toBytes]
    omega
  rw [hsplit, drop_left' hlead, take_left' hlead] at h
  refine ⟨rfl, hzero, (Except.ok.inj h).symm.trans ?_⟩
  simp only [modifyHead_cons, sealedPacket, cons_append, append_assoc, sealedFirst]

/-- The receiver takes apart what was sealed, with its own id in the associated data. -/
theorem openProtected_sealedPacket
    (hread : reconstructNumber pnLen (n % 256 ^ pnLen) expected = .ok n) {localCid : ConnectionId}
    (hzero : localCid.value ≠ 0) (receive : DirectionKey) (endpointDcid : ConnectionId)
    (body : Bytes) : openProtected aead receive localCid expected
      (sealedPacket aead key endpointDcid localCid pnLen n body) =
      (receive.unseal aead n (sealedAad localCid pnLen n)
        (key.seal aead n (sealedAad endpointDcid pnLen n) body).1
        (key.seal aead n (sealedAad endpointDcid pnLen n) body).2).elim (.error .invalid)
          fun opened =>
            .ok (sealedFirst pnLen :: (localCid.bytes ++ toBytes pnLen n) ++ opened) := by
  obtain ⟨hflags, hlen⟩ := (keyedFirstByte_spec hbounds).2.2.2 _ (.inr rfl)
  have hmarked : sealedFirst pnLen &&& flagProtected ≠ 0 := by
    obtain ⟨hlow, hhigh⟩ := hbounds
    interval_cases pnLen <;> decide
  have htag : (key.seal aead n (sealedAad endpointDcid pnLen n) body).2.length = aeadTagLen :=
    aead.length_tag _ _ _ _
  have haad := canonicalShortHeaderAad_eq (n := n) hbounds hzero localCid
  have hdecode := decodeWithExpectedKeyed_cons hflags hlen localCid hread
    ((key.seal aead n (sealedAad endpointDcid pnLen n) body).1 ++
      (key.seal aead n (sealedAad endpointDcid pnLen n) body).2)
  unfold sealedPacket
  change decodeWithExpectedKeyed (sealedFirst pnLen :: _) expected =
    .ok (⟨sealedFirst pnLen, _, _, _⟩, _) at hdecode
  generalize key.seal aead n (sealedAad endpointDcid pnLen n) body = parts at htag hdecode ⊢
  obtain ⟨cipher, tag⟩ := parts
  have hlead : (sealedFirst pnLen :: (localCid.bytes ++ toBytes pnLen n)).length = 1 +
      localCid.encodedLen + pnLen := by
    simp only [length_cons, length_append, ConnectionId.length_bytes, length_toBytes]
    omega
  have hsplit : sealedFirst pnLen :: (localCid.bytes ++ (toBytes pnLen n ++ (cipher ++ tag))) =
      (sealedFirst pnLen :: (localCid.bytes ++ toBytes pnLen n)) ++ (cipher ++ tag) := by
    simp
  rw [hsplit] at hdecode ⊢
  rw [← hlead] at hdecode
  generalize sealedFirst pnLen :: (localCid.bytes ++ toBytes pnLen n) = lead at hdecode ⊢
  have hend : (lead ++ (cipher ++ tag)).length - aeadTagLen = (lead ++ cipher).length := by
    rw [← append_assoc, (length_append : ((lead ++ cipher) ++ tag).length = _), htag,
      Nat.add_sub_cancel]
  unfold openProtected
  rw [hdecode, ok_bind]
  simp only
  rw [if_neg (not_or.mpr ⟨hmarked, not_not_intro rfl⟩), if_neg, haad, ok_bind, hend,
    ← append_assoc, take_left, drop_left, drop_left, append_assoc,
    take_left]
  · cases receive.unseal aead n (sealedAad localCid pnLen n) cipher tag <;> rfl
  · simp only [length_append, htag]
    omega

end

end Sealing

end QuicLite
