import QuicLite.Wire.Bootstrap
import QuicLite.Wire.Keyed

/-!
# Stateless resets

An endpoint that no longer knows the destination of a packet answers with a reset: opaque bytes that
end with the token which it gave out together with the id. `encodeForUnknownCid_ok` says what a
reset looks like. It is no short packet, since its first two bits are cleared.
-/

namespace QuicLite

open BigEndian List

def statelessResetMinPacketLen : Nat := 21

/-- `b"dmesh/quic-lite/stateless-reset/v1"` -/
def statelessResetTokenLabel : Bytes :=
  [0x64, 0x6d, 0x65, 0x73, 0x68, 0x2f, 0x71, 0x75, 0x69, 0x63, 0x2d, 0x6c, 0x69, 0x74, 0x65, 0x2f,
    0x73, 0x74, 0x61, 0x74, 0x65, 0x6c, 0x65, 0x73, 0x73, 0x2d, 0x72, 0x65, 0x73, 0x65, 0x74, 0x2f,
    0x76, 0x31]

/-- `b"dmesh/quic-lite/stateless-reset/prefix/v1"` -/
def statelessResetPrefixLabel : Bytes :=
  [0x64, 0x6d, 0x65, 0x73, 0x68, 0x2f, 0x71, 0x75, 0x69, 0x63, 0x2d, 0x6c, 0x69, 0x74, 0x65, 0x2f,
    0x73, 0x74, 0x61, 0x74, 0x65, 0x6c, 0x65, 0x73, 0x73, 0x2d, 0x72, 0x65, 0x73, 0x65, 0x74, 0x2f,
    0x70, 0x72, 0x65, 0x66, 0x69, 0x78, 0x2f, 0x76, 0x31]

/-- `Hmac<Sha256>`: a key and a message give a digest. -/
structure Hmac where
  digest : Bytes → Bytes → Bytes
  length_digest : ∀ key message, (digest key message).length = 32

structure StatelessResetKey where
  bytes : Bytes
  length_eq : bytes.length = 32

namespace StatelessResetKey

variable (hmac : Hmac) {reset : Bytes}

theorem length_token (key message : Bytes) :
    ((hmac.digest key message).take statelessResetTokenLen).length = statelessResetTokenLen := by
  rw [length_take, hmac.length_digest]
  rfl

variable (self : StatelessResetKey)

def tokenFor (cid : ConnectionId) : StatelessResetToken :=
  ⟨(hmac.digest self.bytes (statelessResetTokenLabel ++ cid.bytes)).take statelessResetTokenLen,
    length_token hmac _ _⟩

/-- The bytes before the token of a reset of `used` bytes. -/
def resetLead (unknownDcid : ConnectionId) (used : Nat) : Bytes :=
  let digest := hmac.digest self.bytes
    (statelessResetPrefixLabel ++ (unknownDcid.bytes ++ toBytes 8 used))
  ((List.range (used - statelessResetTokenLen)).map fun index =>
    digest.getD (index % digest.length) 0 ^^^ (UInt8.ofNat index * 0x9d)).modifyHead (· &&& 0x3f)

/-- `encode_for_unknown_cid`, into a buffer of this capacity. -/
def encodeForUnknownCid (triggeringPacket : Bytes)
    (unknownDcid : ConnectionId) (capacity : Nat) : Except Error (Option Bytes) :=
  if triggeringPacket.length < statelessResetMinPacketLen ∨ triggeringPacket.headD 0x80 &&&
    0x80 ≠ 0 then .ok none
  else
    let used := min triggeringPacket.length capacity
    if used < statelessResetMinPacketLen then .error .bufferTooSmall
    else .ok (some (self.resetLead hmac unknownDcid used ++ (self.tokenFor hmac unknownDcid).bytes))

/-- `encode_for_unknown_packet`, in a build with or without packet protection. -/
def encodeForUnknownPacket (keyed : Bool) (triggeringPacket : Bytes) (capacity : Nat) :
    Except Error (Option Bytes) :=
  (if keyed then ShortHeader.decodePrefixKeyed triggeringPacket else ShortHeader.decodePrefix
    triggeringPacket) >>=
    fun header => self.encodeForUnknownCid hmac triggeringPacket header.dcid capacity

/-! ## What a reset looks like -/

variable {hmac : Hmac} {key : StatelessResetKey} {trigger : Bytes} {dcid : ConnectionId}
    {capacity : Nat}

theorem length_resetLead (hmac : Hmac) (key : StatelessResetKey) (dcid : ConnectionId)
    (used : Nat) :
    (key.resetLead hmac dcid used).length = used - statelessResetTokenLen := by
  rw [resetLead, length_modifyHead, length_map, length_range]

theorem resetLead_eq (hmac : Hmac) (key : StatelessResetKey) (dcid : ConnectionId) {used : Nat}
    (h : statelessResetTokenLen < used) :
    ∃ first rest, key.resetLead hmac dcid used = (first &&& 0x3f) :: rest := by
  obtain ⟨n, hn⟩ : ∃ n, used - statelessResetTokenLen = n + 1 :=
    ⟨used - statelessResetTokenLen - 1, by omega⟩
  rw [resetLead, hn, range_succ_eq_map, map_cons]
  exact ⟨_, _, rfl⟩

/-- A reset starts with neither bit of a packet, ends with the token, and is no longer than what it
answers. -/
structure Opaque (hmac : Hmac) (key : StatelessResetKey) (dcid : ConnectionId)
    (trigger reset : Bytes) : Prop where
  lead : ∃ first rest, reset = (first &&& 0x3f) :: rest
  token : reset.drop (reset.length - statelessResetTokenLen) = (key.tokenFor hmac dcid).bytes
  length : statelessResetMinPacketLen ≤ reset.length ∧ reset.length ≤ trigger.length

theorem encodeForUnknownCid_ok
    (h : key.encodeForUnknownCid hmac trigger dcid capacity = .ok (some reset)) :
    Opaque hmac key dcid trigger reset := by
  unfold encodeForUnknownCid at h
  simp only at h
  split at h
  · cases h
  split at h
  · cases h
  obtain rfl := Option.some.inj (Except.ok.inj h)
  have hmin : statelessResetTokenLen < statelessResetMinPacketLen := by decide
  have htoken := (key.tokenFor hmac dcid).length_eq
  have hlead := length_resetLead hmac key dcid (min trigger.length capacity)
  have hlength : (key.resetLead hmac dcid (min trigger.length capacity) ++
      (key.tokenFor hmac dcid).bytes).length =
      min trigger.length capacity := by
    rw [length_append]
    omega
  refine ⟨?_, ?_, by omega⟩
  · obtain ⟨first, rest, heq⟩ := resetLead_eq hmac key dcid
      (show statelessResetTokenLen < min trigger.length capacity by omega)
    exact ⟨first, rest ++ _, by rw [heq, cons_append]⟩
  · exact drop_left' (by omega)

theorem encodeForUnknownPacket_ok {keyed : Bool}
    (h : key.encodeForUnknownPacket hmac keyed trigger capacity = .ok (some reset)) :
    ∃ dcid, Opaque hmac key dcid trigger reset := by
  obtain ⟨header, -, h⟩ := bind_eq_ok.mp h
  exact ⟨header.dcid, encodeForUnknownCid_ok h⟩

end StatelessResetKey

end QuicLite
