import QuicLite.Relay.Listener
import QuicLite.Wire.Reset

/-!
# Resets are not answered

A node that does not know the destination of a short packet answers with a stateless reset. The
reset carries the token of that destination and fails every parser, so whoever receives it takes it
for a reset or drops it: it is never routed to a connection as a packet, and never answered with
another reset.
-/

namespace QuicLite

open List Nat ShortHeader

/-- The comparison looks at every byte of the suffix, whatever the earlier ones gave. -/
def StatelessResetToken.matchesPacket (self : StatelessResetToken) (input : Bytes) : Bool :=
  if input.length < statelessResetMinPacketLen then false
  else
    let suffix := input.drop (input.length - statelessResetTokenLen)
    (suffix.zip self.bytes).foldl (fun different pair => different ||| (pair.1 ^^^ pair.2)) 0 = 0

theorem foldl_zip_self (bytes : Bytes) (different : UInt8) :
    (bytes.zip bytes).foldl (fun different pair => different ||| (pair.1 ^^^ pair.2)) different =
      different := by
  induction bytes with
  | nil => rfl
  | cons byte bytes ih =>
    rw [zip_cons_cons, foldl_cons, UInt8.xor_self, UInt8.or_zero]
    exact ih

theorem StatelessResetToken.matchesPacket_of_suffix {token : StatelessResetToken} {input : Bytes}
    (hlength : statelessResetMinPacketLen ≤ input.length)
    (hsuffix : input.drop (input.length - statelessResetTokenLen) = token.bytes) :
    token.matchesPacket input = true := by
  unfold matchesPacket
  rw [if_neg (not_lt.mpr hlength), hsuffix]
  simp [foldl_zip_self]

namespace StatelessResetKey

variable {hmac : Hmac} {key : StatelessResetKey} {trigger reset : Bytes} {dcid : ConnectionId}
    {capacity : Nat}

section

variable (h : Opaque hmac key dcid trigger reset)
include h

/-- The first byte of a reset has neither the fixed bit nor that of the long form. -/
theorem Opaque.bits : ∃ first rest, reset = first :: rest ∧ first &&& flagFixed = 0 ∧
    first &&& 0xc0 = 0 := by
  obtain ⟨first, rest, rfl⟩ := h.lead
  refine ⟨_, rest, rfl, ?_, ?_⟩
  · rw [UInt8.and_assoc]
    exact UInt8.and_zero
  · rw [UInt8.and_assoc]
    exact UInt8.and_zero

/-- No parser takes a reset. -/
theorem Opaque.refused : decodePrefix reset = .error .invalid ∧ decodePrefixKeyed reset =
      .error .invalid ∧
      decodeLongPacket reset = .error .invalid := by
  have hlength := h.length.1
  obtain ⟨first, rest, rfl, hfixed, hlong⟩ := h.bits
  refine ⟨if_pos (.inl hfixed), if_pos (.inl hfixed), ?_⟩
  have hshort : ¬(first :: rest).length < 9 := by
    intro hlt
    exact absurd (hlength.trans_lt hlt) (by decide)
  unfold decodeLongPacket
  rw [if_neg hshort]
  dsimp only [headD_cons]
  rw [hlong]
  rfl

theorem Opaque.unclassified : classifyServerPacket reset = .error .invalid := by
  obtain ⟨hdecode, -, hlong⟩ := h.refused
  have hopen : decodeBootstrapOpenPacketWithLimits reset = .error .invalid := by
    unfold decodeBootstrapOpenPacketWithLimits
    rw [hlong]
    rfl
  have hshort : decode reset = .error .invalid := by
    unfold decode
    rw [hdecode]
    rfl
  unfold classifyServerPacket
  rw [hopen, hlong, hshort]
  rfl

/-- Nobody answers a reset with a reset, whatever key and build. -/
theorem Opaque.unanswered (other : StatelessResetKey) (keyed : Bool)
    (capacity : Nat) : other.encodeForUnknownPacket hmac keyed reset capacity =
      .error .invalid := by
  obtain ⟨hdecode, hkeyed, -⟩ := h.refused
  unfold encodeForUnknownPacket
  cases keyed with
  | false =>
    rw [hdecode]
    rfl
  | true =>
    rw [hkeyed]
    rfl

end

/-- A short packet of at least 21 bytes gets a reset whenever the buffer holds as many, and the
reset is recognised by the token of its destination and by nothing else. -/
theorem reset_recognised_not_echoed (hmac : Hmac) (key : StatelessResetKey) (keyed : Bool)
    {trigger : Bytes} {header : ShortHeaderPrefix} {capacity : Nat} (hdecode : (if keyed then
      decodePrefixKeyed trigger else decodePrefix trigger) = .ok header)
    (hshort : trigger.headD 0x80 &&& 0x80 = 0)
    (hlength : statelessResetMinPacketLen ≤ trigger.length)
    (hcapacity : statelessResetMinPacketLen ≤ capacity) :
    ∃ reset, key.encodeForUnknownPacket hmac keyed trigger capacity = .ok (some reset) ∧
      statelessResetMinPacketLen ≤ reset.length ∧ reset.length ≤ trigger.length ∧
      reset.drop (reset.length - statelessResetTokenLen) = (key.tokenFor hmac header.dcid).bytes ∧
      (key.tokenFor hmac header.dcid).matchesPacket reset = true ∧
      decodePrefix reset = .error .invalid ∧ decodePrefixKeyed reset =
        .error .invalid ∧
      decodeLongPacket reset = .error .invalid ∧ classifyServerPacket reset = .error .invalid ∧
      ∀ (other : StatelessResetKey) (otherKeyed : Bool) (otherCapacity : Nat),
        other.encodeForUnknownPacket hmac otherKeyed reset otherCapacity = .error .invalid := by
  obtain ⟨reset, hreset⟩ : ∃ reset, key.encodeForUnknownCid hmac trigger header.dcid capacity =
      .ok (some reset) := by
    unfold encodeForUnknownCid
    have hgo : ¬(trigger.length < statelessResetMinPacketLen ∨ trigger.headD 0x80 &&&
        0x80 ≠ 0) := by
      rintro (hlt | hlong)
      · exact absurd hlt (not_lt.mpr hlength)
      · exact hlong hshort
    have hroom : ¬min trigger.length capacity < statelessResetMinPacketLen :=
      not_lt.mpr (le_min hlength hcapacity)
    rw [if_neg hgo]
    rw [if_neg hroom]
    exact ⟨_, rfl⟩
  have hopaque := encodeForUnknownCid_ok hreset
  obtain ⟨hplain, hkeyed, hlong⟩ := hopaque.refused
  refine ⟨reset, ?_, hopaque.length.1, hopaque.length.2, hopaque.token,
    StatelessResetToken.matchesPacket_of_suffix hopaque.length.1 hopaque.token, hplain,
      hkeyed, hlong,
    hopaque.unclassified, hopaque.unanswered⟩
  unfold encodeForUnknownPacket
  rw [hdecode]
  exact hreset

def flatHmac : Hmac := ⟨fun _ _ => replicate 32 0xff, fun _ _ => length_replicate⟩

def flatKey : StatelessResetKey := ⟨replicate 32 0x07, length_replicate⟩

/-- A short packet of 21 bytes. -/
def strayPacket : Bytes := 0x40 :: 7 :: replicate 19 0

theorem strayPacket_reset :
    ∃ reset, flatKey.encodeForUnknownPacket flatHmac false strayPacket 64 = .ok (some reset) ∧
      reset.length = 21 := by
  have hdecode : (if false = true then
      decodePrefixKeyed strayPacket else decodePrefix strayPacket) =
      .ok ⟨0x40, ⟨7, by decide⟩, 0, 1, 3⟩ := by decide
  obtain ⟨reset, hreset, hmin, hmax, -⟩ :=
    reset_recognised_not_echoed flatHmac flatKey false hdecode (by decide) (by decide)
      (show 21 ≤ 64 by decide)
  exact ⟨reset, hreset, le_antisymm hmax hmin⟩

/-- A buffer of 20 bytes takes no reset. -/
theorem strayPacket_small_buffer :
    (decodePrefix strayPacket).isOk = true ∧ strayPacket.length = 21 ∧
      flatKey.encodeForUnknownPacket flatHmac false strayPacket 20 = .error .bufferTooSmall := by
  decide

end StatelessResetKey

end QuicLite
