import QuicLite.Wire.Long

/-!
# Rewriting a destination

A relay forwards a packet by replacing its destination id, and nothing else. Ids have four encoded
widths, so the header may grow or shrink. `rewriteDcid` copies into separate storage;
`rewriteDcidInPlace` moves the start of the packet instead, and leaves packet number and body where
they are.
-/

namespace QuicLite

open BigEndian List Option Nat

/-! ## Copying -/

variable {input tail : Bytes} {short : ShortHeaderPrefix} {first : UInt8} {start : Nat}
variable {capacity : Nat} {hops : List (ConnectionId × Nat)} {storage : Bytes}

/-- Bit `0x80` of the first byte. -/
def isLongHeader (input : Bytes) : Bool :=
  match input with
  | [] => false
  | first :: _ => first &&& 0x80 != 0

def rewriteDestination (input : Bytes) (outboundDcid : Option ConnectionId) (capacity : Nat) :
    Except Error Bytes :=
  if isLongHeader input then do
    let (header, payloadAt, payloadLen) ← decodeLongPacket input
    encodeLongPacket header.packetType outboundDcid header.scid header.packetNumber
      header.packetNumberLen
      ((input.drop payloadAt).take payloadLen) capacity
  else
    match outboundDcid with
    | none => .error .invalid
    | some outboundDcid => do
        let short ← ShortHeader.decodePrefix input
        let inboundLen := short.dcid.encodedLen
        if input.length < inboundLen then .error .invalid
        else if capacity < input.length - inboundLen + outboundDcid.encodedLen then
          .error .bufferTooSmall
        else
          let encoded ← outboundDcid.encode (capacity - 1)
          .ok (input.take 1 ++ (encoded ++ input.drop (1 + inboundLen)))

def rewriteDcid (input : Bytes) (outboundDcid : ConnectionId) (capacity : Nat) :
    Except Error Bytes :=
  if outboundDcid.value = 0 then .error .invalid
  else rewriteDestination input (some outboundDcid) capacity

def rewriteBootstrapDestination (input : Bytes) (capacity : Nat) : Except Error Bytes :=
  rewriteDestination input none capacity

/-! ## In place -/

/-- Storage of a packet pool. `asMutUnique` yields the writer of the whole storage when no other
lease can see it; what is written is what is read afterwards. -/
class PacketBuffer (B : Type) where
  asRef : B → Bytes
  asMutUnique : B → Option (Bytes → B)
  asRef_write : ∀ {buffer : B} {write : Bytes → B} {bytes : Bytes},
    asMutUnique buffer = some write →
    bytes.length = (asRef buffer).length → asRef (write bytes) = bytes

/-- A packet within the storage that it owns. -/
structure OwnedPacket (B : Type) [PacketBuffer B] where
  buffer : B
  start : Nat
  stop : Nat
  ordered : start ≤ stop
  inside : stop ≤ (PacketBuffer.asRef buffer).length

namespace OwnedPacket

variable {B : Type} [PacketBuffer B]

def new (buffer : B) (start stop : Nat) : Option (OwnedPacket B) :=
  if h : start ≤ stop ∧ stop ≤ (PacketBuffer.asRef buffer).length then
    some ⟨buffer, start, stop, h.1, h.2⟩ else none

def bytes (packet : OwnedPacket B) : Bytes :=
  ((PacketBuffer.asRef packet.buffer).drop packet.start).take (packet.stop - packet.start)

@[simp] theorem length_bytes (packet : OwnedPacket B) :
    packet.bytes.length = packet.stop - packet.start := by
  have := packet.inside
  simp only [bytes, length_take, length_drop]
  omega

end OwnedPacket

/-- Where the rewritten packet starts, and the bytes before its packet number. -/
def dcidRewriteLayout {B : Type} [PacketBuffer B] (packet : OwnedPacket B)
    (destination : ConnectionId) (prefixRequired maxPacket : Nat) : Except Error (Nat × Bytes) :=
  if destination.value = 0 ∨ isLongHeader packet.bytes then .error .invalid
  else do
    let short ← ShortHeader.decodePrefix packet.bytes
    let tail := packet.start + 1 + short.dcid.encodedLen
    let headerLen := 1 + destination.encodedLen
    if tail < headerLen then .error .bufferTooSmall
    else
      let start := tail - headerLen
      if start < prefixRequired ∨ maxPacket < packet.stop - start then .error .bufferTooSmall
      else
        let encoded ← destination.encode (headerLen - 1)
        .ok (start, packet.bytes.take 1 ++ encoded)

/-- `storage[start..start + bytes.len()].copy_from_slice(bytes)` -/
def overwrite (storage : Bytes) (start : Nat) (bytes : Bytes) : Bytes :=
  storage.take start ++ (bytes ++ storage.drop (start + bytes.length))

/-- A refusal hands the packet back. The last case is the `expect` of the preflighted range. -/
def rewriteDcidInPlace {B : Type} [PacketBuffer B] (packet : OwnedPacket B)
    (destination : ConnectionId) (prefixRequired maxPacket : Nat) : Except (Error × OwnedPacket B)
    (OwnedPacket B) :=
  match dcidRewriteLayout packet destination prefixRequired maxPacket with
  | .error e => .error (e, packet)
  | .ok (start, header) =>
    match PacketBuffer.asMutUnique packet.buffer with
    | none => .error (.blocked, packet)
    | some write =>
      match OwnedPacket.new (write (overwrite (PacketBuffer.asRef packet.buffer) start header))
        start packet.stop with
      | some rewritten => .ok rewritten
      | none => .error (.invalid, packet)

/-! ## Short headers -/

/-- First byte and what follows the destination: enough for a short header with any destination. -/
structure ShortShape (first : UInt8) (tail : Bytes) : Prop where
  flags : ¬(first &&& flagFixed = 0 ∨ first &&& flagReserved ≠ 0 ∨ first &&& flagKeyPhase ≠ 0)
  number : (first &&& 3).toNat + 1 ≤ tail.length

/-- What is read off such a packet. -/
def shortPrefix (first : UInt8) (dcid : ConnectionId) (tail : Bytes) : ShortHeaderPrefix where
  flags := first
  dcid := dcid
  truncatedPacketNumber := ofBytes 0 (tail.take ((first &&& 3).toNat + 1))
  packetNumberLen := (first &&& 3).toNat + 1
  headerLen := 1 + dcid.encodedLen + ((first &&& 3).toNat + 1)

open ConnectionId

theorem decodePrefix_of_shape (h : ShortShape first tail) (dcid : ConnectionId) :
    ShortHeader.decodePrefix (first :: (dcid.bytes ++ tail)) =
      .ok (shortPrefix first dcid tail) := by
  have hdrop : (dcid.bytes ++ tail).drop dcid.encodedLen = tail := drop_left' dcid.length_bytes
  have hnumber := h.number
  simp only [ShortHeader.decodePrefix, if_neg h.flags, decode_bytes, ok_bind, hdrop]
  rw [if_neg]
  · rfl
  · simp only [length_cons, length_append, length_bytes]
    omega

theorem decodePrefix_shape (h : ShortHeader.decodePrefix input = .ok short) :
    ∃ first tail, ShortShape first tail ∧ input = first :: (short.dcid.bytes ++ tail) ∧
      short = shortPrefix first short.dcid tail := by
  unfold ShortHeader.decodePrefix at h
  split at h
  · cases h
  rename_i first rest
  split at h
  · cases h
  rename_i hflags
  obtain ⟨⟨dcid, cidLen⟩, hdcid, h⟩ := bind_eq_ok.mp h
  simp only at h
  split at h
  · cases h
  rename_i hlength
  cases h
  obtain ⟨rfl, -, -⟩ := decode_ok hdcid
  have hcanonical := decode_canonical hdcid
  refine ⟨first, rest.drop dcid.encodedLen, ⟨hflags, ?_⟩, ?_, rfl⟩
  · rw [length_drop]
    simp only [length_cons] at hlength
    omega
  · rw [← hcanonical, take_append_drop]

/-- The destination is replaced and nothing else. -/
theorem rewriteDcid_of_shape (h : ShortShape first tail) {inbound outbound : ConnectionId}
    (hshort : isLongHeader (first :: (inbound.bytes ++ tail)) = false) (hzero : outbound.value ≠ 0)
    (hcapacity : 1 + outbound.encodedLen + tail.length ≤ capacity) :
    rewriteDcid (first :: (inbound.bytes ++ tail)) outbound capacity =
      .ok (first :: (outbound.bytes ++ tail)) := by
  have hencode : outbound.encode (capacity - 1) = .ok outbound.bytes :=
    encode_eq_ok.mpr ⟨by omega, rfl⟩
  have hdrop : (first :: (inbound.bytes ++ tail)).drop (1 + inbound.encodedLen) = tail := by
    rw [add_comm]
    exact drop_left' inbound.length_bytes
  unfold rewriteDcid rewriteDestination
  rw [if_neg hzero, hshort]
  simp only [Bool.false_eq_true, if_false, decodePrefix_of_shape h inbound, ok_bind, shortPrefix,
    hencode, hdrop]
  rw [if_neg, if_neg]
  · rfl
  · simp only [length_cons, length_append, length_bytes]
    omega
  · simp only [length_cons, length_append, length_bytes]
    omega

/-- One rewrite after another, each with the space of its own buffer. -/
def rewriteAlong (input : Bytes) (hops : List (ConnectionId × Nat)) : Except Error Bytes :=
  hops.foldlM (fun packet hop => rewriteDcid packet hop.1 hop.2) input

/-- The destination at the end of a chain of hops. -/
def finalDcid (dcid : ConnectionId) (hops : List (ConnectionId × Nat)) : ConnectionId :=
  (hops.map (·.1)).getLastD dcid

theorem rewriteAlong_of_shape (h : ShortShape first tail) {dcid : ConnectionId}
    (hshort : isLongHeader (first :: (dcid.bytes ++ tail)) = false)
    (hhops : ∀ hop ∈ hops, hop.1.value ≠ 0 ∧ 1 + hop.1.encodedLen + tail.length ≤ hop.2) :
    rewriteAlong (first :: (dcid.bytes ++ tail)) hops =
      .ok (first :: ((finalDcid dcid hops).bytes ++ tail)) := by
  induction hops generalizing dcid with
  | nil => rfl
  | cons hop hops ih =>
    obtain ⟨hzero, hcapacity⟩ := hhops hop mem_cons_self
    have hrest : rewriteAlong (first :: (hop.1.bytes ++ tail)) hops = _ :=
      ih hshort (forall_mem_cons.mp hhops).2
    unfold rewriteAlong at hrest ⊢
    rw [foldlM_cons, rewriteDcid_of_shape h hshort hzero hcapacity, ok_bind, hrest]
    unfold finalDcid
    rw [map_cons, getLastD_cons]

/-! ## In place -/

theorem overwrite_length {bytes : Bytes} (h : start + bytes.length ≤ storage.length) :
    (overwrite storage start bytes).length = storage.length := by
  simp only [overwrite, length_append, length_take, length_drop]
  omega

theorem drop_overwrite {bytes : Bytes} (h : start ≤ storage.length) :
    (overwrite storage start bytes).drop start = bytes ++ storage.drop (start + bytes.length) :=
  drop_left' (by simp [h])

section InPlace

variable {B : Type} [PacketBuffer B] {packet : OwnedPacket B} {destination : ConnectionId}
  {prefixRequired maxPacket : Nat}

/-- The packets that are rewritten in place: short ones with room before them and below the
limit. -/
structure Relocatable (packet : OwnedPacket B) (destination : ConnectionId)
    (prefixRequired maxPacket : Nat) (short : ShortHeaderPrefix) : Prop where
  nonzero : destination.value ≠ 0
  form : isLongHeader packet.bytes = false
  decoded : ShortHeader.decodePrefix packet.bytes = .ok short
  room : prefixRequired + destination.encodedLen ≤ packet.start + short.dcid.encodedLen
  size : packet.bytes.length - short.dcid.encodedLen + destination.encodedLen ≤ maxPacket

theorem decodePrefix_length
    (h : ShortHeader.decodePrefix input = .ok short) :
    1 + short.dcid.encodedLen < input.length := by
  obtain ⟨first, tail, hshape, hinput, -⟩ := decodePrefix_shape h
  have := hshape.number
  rw [hinput]
  simp only [length_cons, length_append, length_bytes]
  omega

theorem dcidRewriteLayout_eq_ok {header : Bytes} :
    dcidRewriteLayout packet destination prefixRequired maxPacket = .ok (start, header) ↔
      ∃ short, Relocatable packet destination prefixRequired maxPacket short ∧
        start = packet.start + short.dcid.encodedLen - destination.encodedLen ∧
        header = packet.bytes.take 1 ++ destination.bytes := by
  unfold dcidRewriteLayout
  constructor
  · intro h
    split at h
    · cases h
    rename_i hvalid
    obtain ⟨short, hdecoded, h⟩ := bind_eq_ok.mp h
    have hlength := decodePrefix_length hdecoded
    rw [OwnedPacket.length_bytes] at hlength
    simp only at h
    split at h
    · cases h
    split at h
    · cases h
    obtain ⟨encoded, hencode, h⟩ := bind_eq_ok.mp h
    cases h
    obtain ⟨-, rfl⟩ := encode_eq_ok.mp hencode
    rw [not_or, Bool.not_eq_true] at hvalid
    refine ⟨short, ⟨hvalid.1, hvalid.2, hdecoded, by omega, ?_⟩, by omega, rfl⟩
    rw [OwnedPacket.length_bytes]
    omega
  · rintro ⟨short, hrelocatable, rfl, rfl⟩
    obtain ⟨hnonzero, hshort, hdecoded, hroom, hsize⟩ := hrelocatable
    have hlength := decodePrefix_length hdecoded
    rw [OwnedPacket.length_bytes] at hlength hsize
    have hencode : destination.encode (1 + destination.encodedLen - 1) = .ok destination.bytes :=
      encode_eq_ok.mpr ⟨by omega, rfl⟩
    rw [if_neg (by rw [not_or, Bool.not_eq_true]; exact ⟨hnonzero, hshort⟩), hdecoded]
    simp only [ok_bind]
    rw [if_neg (by omega), if_neg (by omega), hencode]
    simp only [ok_bind, Except.ok.injEq, Prod.mk.injEq, and_true]
    omega

/-- The bytes of a packet from some offset on are where they were. -/
theorem drop_bytes (packet : OwnedPacket B) (offset : Nat) : packet.bytes.drop offset =
      ((PacketBuffer.asRef packet.buffer).drop (packet.start + offset)).take
        (packet.stop - packet.start - offset) := by
  unfold OwnedPacket.bytes
  rw [drop_take, drop_drop]

/-- An accepted packet is rewritten as the copying form would, and ends where it ended. -/
theorem rewriteDcidInPlace_accepts {write : Bytes → B}
    (h : Relocatable packet destination prefixRequired maxPacket short)
    (hwrite : PacketBuffer.asMutUnique packet.buffer = some write) :
    ∃ rewritten : OwnedPacket B, rewriteDcidInPlace packet destination prefixRequired maxPacket =
      .ok rewritten ∧
      rewritten.start = packet.start + short.dcid.encodedLen - destination.encodedLen ∧
        rewritten.stop = packet.stop ∧
      ∀ capacity, rewritten.bytes.length ≤ capacity →
        rewriteDcid packet.bytes destination capacity = .ok rewritten.bytes := by
  obtain ⟨first, tail, hshape, hbytes, -⟩ := decodePrefix_shape h.decoded
  have hinside := packet.inside
  have hroom := h.room
  have hlength := decodePrefix_length h.decoded
  rw [OwnedPacket.length_bytes] at hlength
  have hlayout := dcidRewriteLayout_eq_ok.mpr ⟨short, h, rfl, rfl⟩
  have hheader : packet.bytes.take 1 ++ destination.bytes = first :: destination.bytes := by
    rw [hbytes]
    rfl
  obtain ⟨start, hstart⟩ : ∃ start,
      start = packet.start + short.dcid.encodedLen - destination.encodedLen := ⟨_, rfl⟩
  rw [hheader, ← hstart] at hlayout
  have hheaderLen : (first :: destination.bytes).length = 1 + destination.encodedLen := by
    rw [length_cons, length_bytes, add_comm]
  obtain ⟨storage, hstorage⟩ : ∃ storage, storage = PacketBuffer.asRef packet.buffer := ⟨_, rfl⟩
  rw [← hstorage] at hinside
  have hfits : start + (first :: destination.bytes).length ≤ storage.length := by omega
  have hread : PacketBuffer.asRef (write (overwrite storage start (first :: destination.bytes))) =
      overwrite storage start (first :: destination.bytes) :=
    PacketBuffer.asRef_write hwrite (by rw [overwrite_length hfits, hstorage])
  have hnewInside : packet.stop ≤
      (PacketBuffer.asRef (write
        (overwrite storage start (first :: destination.bytes)))).length := by
    rw [hread, overwrite_length hfits]
    exact hinside
  have hnewOrdered : start ≤ packet.stop := by omega
  refine ⟨⟨write (overwrite storage start (first :: destination.bytes)), start, packet.stop,
    hnewOrdered, hnewInside⟩, ?_, hstart, rfl, ?_⟩
  · unfold rewriteDcidInPlace
    rw [hlayout]
    simp only [hwrite]
    rw [← hstorage, OwnedPacket.new, dif_pos ⟨hnewOrdered, hnewInside⟩]
  -- Packet number and body stay in place; only the bytes before them are written.
  have htail : tail = (storage.drop (packet.start + (1 + short.dcid.encodedLen))).take
      (packet.stop - packet.start - (1 + short.dcid.encodedLen)) := by
    rw [hstorage, ← drop_bytes, hbytes, add_comm 1, drop_succ_cons,
      drop_left' short.dcid.length_bytes]
  have hnew : OwnedPacket.bytes ⟨write (overwrite storage start (first :: destination.bytes)),
      start, packet.stop, hnewOrdered, hnewInside⟩ = first :: (destination.bytes ++ tail) := by
    unfold OwnedPacket.bytes
    simp only
    rw [hread, drop_overwrite (by omega), ← cons_append, htail]
    have hsplit : packet.stop - start = (first :: destination.bytes).length +
        (packet.stop - packet.start - (1 + short.dcid.encodedLen)) := by omega
    rw [hsplit, take_length_add_append]
    congr 3
    omega
  rw [hnew]
  intro capacity hcapacity
  have hshort := h.form
  rw [hbytes] at hshort ⊢
  apply rewriteDcid_of_shape hshape hshort h.nonzero
  simp only [length_cons, length_append, length_bytes] at hcapacity
  omega

/-- Any other packet comes back as it was. -/
theorem rewriteDcidInPlace_refuses
    (h : ¬((∃ short, Relocatable packet destination prefixRequired maxPacket short) ∧
      (PacketBuffer.asMutUnique packet.buffer).isSome)) :
    ∃ e, rewriteDcidInPlace packet destination prefixRequired maxPacket = .error (e, packet) := by
  unfold rewriteDcidInPlace
  split
  · exact ⟨_, rfl⟩
  rename_i start header hlayout
  obtain ⟨short, hrelocatable, -⟩ := dcidRewriteLayout_eq_ok.mp hlayout
  split
  · exact ⟨_, rfl⟩
  · rename_i write hwrite
    exact absurd ⟨⟨short, hrelocatable⟩, by simp [hwrite]⟩ h

end InPlace

/-! ## Long headers -/

theorem isLongHeader_of_decode {result : LongHeader × Nat × Nat}
    (h : decodeLongPacket input = .ok result) :
    isLongHeader input = true := by
  unfold decodeLongPacket at h
  split at h
  · cases h
  simp only at h
  split at h
  · cases h
  rename_i hlength hfirst
  cases input with
  | nil => simp at hlength
  | cons first rest =>
    rw [not_not] at hfirst
    have hall : ∀ x < 256, UInt8.ofNat x &&& 0xc0 = 0xc0 → UInt8.ofNat x &&& 0x80 != 0 := by
      decide +kernel
    have := hall first.toNat first.toNat_lt
    rw [UInt8.ofNat_toNat] at this
    exact this hfirst

/-- Only the destination of a long header changes, and the token of an Initial packet is dropped. -/
theorem rewriteDestination_long {header : LongHeader} {payloadAt payloadLen : Nat}
    (h : decodeLongPacket input = .ok (header, payloadAt, payloadLen)) (hpayload : payloadLen ≠ 0)
    (outbound : Option ConnectionId) (hcapacity : input.length + 15 ≤ capacity) :
    ∃ out newAt, rewriteDestination input outbound capacity = .ok out ∧
      decodeLongPacket out = .ok ({ header with dcid := outbound }, newAt, payloadLen) ∧
      (out.drop newAt).take payloadLen = (input.drop payloadAt).take payloadLen := by
  obtain ⟨hvalid, hbody, hend, hneed⟩ := decodeLongPacket_ok h
  obtain ⟨payload, hpayloadEq⟩ : ∃ payload, payload = (input.drop payloadAt).take payloadLen :=
    ⟨_, rfl⟩
  have hlength : payload.length = payloadLen := by
    rw [hpayloadEq, length_take, length_drop]
    omega
  have hvalid' : ({ header with dcid := outbound } : LongHeader).Valid :=
    ⟨hvalid.packetType, hvalid.version, hvalid.packetNumberLen, hvalid.packetNumber⟩
  have houtbound : (longCid outbound).length ≤ 9 := by
    rw [length_longCid]
    cases outbound with
    | none => simp
    | some cid =>
      have := cid.encodedLen_le
      simp only [map_some, getD_some]
      omega
  have hdcid : 1 ≤ (longCid header.dcid).length := by
    rw [length_longCid]
    omega
  have hfits : ({ header with dcid := outbound } : LongHeader).need payload ≤ capacity := by
    rw [length_longStart] at hneed
    rw [LongHeader.need, length_longStart]
    simp only
    omega
  rw [← hlength] at hbody
  have hdecode := decodeLongPacket_longPacket hvalid' hbody
  rw [hlength] at hdecode
  refine ⟨longPacket { header with dcid := outbound } payload, _, ?_, hdecode, ?_⟩
  · unfold rewriteDestination
    rw [if_pos (isLongHeader_of_decode h), h]
    simp only [ok_bind]
    rw [← hpayloadEq]
    exact encodeLongPacket_eq_ok hvalid' (by rintro rfl; exact hpayload hlength.symm) hbody hfits
  · rw [← hpayloadEq]
    rw [← hlength, drop_longPacket, take_length]

/-! ## Forwarding -/

/-- A short packet with its destination, flags, packet number and body after any chain of
rewrites. -/
theorem rewriteAlong_short (hform : isLongHeader input = false)
    (hdecoded : ShortHeader.decodePrefix input = .ok short)
    (hhops : ∀ hop ∈ hops, hop.1.value ≠ 0 ∧ input.length + 7 ≤ hop.2) :
    ∃ out, rewriteAlong input hops = .ok out ∧ out.take 1 = input.take 1 ∧
      out.drop (1 + (finalDcid short.dcid hops).encodedLen) =
        input.drop (1 + short.dcid.encodedLen) ∧
      ShortHeader.decodePrefix out = .ok { short with
        dcid := finalDcid short.dcid hops
        headerLen := 1 + (finalDcid short.dcid hops).encodedLen + short.packetNumberLen } ∧
      (finalDcid short.dcid hops = short.dcid → out = input) := by
  obtain ⟨first, tail, hshape, hinput, hshort⟩ := decodePrefix_shape hdecoded
  have hbody : ∀ dcid : ConnectionId, (first :: (dcid.bytes ++ tail)).drop (1 + dcid.encodedLen) =
      tail := by
    intro dcid
    rw [add_comm]
    exact drop_left' dcid.length_bytes
  have hlength : input.length = 1 + short.dcid.encodedLen + tail.length := by
    rw [hinput]
    simp only [length_cons, length_append, length_bytes]
    omega
  have hrooms : ∀ hop ∈ hops, hop.1.value ≠ 0 ∧ 1 + hop.1.encodedLen + tail.length ≤ hop.2 := by
    intro hop hhop
    obtain ⟨hzero, hcapacity⟩ := hhops hop hhop
    have := hop.1.encodedLen_le
    have := short.dcid.encodedLen_pos
    exact ⟨hzero, by omega⟩
  rw [hinput] at hform
  refine ⟨first :: ((finalDcid short.dcid hops).bytes ++ tail), ?_, ?_, ?_, ?_, ?_⟩
  · rw [hinput]
    exact rewriteAlong_of_shape hshape hform hrooms
  · rw [hinput]
    rfl
  · rw [hbody, hinput, hbody]
  · rw [decodePrefix_of_shape hshape, hshort]
    rfl
  · intro hback
    rw [hback, ← hinput]

/-- Forwarding changes the destination only: along any chain of copies of a short packet, in place,
and for long packets. -/
theorem forwarding_changes_destination_only {B : Type} [PacketBuffer B] :
    (∀ (input : Bytes) (short : ShortHeaderPrefix), isLongHeader input = false →
      ShortHeader.decodePrefix input = .ok short → ∀ hops : List (ConnectionId × Nat),
      (∀ hop ∈ hops, hop.1.value ≠ 0 ∧ input.length + 7 ≤ hop.2) →
        ∃ out, rewriteAlong input hops = .ok out ∧ out.take 1 = input.take 1 ∧
          out.drop (1 + (finalDcid short.dcid hops).encodedLen) =
            input.drop (1 + short.dcid.encodedLen) ∧
          ShortHeader.decodePrefix out = .ok { short with
            dcid := finalDcid short.dcid hops
            headerLen := 1 + (finalDcid short.dcid hops).encodedLen + short.packetNumberLen } ∧
          (finalDcid short.dcid hops = short.dcid → out = input)) ∧
    (∀ (packet : OwnedPacket B) (destination : ConnectionId) (prefixRequired maxPacket : Nat),
      ((∃ short, Relocatable packet destination prefixRequired maxPacket short) ∧
          (PacketBuffer.asMutUnique packet.buffer).isSome ∧
          ∃ rewritten, rewriteDcidInPlace packet destination prefixRequired maxPacket =
            .ok rewritten ∧
            ∀ capacity, rewritten.bytes.length ≤ capacity →
              rewriteDcid packet.bytes destination capacity = .ok rewritten.bytes) ∨
        ¬((∃ short, Relocatable packet destination prefixRequired maxPacket short) ∧
            (PacketBuffer.asMutUnique packet.buffer).isSome) ∧
          ∃ e, rewriteDcidInPlace packet destination prefixRequired maxPacket =
            .error (e, packet)) ∧
    (∀ (input : Bytes) (header : LongHeader) (payloadAt payloadLen : Nat),
      decodeLongPacket input = .ok (header, payloadAt, payloadLen) → payloadLen ≠ 0 →
      ∀ (outbound : Option ConnectionId) (capacity : Nat), input.length + 15 ≤ capacity →
        ∃ out newAt, rewriteDestination input outbound capacity = .ok out ∧
          (∀ dcid, outbound = some dcid → dcid.value ≠ 0 →
            rewriteDcid input dcid capacity = .ok out) ∧
          (outbound = none → rewriteBootstrapDestination input capacity = .ok out) ∧
          decodeLongPacket out = .ok ({ header with dcid := outbound }, newAt, payloadLen) ∧
          (out.drop newAt).take payloadLen = (input.drop payloadAt).take payloadLen) := by
  refine ⟨?_, ?_, ?_⟩
  · intro input short hform hdecoded hops hhops
    exact rewriteAlong_short hform hdecoded hhops
  · intro packet destination prefixRequired maxPacket
    by_cases hok : (∃ short, Relocatable packet destination prefixRequired maxPacket short) ∧
        (PacketBuffer.asMutUnique packet.buffer).isSome
    · obtain ⟨⟨short, hrelocatable⟩, hunique⟩ := hok
      obtain ⟨write, hwrite⟩ := isSome_iff_exists.mp hunique
      obtain ⟨rewritten, haccepted, -, -, hbytes⟩ := rewriteDcidInPlace_accepts hrelocatable hwrite
      exact .inl ⟨⟨short, hrelocatable⟩, hunique, rewritten, haccepted, hbytes⟩
    · exact .inr ⟨hok, rewriteDcidInPlace_refuses hok⟩
  · intro input header payloadAt payloadLen hdecoded hpayload outbound capacity hcapacity
    obtain ⟨out, newAt, hrewritten, hback, hsame⟩ :=
      rewriteDestination_long hdecoded hpayload outbound hcapacity
    refine ⟨out, newAt, hrewritten, ?_, ?_, hback, hsame⟩
    · intro dcid hdcid hzero
      rw [rewriteDcid, if_neg hzero, ← hdcid]
      exact hrewritten
    intro hnone
    rw [rewriteBootstrapDestination, ← hnone]
    exact hrewritten

/-- Storage that nobody else sees. -/
instance : PacketBuffer Bytes where
  asRef := id
  asMutUnique _ := some id
  asRef_write := by
    intro _ write bytes hwrite _
    cases hwrite
    rfl

/-- A packet for id 5 goes through a relay with a wider id and back. -/
theorem relay_and_back :
    ∃ out, rewriteAlong [0x40, 5, 9, 0x01] [(⟨70000, by decide⟩, 16), (⟨5, by decide⟩, 16)] =
      .ok out ∧
      out = [0x40, 5, 9, 0x01] := by
  obtain ⟨out, hout, -, -, -, hback⟩ :=
    (forwarding_changes_destination_only (B := Bytes)).1 [0x40, 5, 9, 0x01]
    ⟨0x40, ⟨5, by decide⟩, 9, 1, 3⟩ (by decide) (by decide) [(⟨70000, by decide⟩, 16),
      (⟨5, by decide⟩, 16)] (by decide)
  exact ⟨out, hout, hback (by decide)⟩

end QuicLite
