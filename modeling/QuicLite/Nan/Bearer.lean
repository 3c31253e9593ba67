import QuicLite.Discovery.Tagged
import QuicLite.Endpoint.Nonces
import QuicLite.Nan.Coalesced
import QuicLite.Wire.Reset

/-!
# The shared ESP-NOW bearer

Packets, sync records and tagged records share one bearer and are told apart by their first bytes. A
packet has the fixed bit, a tagged record has not, and a sync record starts with a packet's first
byte and a magic number that no packet goes on with: behind a one-byte id and a one-byte number
comes a frame, and no frame has the type that is written there. A stateless reset has not got the
fixed bit, so that it is the only payload that goes astray (`separated_iff`).
-/

namespace QuicLite.Nan

open BigEndian List Except Nat EndpointState

/-! ## Sync records -/

variable {body : Bytes} {frames : List Frame} {capacity : Nat}

def nowSyncPrefixByte : UInt8 := 0x40
/-- `"NSY1"` -/
def nowSyncMagicVersion : Nat := 0x4e535931
def nowSyncHeaderLen : Nat := 30
/-- `NAN_ACTIVE_PUBLISH_MAX_LEN` -/
def nowSyncServiceInfoMaxLen : Nat := 255

structure NowSyncFrame where
  clusterId : MacAddr
  anchorMaster : MacAddr
  tsfUs : UInt64
  intervalTu : UInt32
  flags : UInt8
  serviceInfo : Bytes

def buildNowSyncBody (clusterId anchorMaster : MacAddr) (tsfUs : UInt64) (intervalTu : UInt32)
    (flags : UInt8) (serviceInfo : Bytes) : Option Bytes :=
  if nowSyncServiceInfoMaxLen < serviceInfo.length then none
  else
    some (nowSyncPrefixByte ::
      (toBytes 4 nowSyncMagicVersion ++ (clusterId.toList ++ (anchorMaster.toList ++
      ((toBytes 8 tsfUs.toNat).reverse ++
        ((toBytes 4 intervalTu.toNat).reverse ++ flags :: serviceInfo))))))

def isNowSync (body : Bytes) : Bool :=
  if body.length < nowSyncHeaderLen ∨ body.headD 0 ≠ nowSyncPrefixByte then false
  else ofBytes 0 ((body.drop 1).take 4) == nowSyncMagicVersion

def parseNowSyncBody (body : Bytes) : Option NowSyncFrame :=
  if isNowSync body then do
    let clusterId ← toMac ((body.drop 5).take 6)
    let anchorMaster ← toMac ((body.drop 11).take 6)
    some ⟨clusterId, anchorMaster, UInt64.ofNat (ofBytes 0 ((body.drop 17).take 8).reverse),
      UInt32.ofNat (ofBytes 0 ((body.drop 25).take 4).reverse), body.getD 29 0,
        body.drop nowSyncHeaderLen⟩
  else none

/-- What a sync record starts with. -/
theorem isNowSync_lead (h : isNowSync body = true) :
    ∃ rest, body = 0x40 :: 0x4e :: 0x53 :: 0x59 :: rest ∧ nowSyncHeaderLen ≤ body.length := by
  unfold isNowSync at h
  split at h
  · cases h
  rename_i hguard
  obtain ⟨hlength, hfirst⟩ : nowSyncHeaderLen ≤ body.length ∧ body.headD 0 = nowSyncPrefixByte := by
    rw [not_or, not_lt, not_not] at hguard
    exact hguard
  have hmagic : (body.drop 1).take 4 = [0x4e, 0x53, 0x59, 0x31] := by
    have hfour : ((body.drop 1).take 4).length = 4 := by
      rw [length_take, length_drop]
      have : nowSyncHeaderLen = 30 := rfl
      omega
    have hback := toBytes_ofBytes 0 ((body.drop 1).take 4)
    rw [hfour, eq_of_beq h] at hback
    rw [← hback]
    decide
  cases body with
  | nil => cases hfirst
  | cons first tail =>
    obtain rfl : first = 0x40 := hfirst
    have htail := take_append_drop 4 tail
    rw [show tail.take 4 = [0x4e, 0x53, 0x59, 0x31] from hmagic] at htail
    exact ⟨0x31 :: tail.drop 4, by rw [← htail]; rfl, hlength⟩

theorem isSome_parseNowSyncBody (body : Bytes) :
    (parseNowSyncBody body).isSome = isNowSync body := by
  unfold parseNowSyncBody
  split
  · rename_i h
    obtain ⟨rest, rfl, hlength⟩ := isNowSync_lead h
    have hmac : ∀ start, start + 6 ≤ nowSyncHeaderLen →
        ∃ mac, toMac (((0x40 :: 0x4e :: 0x53 :: 0x59 :: rest).drop start).take 6) = some mac := by
      intro start hstart
      refine ⟨⟨_, ?_⟩, dif_pos ?_⟩
      all_goals
        rw [length_take, length_drop]
        omega
    obtain ⟨cluster, hcluster⟩ := hmac 5 (by decide)
    obtain ⟨anchor, hanchor⟩ := hmac 11 (by decide)
    rw [hcluster, hanchor, h]
    rfl
  · rename_i h
    exact (Bool.eq_false_iff.mpr h).symm

/-! ## Admission -/

inductive EspNowPayloadClass where
  | nowSync
  | taggedControl
  | quicDatagram
  | unrecognized
  deriving DecidableEq

def espNowQuicFixedBit : UInt8 := 0x40

def classifyEspnowPayload (cbor : Cbor.Codec) (payload : Bytes) : EspNowPayloadClass :=
  if payload.head? = some espNowQuicFixedBit ∧ (parseNowSyncBody payload).isSome then .nowSync
  else if payload.head?.any fun first => first &&& espNowQuicFixedBit != 0 then .quicDatagram
  else if (Discovery.decode cbor payload).isSome then .taggedControl
  else .unrecognized

variable {cbor : Cbor.Codec}

theorem classify_quicDatagram_iff (payload : Bytes) :
    classifyEspnowPayload cbor payload = .quicDatagram ↔
    isNowSync payload = false ∧ ∃ first rest, payload = first :: rest ∧
      first &&& espNowQuicFixedBit ≠ 0 := by
  unfold classifyEspnowPayload
  rw [isSome_parseNowSyncBody]
  cases payload with
  | nil =>
    rw [if_neg (by simp), if_neg (by simp)]
    split <;> simp
  | cons first rest =>
  by_cases hsync : isNowSync (first :: rest) = true
  · obtain ⟨tail, heq, -⟩ := isNowSync_lead hsync
    obtain rfl : first = espNowQuicFixedBit := (cons.inj heq).1
    rw [hsync]
    simp
  rw [if_neg (fun h => hsync h.2), Bool.eq_false_iff.mpr hsync]
  by_cases hfixed : first &&& espNowQuicFixedBit = 0
  · rw [if_neg (by simp [hfixed])]
    split <;> simp [hfixed]
  · rw [if_pos (by simp [hfixed])]
    exact iff_of_true rfl ⟨rfl, first, rest, rfl, hfixed⟩

/-! ## Packets are no sync records -/

/-- A frame starts with a type below 256, in a varint. -/
theorem wire_kind {f : Frame} (h : f.Encodable) :
    ∃ kind rest, f.wire = varint kind ++ rest ∧ kind < 256 := by
  have hvalues : ∃ kind rest, f.values = kind :: rest ∧ kind < 256 := by
    cases f with
    | ackRanges largest delay ranges =>
      obtain ⟨first, hfirst, -⟩ := h.2
      obtain ⟨ranges, hcanonical, hbound⟩ := ranges
      cases ranges with
      | nil => cases hfirst
      | cons range rest => exact ⟨_, _, rfl, by decide⟩
    | stream s =>
      refine ⟨_, _, rfl, ?_⟩
      cases s.fin <;> decide
    | datagram data length => cases length <;> exact ⟨_, _, rfl, by decide⟩
    | _ => exact ⟨_, _, rfl, by decide⟩
  obtain ⟨kind, rest, hvalues, hkind⟩ := hvalues
  refine ⟨kind, varints rest ++ f.trailer, ?_, hkind⟩
  rw [Frame.wire, hvalues, varints_cons, append_assoc]

/-- No varint below 256 starts like the third letter of the magic. -/
theorem varint_head {kind : Nat} (h : kind < 256) :
    ∃ first rest, varint kind = first :: rest ∧ first ≠ 0x59 := by
  have hall : ∀ kind < 256, (varint kind).head? ≠ none ∧ (varint kind).head? ≠ some 0x59 := by
    decide +kernel
  obtain ⟨hsome, hhead⟩ := hall kind h
  cases hvarint : varint kind with
  | nil =>
    rw [hvarint] at hsome
    exact absurd rfl hsome
  | cons first rest =>
    rw [hvarint] at hhead
    exact ⟨first, rest, rfl, fun heq => hhead (congrArg some heq)⟩

theorem wired_head {tail : Bytes} (h : Wired frames body) : body ≠ 0x59 :: tail := by
  obtain ⟨rfl, hencodable⟩ := h
  cases frames with
  | nil => exact fun heq => by cases heq
  | cons f fs =>
    obtain ⟨kind, rest, hwire, hkind⟩ := wire_kind (hencodable f mem_cons_self)
    obtain ⟨first, rest', hvarint, hfirst⟩ := varint_head hkind
    rw [flatMap_cons, hwire, hvarint]
    exact fun heq => hfirst (cons.inj heq).1

/-- A one-byte packet behind a one-byte id goes on with its frames. -/
theorem short_not_sync {header : ShortHeader} (hflags : header.flags = flagFixed)
    (hbody : Wired frames body) : isNowSync (header.bytes ++ body) = false := by
  by_contra hsync
  obtain ⟨rest, heq, -⟩ := isNowSync_lead (Bool.not_eq_false _ ▸ hsync)
  rw [ShortHeader.bytes, hflags, cons_append, append_assoc] at heq
  obtain ⟨hfirst, heq⟩ := cons.inj heq
  have hlen : clampLen header.packetNumberLen = 1 := by
    have hbounds := clampLen_pos header.packetNumberLen
    have hall : ∀ len < 5, 1 ≤ len → ShortHeader.firstByte flagFixed len = 0x40 →
        len = 1 := by decide
    exact hall _ (by omega) hbounds.1 hfirst
  have hcid : header.dcid.encodedLen = 1 := by
    have hdecode := header.dcid.decode_bytes
      (toBytes (clampLen header.packetNumberLen) header.packetNumber ++ body)
    rw [heq] at hdecode
    have hone : ∀ {cid : ConnectionId} {n : Nat} {tail : Bytes},
        ConnectionId.decode (0x4e :: tail) = .ok (cid, n) → n = 1 := by
      intro cid n tail h
      obtain ⟨class', hclass, h⟩ := bind_eq_ok.mp h
      obtain rfl : (1, 0x7f) = class' := ok.inj hclass
      simp only at h
      split at h
      · cases h
      · exact (congrArg Prod.snd (ok.inj h)).symm
    exact hone hdecode
  obtain ⟨byte, hbyte⟩ : ∃ byte, header.dcid.bytes = [byte] :=
    length_eq_one_iff.mp (by rw [ConnectionId.length_bytes, hcid])
  rw [hbyte, hlen] at heq
  exact wired_head hbody (cons.inj (cons.inj heq).2).2

/-! ## Every payload -/

/-- What put a payload on the bearer; a sync record also has the fields that it was built from. -/
inductive Source where
  | shortPacket
  | longPacket
  | statelessReset
  | nowSync (frame : NowSyncFrame)
  | tagged

/-- The handler that a payload is for. -/
def Source.class : Source → EspNowPayloadClass
  | .shortPacket | .longPacket | .statelessReset => .quicDatagram
  | .nowSync _ => .nowSync
  | .tagged => .taggedControl

/-- The first byte of a map with fewer than 24 entries, or with an indefinite number of them. -/
def MapHead (first : UInt8) : Prop := 0xa0 ≤ first ∧ first ≤ 0xb7 ∨ first = 0xbf

/-- Everything that is ever put on the bearer. -/
inductive Emitted (hmac : Hmac) (cbor : Cbor.Codec) : Source → Bytes → Prop
  | shortPacket {P : Nat} (aead : Aead) (protection : Option EndpointProtection)
      (s : EndpointState P) (op : Op) (pkt : Packet)
      (h : pkt ∈ s.sentWith aead protection op) :
        Emitted hmac cbor .shortPacket pkt.bytes
  | longPacket (packetType : Nat) (dcid scid : Option ConnectionId)
      (packetNumber packetNumberLen : Nat) (payload : Bytes) (capacity : Nat) (packet : Bytes)
      (h : encodeLongPacket packetType dcid scid packetNumber packetNumberLen payload capacity =
        .ok packet) :
      Emitted hmac cbor .longPacket packet
  | statelessReset (key : StatelessResetKey) (keyed : Bool) (triggeringPacket : Bytes)
      (capacity : Nat) (reset : Bytes)
      (h : key.encodeForUnknownPacket hmac keyed triggeringPacket capacity = .ok (some reset)) :
      Emitted hmac cbor .statelessReset reset
  | nowSync (frame : NowSyncFrame) (body : Bytes)
      (h : buildNowSyncBody frame.clusterId frame.anchorMaster frame.tsfUs frame.intervalTu
        frame.flags frame.serviceInfo = some body) : Emitted hmac cbor (.nowSync frame) body
  | tagged (first : UInt8) (rest : Bytes) (head : MapHead first)
      (h : (Discovery.decode cbor (first :: rest)).isSome) :
      Emitted hmac cbor .tagged (first :: rest)

/-- The payload reaches the handler that it is for, and a sync record arrives as it was built. -/
def Separated (cbor : Cbor.Codec) (source : Source) (payload : Bytes) : Prop :=
  classifyEspnowPayload cbor payload = source.class ∧
    ∀ frame, source = .nowSync frame → parseNowSyncBody payload = some frame

theorem short_classified {P : Nat} {aead : Aead} {protection : Option EndpointProtection}
    {s : EndpointState P} {op : Op} {pkt : Packet} (h : pkt ∈ s.sentWith aead protection op) :
    classifyEspnowPayload cbor pkt.bytes = .quicDatagram := by
  rw [classify_quicDatagram_iff]
  have hsends := (sentWith_sends h).1
  cases protection with
  | none =>
    obtain ⟨dcid, len, pathId, capacity, -, -, hwritten⟩ := hsends.written
    obtain ⟨body, hbytes, hwired⟩ := Written.formed hwritten |>.body
    rw [hbytes]
    have hall : ∀ len < 5, ShortHeader.firstByte flagFixed len &&& espNowQuicFixedBit ≠ 0 := by
      decide
    exact ⟨short_not_sync rfl hwired, _, _, rfl, hall _ (lt_succ_of_le (clampLen_pos _).2)⟩
  | some protection =>
    obtain ⟨pathId, body, seals⟩ := hsends.seals
    -- The mark of a protected packet is part of its first byte.
    have hall : ∀ len < 5, sealedFirst len ≠ 0x40 ∧ sealedFirst len &&& espNowQuicFixedBit ≠
        0 := by decide
    obtain ⟨hmarked, hfixed⟩ := hall pkt.header.packetNumberLen (lt_succ_of_le seals.digits.2)
    rw [seals.bytes]
    refine ⟨?_, _, _, rfl, hfixed⟩
    by_contra hsync
    obtain ⟨rest, heq, -⟩ := isNowSync_lead (Bool.not_eq_false _ ▸ hsync)
    exact hmarked (cons.inj heq).1

theorem long_classified {packetType packetNumber packetNumberLen : Nat}
    {dcid scid : Option ConnectionId} {payload packet : Bytes}
    (h : encodeLongPacket packetType dcid scid packetNumber packetNumberLen payload capacity =
      .ok packet) :
    classifyEspnowPayload cbor packet = .quicDatagram := by
  unfold encodeLongPacket at h
  split at h
  · cases h
  have hpass : ∀ {c : Prop} [Decidable c] {e : Error} {outcome : Except Error Bytes},
      (if c then .error e else outcome) = .ok packet → outcome = .ok packet := by
    intro c _ e outcome h
    split at h
    · cases h
    · exact h
  obtain ⟨length, -, h⟩ := bind_eq_ok.mp (hpass h)
  obtain rfl := ok.inj h
  have hall : ∀ packetType < 4, ∀ len < 5,
      longFirstByte packetType len ≠ 0x40 ∧ longFirstByte packetType len &&& espNowQuicFixedBit ≠
        0 := by decide
  obtain ⟨hlong, hfixed⟩ := hall packetType (by omega) packetNumberLen (by omega)
  rw [classify_quicDatagram_iff]
  refine ⟨?_, _, _, rfl, hfixed⟩
  by_contra hsync
  obtain ⟨rest, heq, -⟩ := isNowSync_lead (Bool.not_eq_false _ ▸ hsync)
  exact hlong (cons.inj heq).1

/-- A reset is never taken for a packet. -/
theorem reset_not_classified {hmac : Hmac} {key : StatelessResetKey} {keyed : Bool}
    {triggeringPacket reset : Bytes}
    (h : key.encodeForUnknownPacket hmac keyed triggeringPacket capacity = .ok (some reset)) :
    classifyEspnowPayload cbor reset ≠ .quicDatagram := by
  obtain ⟨dcid, hopaque⟩ := StatelessResetKey.encodeForUnknownPacket_ok h
  obtain ⟨first, rest, rfl⟩ := hopaque.lead
  rw [Ne, classify_quicDatagram_iff]
  rintro ⟨-, first', rest', heq, hfixed⟩
  obtain rfl := (cons.inj heq).1
  apply hfixed
  rw [UInt8.and_assoc]
  exact UInt8.and_zero

theorem tagged_classified {first : UInt8} {rest : Bytes} (head : MapHead first)
    (h : (Discovery.decode cbor (first :: rest)).isSome) :
    classifyEspnowPayload cbor (first :: rest) = .taggedControl := by
  have hall : ∀ byte : Fin 256, MapHead (.ofNat byte) →
      UInt8.ofNat byte ≠ espNowQuicFixedBit ∧ UInt8.ofNat byte &&& espNowQuicFixedBit = 0 := by
    unfold MapHead
    decide +kernel
  have hfirst := hall ⟨first.toNat, first.toNat_lt⟩
  simp only [UInt8.ofNat_toNat] at hfirst
  obtain ⟨hne, hfixed⟩ := hfirst head
  unfold classifyEspnowPayload
  rw [if_neg (fun hsync => hne (Option.some.inj hsync.1)), if_neg (by simp [hfixed]), if_pos h]

/-- A sync record reads back as it was built. -/
theorem parseNowSyncBody_build {frame : NowSyncFrame}
    (h : buildNowSyncBody frame.clusterId frame.anchorMaster frame.tsfUs frame.intervalTu
      frame.flags frame.serviceInfo = some body) : parseNowSyncBody body = some frame := by
  unfold buildNowSyncBody at h
  split at h
  · cases h
  obtain rfl := Option.some.inj h
  obtain ⟨cluster, anchor, tsf, interval, flags, info⟩ := frame
  have htsf : (toBytes 8 tsf.toNat).reverse.length = 8 := by rw [length_reverse, length_toBytes]
  have hinterval : (toBytes 4 interval.toNat).reverse.length = 4 := by
    rw [length_reverse, length_toBytes]
  generalize hbody : nowSyncPrefixByte ::
    (toBytes 4 nowSyncMagicVersion ++ (cluster.toList ++ (anchor.toList ++
    ((toBytes 8 tsf.toNat).reverse ++ ((toBytes 4 interval.toNat).reverse ++ flags :: info))))) =
      body
  -- The fields follow each other at fixed places.
  have h5 : body.drop 5 = cluster.toList ++ (anchor.toList ++ ((toBytes 8 tsf.toNat).reverse ++
      ((toBytes 4 interval.toNat).reverse ++ flags :: info))) := by rw [← hbody]; rfl
  have h11 : body.drop 11 = anchor.toList ++ ((toBytes 8 tsf.toNat).reverse ++
      ((toBytes 4 interval.toNat).reverse ++ flags :: info)) := by
    rw [show 11 = 5 + 6 from rfl, ← drop_drop, h5, drop_left' cluster.toList_length]
  have h17 : body.drop 17 = (toBytes 8 tsf.toNat).reverse ++
      ((toBytes 4 interval.toNat).reverse ++ flags :: info) := by
    rw [show 17 = 11 + 6 from rfl, ← drop_drop, h11, drop_left' anchor.toList_length]
  have h25 : body.drop 25 = (toBytes 4 interval.toNat).reverse ++ flags :: info := by
    rw [show 25 = 17 + 8 from rfl, ← drop_drop, h17, drop_left' htsf]
  have h29 : body.drop 29 = flags :: info := by
    rw [show 29 = 25 + 4 from rfl, ← drop_drop, h25, drop_left' hinterval]
  have hinfo : body.drop nowSyncHeaderLen = info := by
    rw [show nowSyncHeaderLen = 29 + 1 from rfl, ← drop_drop, h29]
    rfl
  have hflags : body.getD 29 0 = flags := by
    rw [← add_zero 29, getD_eq_getElem?_getD, ← getElem?_drop, h29]
    rfl
  have hsync : isNowSync body = true := by
    have hlength : nowSyncHeaderLen ≤ body.length := by
      have := congrArg length h29
      rw [length_drop, length_cons] at this
      have : nowSyncHeaderLen = 30 := rfl
      omega
    unfold isNowSync
    rw [if_neg (by rw [not_or]; exact ⟨by omega, by rw [← hbody]; exact fun h => h rfl⟩), ← hbody]
    rfl
  unfold parseNowSyncBody
  rw [if_pos hsync, h5, h11, h17, h25, hinfo, hflags, take_left' cluster.toList_length,
    take_left' anchor.toList_length, take_left' htsf, take_left' hinterval, toMac_toList,
      toMac_toList,
    reverse_reverse, reverse_reverse, ofBytes_toBytes, ofBytes_toBytes]
  simp

/-- Every payload reaches its own handler unless it is a stateless reset, which never does. -/
theorem separated_iff {hmac : Hmac} {source : Source} {payload : Bytes}
    (h : Emitted hmac cbor source payload) :
    Separated cbor source payload ↔ source ≠ .statelessReset := by
  cases h with
  | shortPacket aead protection s op pkt h =>
    exact iff_of_true ⟨short_classified h, fun frame hsource => by cases hsource⟩ (by simp)
  | longPacket packetType dcid scid packetNumber packetNumberLen body capacity packet h =>
    exact iff_of_true ⟨long_classified h, fun frame hsource => by cases hsource⟩ (by simp)
  | statelessReset key keyed triggeringPacket capacity reset h =>
    exact iff_of_false (fun hclass => reset_not_classified h hclass.1) (by simp)
  | nowSync frame body h =>
    have hparse := parseNowSyncBody_build h
    refine iff_of_true ⟨?_, fun frame' hsource => ?_⟩ (by simp)
    · have hsome : (parseNowSyncBody payload).isSome = true := by
        rw [hparse]
        rfl
      obtain ⟨rest, heq, -⟩ := isNowSync_lead ((isSome_parseNowSyncBody payload).symm.trans hsome)
      exact if_pos ⟨by rw [heq]; rfl, hsome⟩
    · rw [hparse, Source.nowSync.inj hsource]
  | tagged first rest head h =>
    exact iff_of_true ⟨tagged_classified head h, fun frame hsource => by cases hsource⟩ (by simp)

/-- A digest that is all zeros. -/
def zeroHmac : Hmac := ⟨fun _ _ => replicate 32 0, fun _ _ => length_replicate⟩

def zeroKey : StatelessResetKey := ⟨replicate 32 0, length_replicate⟩

def zeroFrame : NowSyncFrame := ⟨zeroMac, zeroMac, 0, 512, 1, []⟩

/-- A sync record arrives. -/
theorem zeroFrame_separated : Separated Cbor.minimal (.nowSync zeroFrame)
      (0x40 :: 0x4e :: 0x53 :: 0x59 :: 0x31 :: (replicate 20 0 ++ [0, 2, 0, 0, 1])) :=
  (separated_iff (show Emitted zeroHmac _ _ _ from .nowSync zeroFrame _ (by decide))).mpr (by simp)

/-- The answer to a padded packet for id 7 ends with the token for that id, and is not taken for a
packet. -/
theorem reset_not_separated :
    zeroKey.encodeForUnknownPacket zeroHmac false (0x40 :: 7 :: replicate 19 0) 100 =
        .ok (some ([0, 0x9d, 0x3a, 0xd7, 0x74] ++ replicate 16 0)) ∧
      classifyEspnowPayload Cbor.minimal ([0, 0x9d, 0x3a, 0xd7, 0x74] ++ replicate 16 0) =
        .unrecognized := by
  decide

end QuicLite.Nan
