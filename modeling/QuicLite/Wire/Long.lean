import QuicLite.Wire.Header

/-!
# Long headers

Packets that are sent before a connection id is agreed on carry a long header: the version, a
length-prefixed destination and source id, either of which may be absent, a token in Initial
packets, and the length of what follows. `decodeLongPacket_ok` says what an accepted packet looks
like, and `decodeLongPacket_longPacket` reads an encoded one back.
-/

namespace QuicLite

open BigEndian List Option Nat

variable {header : LongHeader} {input : Bytes} {packetType position next : Nat}

def dmeshLongHeaderVersion : Nat := 0x444d0001

def longPacketInitial : Nat := 0
def longPacketPathOpen : Nat := 1
def longPacketPathOpenAck : Nat := 2

structure LongHeader where
  packetType : Nat
  version : Nat
  dcid : Option ConnectionId
  scid : Option ConnectionId
  packetNumber : Nat
  packetNumberLen : Nat

/-! ## Encoding -/

/-- A length-prefixed connection id; an absent one has length zero. -/
def longCid : Option ConnectionId → Bytes
  | none => [0]
  | some cid => UInt8.ofNat cid.encodedLen :: cid.bytes

/-- Initial packets have room for a token, which is empty. -/
def longToken (packetType : Nat) : Bytes := if packetType = longPacketInitial then [0] else []

def longFirstByte (packetType packetNumberLen : Nat) : UInt8 :=
  (0xc0 : UInt8) ||| (UInt8.ofNat packetType <<< 4) ||| UInt8.ofNat (packetNumberLen - 1)

/-- What precedes the length of the body. -/
def longStart (packetType : Nat) (dcid scid : Option ConnectionId) (packetNumberLen : Nat) :
    Bytes :=
  longFirstByte packetType packetNumberLen ::
    (toBytes 4 dmeshLongHeaderVersion ++ (longCid dcid ++ (longCid scid ++ longToken packetType)))

def encodeLongPacket (packetType : Nat) (dcid scid : Option ConnectionId)
    (packetNumber packetNumberLen : Nat) (payload : Bytes) (capacity : Nat) : Except Error Bytes :=
  if 3 < packetType ∨ packetNumberLen < 1 ∨ 4 < packetNumberLen ∨ payload = [] then .error .invalid
  else
    let need := 1 + 4 + 1 + (dcid.map (·.encodedLen)).getD 0 + 1 + (scid.map (·.encodedLen)).getD 0
      + (if packetType = longPacketInitial then 1 else 0) + 8 + packetNumberLen + payload.length
    if capacity < need then .error .bufferTooSmall
    else do
      let start := longStart packetType dcid scid packetNumberLen
      let length ← putVarint (packetNumberLen + payload.length) (capacity - start.length)
      .ok (start ++ (length ++ (toBytes packetNumberLen packetNumber ++ payload)))

/-! ## Decoding -/

/-- One turn of the loop over the two ids: the id at a position, and the position after it. -/
def decodeLongCid (input : Bytes) (position : Nat) : Except Error (Option ConnectionId × Nat) :=
  match input[position]? with
  | none => .error .truncated
  | some byte =>
    let len := byte.toNat
    let start := position + 1
    if len = 0 then .ok (none, start)
    else if ¬(len = 1 ∨ len = 2 ∨ len = 4 ∨ len = 8) ∨ input.length < start + len then
      .error .invalid
    else do
      let (cid, used) ← ConnectionId.decode ((input.drop start).take len)
      if used ≠ len then .error .invalid else .ok (some cid, start + len)

/-- The token of an Initial packet is skipped. -/
def skipLongToken (packetType : Nat) (input : Bytes) (position : Nat) : Except Error Nat :=
  if packetType = longPacketInitial then do
    let (tokenLen, used) ← getVarint (input.drop position)
    if input.length < position + used + tokenLen then .error .truncated
    else .ok (position + used + tokenLen)
  else .ok position

/-- The header, the position of the payload and its length. -/
def decodeLongPacket (input : Bytes) : Except Error (LongHeader × Nat × Nat) :=
  if input.length < 9 then .error .invalid
  else
    let first := input.headD 0
    if first &&& 0xc0 ≠ 0xc0 then .error .invalid
    else
      let version := ofBytes 0 ((input.drop 1).take 4)
      if version ≠ dmeshLongHeaderVersion then .error .invalid
      else do
        let packetType := ((first >>> 4) &&& 0x03).toNat
        let packetNumberLen := (first &&& 0x03).toNat + 1
        let (dcid, position) ← decodeLongCid input 5
        let (scid, position) ← decodeLongCid input position
        let position ← skipLongToken packetType input position
        let (bodyLen, used) ← getVarint (input.drop position)
        let position := position + used
        if bodyLen < packetNumberLen ∨ input.length ≠ position + bodyLen then .error .invalid
        else
          .ok (⟨packetType, version, dcid, scid,
            ofBytes 0 ((input.drop position).take packetNumberLen), packetNumberLen⟩,
            position + packetNumberLen, bodyLen - packetNumberLen)

/-! ## Reading a packet back -/

theorem length_longCid (cid : Option ConnectionId) :
    (longCid cid).length = 1 + (cid.map (·.encodedLen)).getD 0 := by
  cases cid with
  | none => rfl
  | some cid => simp [longCid, add_comm]

theorem length_longToken (packetType : Nat) :
    (longToken packetType).length = if packetType = longPacketInitial then 1 else 0 := by
  unfold longToken
  split <;> rfl

theorem length_longStart (packetType : Nat) (dcid scid : Option ConnectionId)
    (packetNumberLen : Nat) : (longStart packetType dcid scid packetNumberLen).length =
      5 + (longCid dcid).length + (longCid scid).length + (longToken packetType).length := by
  simp only [longStart, length_cons, length_append, length_toBytes]
  omega

/-- A packet as it is encoded. -/
def longPacket (header : LongHeader) (payload : Bytes) : Bytes :=
  longStart header.packetType header.dcid header.scid header.packetNumberLen ++
    (varint (header.packetNumberLen + payload.length) ++
      (toBytes header.packetNumberLen header.packetNumber ++ payload))

/-- The payload is at the end. -/
theorem drop_longPacket (header : LongHeader) (payload : Bytes) :
    (longPacket header payload).drop ((longPacket header payload).length - payload.length) =
      payload := by
  unfold longPacket
  simp only [← append_assoc]
  rw [length_append, Nat.add_sub_cancel, drop_left]

/-- The fields of a header that can be encoded. -/
structure LongHeader.Valid (header : LongHeader) : Prop where
  packetType : header.packetType ≤ 3
  version : header.version = dmeshLongHeaderVersion
  packetNumberLen : 1 ≤ header.packetNumberLen ∧ header.packetNumberLen ≤ 4
  packetNumber : header.packetNumber < 256 ^ header.packetNumberLen

/-- The space that `encode_long_packet` asks for, whatever the length of the body needs. -/
def LongHeader.need (header : LongHeader) (payload : Bytes) : Nat :=
  (longStart header.packetType header.dcid header.scid header.packetNumberLen).length + 8 +
    header.packetNumberLen
    + payload.length

theorem encodeLongPacket_eq_ok (hvalid : header.Valid) {payload : Bytes} (hpayload : payload ≠ [])
    (hbody : header.packetNumberLen + payload.length < varintBound) {capacity : Nat}
    (hcapacity : header.need payload ≤ capacity) :
    encodeLongPacket header.packetType header.dcid header.scid header.packetNumber
      header.packetNumberLen payload
      capacity = .ok (longPacket header payload) := by
  have htype := hvalid.packetType
  obtain ⟨hlow, hhigh⟩ := hvalid.packetNumberLen
  have hneed : header.need payload = 1 + 4 + 1 + (header.dcid.map (·.encodedLen)).getD 0 + 1 +
      (header.scid.map (·.encodedLen)).getD 0 +
        (if header.packetType = longPacketInitial then 1 else 0) + 8 +
      header.packetNumberLen + payload.length := by
    rw [LongHeader.need, length_longStart, length_longCid, length_longCid, length_longToken]
    omega
  have hlength : putVarint (header.packetNumberLen + payload.length)
      (capacity - (longStart header.packetType header.dcid header.scid
        header.packetNumberLen).length) =
        .ok (varint (header.packetNumberLen + payload.length)) := by
    rw [putVarint_eq_ok]
    refine ⟨hbody, ?_, rfl⟩
    have := varintLen_le (header.packetNumberLen + payload.length)
    unfold LongHeader.need at hcapacity
    omega
  unfold encodeLongPacket
  rw [if_neg (by simp only [not_or, not_lt]; exact ⟨htype, hlow, hhigh, hpayload⟩)]
  simp only
  rw [if_neg (by rw [← hneed]; omega), hlength]
  rfl

theorem decodeLongCid_longCid (before : Bytes) (cid : Option ConnectionId) (rest : Bytes) :
    decodeLongCid (before ++ (longCid cid ++ rest)) before.length =
      .ok (cid, before.length + (longCid cid).length) := by
  cases cid with
  | none => simp [decodeLongCid, longCid]
  | some cid =>
  have hlen : (UInt8.ofNat cid.encodedLen).toNat = cid.encodedLen := by
    have := cid.encodedLen_le
    rw [UInt8.toNat_ofNat']
    omega
  have hclass : cid.encodedLen = 1 ∨ cid.encodedLen = 2 ∨ cid.encodedLen = 4 ∨
      cid.encodedLen = 8 := by
    rcases cid.encodedLen_cases with h | h | h | h
    · exact .inl h.1
    · exact .inr (.inl h.1)
    · exact .inr (.inr (.inl h.1))
    · exact .inr (.inr (.inr h.1))
  have hslice : ((before ++ (longCid (some cid) ++ rest)).drop (before.length + 1)).take
      cid.encodedLen = cid.bytes := by
    rw [← drop_drop, drop_left]
    simp only [longCid, cons_append, drop_succ_cons, drop_zero]
    rw [← cid.length_bytes, take_left]
  have hdecode : ConnectionId.decode cid.bytes = .ok (cid, cid.encodedLen) := by
    simpa using ConnectionId.decode_bytes cid []
  have hbyte : (before ++ (longCid (some cid) ++ rest))[before.length]? =
      some (.ofNat cid.encodedLen) := by
    simp [longCid]
  unfold decodeLongCid
  rw [hbyte]
  simp only [hlen]
  rw [if_neg (by have := cid.encodedLen_pos; omega), if_neg, hslice, hdecode]
  · simp only [ok_bind]
    simp [length_longCid]
    omega
  rw [not_or, not_not]
  simp only [length_append, length_longCid, map_some, getD_some]
  omega

theorem skipLongToken_longToken (packetType : Nat) (before rest : Bytes) :
    skipLongToken packetType (before ++ (longToken packetType ++ rest)) before.length =
      .ok (before.length + (longToken packetType).length) := by
  unfold skipLongToken longToken
  split
  · have hdrop : (before ++ ([0] ++ rest)).drop before.length = varint 0 ++ rest := by
      rw [drop_left]
      rfl
    rw [hdrop, getVarint_varint (by decide)]
    simp only [ok_bind]
    rw [if_neg (by simp [varintLen])]
    rfl
  · rfl

theorem longFirstByte_spec {packetNumberLen : Nat} (htype : packetType ≤ 3)
    (hlen : 1 ≤ packetNumberLen ∧ packetNumberLen ≤ 4) :
    longFirstByte packetType packetNumberLen &&& 0xc0 = 0xc0 ∧
      ((longFirstByte packetType packetNumberLen >>> 4) &&& 0x03).toNat = packetType ∧
      (longFirstByte packetType packetNumberLen &&& 0x03).toNat + 1 = packetNumberLen := by
  obtain ⟨hlow, hhigh⟩ := hlen
  interval_cases packetType <;> interval_cases packetNumberLen <;> decide

theorem decodeLongPacket_longPacket (hvalid : header.Valid) {payload : Bytes}
    (hbody : header.packetNumberLen + payload.length < varintBound) :
    decodeLongPacket (longPacket header payload) =
      .ok (header, (longPacket header payload).length - payload.length, payload.length) := by
  obtain ⟨hfirst, htype, hlen⟩ := longFirstByte_spec hvalid.packetType hvalid.packetNumberLen
  obtain ⟨packetType, version, dcid, scid, packetNumber, packetNumberLen⟩ := header
  have hversion := hvalid.version
  have hnumber := hvalid.packetNumber
  simp only at hfirst htype hlen hversion hnumber hbody
  obtain ⟨head, hhead⟩ : ∃ head, head = longFirstByte packetType packetNumberLen ::
      toBytes 4 dmeshLongHeaderVersion :=
    ⟨_, rfl⟩
  obtain ⟨tail, htail⟩ : ∃ tail, tail = varint (packetNumberLen + payload.length) ++
      (toBytes packetNumberLen packetNumber ++ payload) := ⟨_, rfl⟩
  have hshape : longPacket ⟨packetType, version, dcid, scid, packetNumber, packetNumberLen⟩
      payload =
      head ++ (longCid dcid ++ (longCid scid ++ (longToken packetType ++ tail))) := by
    simp [longPacket, longStart, hhead, htail]
  have hfive : head.length = 5 := by simp [hhead]
  have hdcid := decodeLongCid_longCid head dcid (longCid scid ++ (longToken packetType ++ tail))
  have hscid := decodeLongCid_longCid (head ++ longCid dcid) scid (longToken packetType ++ tail)
  have htoken := skipLongToken_longToken packetType (head ++ longCid dcid ++ longCid scid) tail
  have hvarint := getVarint_varint hbody (toBytes packetNumberLen packetNumber ++ payload)
  rw [← htail] at hvarint
  simp only [append_assoc, length_append, hfive] at hdcid hscid htoken
  rw [← hshape] at hdcid hscid htoken
  have hlength : (longPacket ⟨packetType, version, dcid, scid, packetNumber, packetNumberLen⟩
      payload).length =
      5 + ((longCid dcid).length + (longCid scid).length) + (longToken packetType).length +
        varintLen (packetNumberLen + payload.length) + (packetNumberLen + payload.length) := by
    rw [hshape, htail]
    simp only [length_append, length_varint, length_toBytes]
    omega
  have hrest : (longPacket ⟨packetType, version, dcid, scid, packetNumber, packetNumberLen⟩
      payload).drop
      (5 + ((longCid dcid).length + (longCid scid).length) + (longToken packetType).length) =
        tail := by
    rw [hshape, ← append_assoc, ← append_assoc, ← append_assoc]
    apply drop_left'
    simp only [length_append]
    omega
  have hdigits : ((longPacket ⟨packetType, version, dcid, scid, packetNumber, packetNumberLen⟩
      payload).drop
      (5 + ((longCid dcid).length + (longCid scid).length) + (longToken packetType).length +
        varintLen (packetNumberLen + payload.length))).take packetNumberLen =
      toBytes packetNumberLen packetNumber := by
    rw [← drop_drop, hrest, htail, drop_left' (length_varint _), take_left' (length_toBytes _ _)]
  generalize hinput : longPacket ⟨packetType, version, dcid, scid, packetNumber, packetNumberLen⟩
    payload = input at *
  have hheadD : input.headD 0 = longFirstByte packetType packetNumberLen := by
    rw [hshape, hhead]
    rfl
  have hversionBytes : ofBytes 0 ((input.drop 1).take 4) = dmeshLongHeaderVersion := by
    rw [hshape, hhead]
    simp only [cons_append, drop_succ_cons, drop_zero]
    rw [take_left' (length_toBytes _ _)]
    decide
  have hpos := varintLen_pos (packetNumberLen + payload.length)
  have hcidLen : 1 ≤ (longCid dcid).length ∧ 1 ≤ (longCid scid).length := by
    rw [length_longCid, length_longCid]
    omega
  unfold decodeLongPacket
  rw [if_neg (by omega)]
  simp only [hheadD, hversionBytes, htype, hlen, hfirst, hdcid, ok_bind, ne_eq, not_true_eq_false,
    if_false]
  rw [hscid, add_assoc 5]
  simp only [ok_bind, htoken, hrest, hvarint]
  rw [if_neg (by omega), hdigits, ofBytes_toBytes, mod_eq_of_lt hnumber, hversion]
  simp only [zero_mul, zero_add, Except.ok.injEq, Prod.mk.injEq, true_and]
  omega

/-! ## What the decoder accepts -/

theorem decodeLongCid_ok {cid : Option ConnectionId}
    (h : decodeLongCid input position = .ok (cid, next)) :
    next = position + (longCid cid).length ∧ next ≤ input.length := by
  unfold decodeLongCid at h
  split at h
  · cases h
  rename_i byte hbyte
  have hposition : position < input.length := (List.getElem?_eq_some_iff.mp hbyte).1
  simp only at h
  split at h
  · cases h
    exact ⟨rfl, hposition⟩
  split at h
  · cases h
  rename_i hlen
  obtain ⟨⟨id, used⟩, hdecode, h⟩ := bind_eq_ok.mp h
  simp only at h
  split at h
  · cases h
  rename_i hused
  cases h
  obtain ⟨hn, -, -⟩ := ConnectionId.decode_ok hdecode
  rw [length_longCid, map_some, getD_some]
  omega

theorem skipLongToken_ok (hposition : position ≤ input.length)
    (h : skipLongToken packetType input position = .ok next) :
    position + (longToken packetType).length ≤ next ∧ next ≤ input.length := by
  unfold skipLongToken at h
  rw [length_longToken]
  split at h
  · rename_i hinitial
    rw [if_pos hinitial]
    obtain ⟨⟨tokenLen, used⟩, hvarint, h⟩ := bind_eq_ok.mp h
    simp only at h
    split at h
    · cases h
    cases h
    have := (getVarint_ok hvarint).2.1
    omega
  · rename_i hother
    rw [if_neg hother]
    cases h
    exact ⟨le_refl _, hposition⟩

/-- An accepted packet has a header that can be encoded again, in at most fifteen bytes more, and
its payload reaches to its end. -/
theorem decodeLongPacket_ok {payloadAt payloadLen : Nat}
    (h : decodeLongPacket input = .ok (header, payloadAt, payloadLen)) :
    header.Valid ∧ header.packetNumberLen + payloadLen < varintBound ∧
      payloadAt + payloadLen = input.length ∧
      (longStart header.packetType header.dcid header.scid header.packetNumberLen).length + 1 +
        header.packetNumberLen + payloadLen ≤ input.length := by
  unfold decodeLongPacket at h
  split at h
  · cases h
  simp only at h
  split at h
  · cases h
  split at h
  · cases h
  rename_i hversion
  simp only [bind_eq_ok] at h
  obtain ⟨⟨dcid, afterDcid⟩, hdcid, ⟨scid, afterScid⟩, hscid, afterToken, htoken, ⟨bodyLen, used⟩,
      hbody, h⟩ := h
  split at h
  · cases h
  cases h
  rw [not_not] at hversion
  obtain ⟨hafterDcid, -⟩ := decodeLongCid_ok hdcid
  obtain ⟨hafterScid, hle⟩ := decodeLongCid_ok hscid
  obtain ⟨htokenLe, -⟩ := skipLongToken_ok hle htoken
  have hvarint := getVarint_ok hbody
  have hnumberLen : ((input.headD 0) &&& 3).toNat ≤ 3 := by
    exact and_le_right
  have htype : ((input.headD 0 >>> 4) &&& 3).toNat ≤ 3 := by
    exact and_le_right
  refine ⟨⟨htype, hversion, ⟨succ_le_succ (zero_le _), succ_le_succ hnumberLen⟩, ?_⟩, ?_, ?_, ?_⟩
  · have hlt := ofBytes_lt 0
      ((input.drop (afterToken + used)).take (((input.headD 0) &&& 3).toNat + 1))
    have hlength : ((input.drop (afterToken + used)).take
        (((input.headD 0) &&& 3).toNat + 1)).length =
        ((input.headD 0) &&& 3).toNat + 1 := by
      rw [length_take, length_drop]
      omega
    rw [hlength] at hlt
    simpa using hlt
  · simp only
    omega
  · omega
  · rw [length_longStart]
    simp only
    omega

end QuicLite
