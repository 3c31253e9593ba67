import QuicLite.Path
import QuicLite.Wire.Long
import QuicLite.Wire.RoundTrip

/-!
# Bootstrap packets

A connection starts with an OPEN and its OPEN_ACK: Initial packets whose only frame carries, on
stream 0, a profile of the sender's limits. A version from 0 to 7 says which of three optional parts
the profile has: a stateless-reset token, a request to lower the peer's window, and extension
parameters, of which the size limit of DATAGRAM frames is one. The encoder builds the profile in
fixed arrays, which are never too small; the decoder skips to the extensions before it reads what
precedes them.
-/

namespace QuicLite

open BigEndian Writer List Nat

def controlStreamId : Nat := 0
def statelessResetTokenLen : Nat := 16
def maxDatagramFrameSizeParameter : Nat := 0x20

structure StatelessResetToken where
  bytes : Bytes
  length_eq : bytes.length = statelessResetTokenLen

structure ReceiveWindowRequest where
  maxData : Nat
  maxStreamData : Nat

structure BootstrapOpen where
  clientReceiveCid : ConnectionId
  maxData : Nat
  maxStreamData : Nat
  maxDatagramFrameSize : Nat
  maxInFlightPackets : UInt16
  statelessResetToken : Option StatelessResetToken
  requestedPeerLimits : Option ReceiveWindowRequest

structure BootstrapOpenAck where
  serverReceiveCid : ConnectionId
  maxData : Nat
  maxStreamData : Nat
  maxDatagramFrameSize : Nat
  maxInFlightPackets : UInt16
  statelessResetToken : Option StatelessResetToken

/-! ## The profile -/

def putToken (token : Option StatelessResetToken) (capacity : Nat) (out : Bytes) :
    Except Error Bytes :=
  match token with
  | some token => putData token.bytes capacity out
  | none => .ok out

def putRequest (request : Option ReceiveWindowRequest) (capacity : Nat) (out : Bytes) :
    Except Error Bytes :=
  match request with
  | some request =>
    if request.maxData = 0 ∨ request.maxStreamData = 0 then .error .bootstrapInvalid
    else do
      let out ← put request.maxData capacity out
      put request.maxStreamData capacity out
  | none => .ok out

/-- The value of the extension parameter goes through an array of eight bytes. -/
def putDatagramLimit (maxDatagramFrameSize : Nat) (capacity : Nat) (out : Bytes) :
    Except Error Bytes :=
  if maxDatagramFrameSize ≠ 0 then do
    let out ← put maxDatagramFrameSizeParameter capacity out
    let value ← putVarint maxDatagramFrameSize 8
    let out ← put value.length capacity out
    putData value capacity out
  else .ok out

variable (limits : ConnectionLimits)

/-- The parameters, in their array of 64 bytes. -/
def putParameters (maxInFlightPackets : UInt16) (token : Option StatelessResetToken)
    (request : Option ReceiveWindowRequest) (capacity : Nat) (out : Bytes) :
    Except Error Bytes := do
  let out ← put limits.maxData capacity out
  let out ← put limits.maxStreamData capacity out
  let out ← put maxInFlightPackets.toNat capacity out
  let out ← putToken token capacity out
  let out ← putRequest request capacity out
  putDatagramLimit limits.maxDatagramFrameSize capacity out

def profileVersion (token : Option StatelessResetToken) (request : Option ReceiveWindowRequest) :
    Nat :=
  (match token.isSome, request.isSome with
    | false, false => 0
    | true, false => 1
    | false, true => 2
    | true, true => 3) ||| if limits.maxDatagramFrameSize ≠ 0 then 4 else 0

def encodeBootstrapProfile (kind : UInt8) (limits : ConnectionLimits) (maxInFlightPackets : UInt16)
    (token : Option StatelessResetToken) (request : Option ReceiveWindowRequest) (capacity : Nat) :
    Except Error Bytes :=
  if capacity < 3 ∨ 1 < kind then .error .bufferTooSmall
  else do
    let out ← put (profileVersion limits token request) capacity [kind]
    let parameters ← putParameters limits maxInFlightPackets token request 64 []
    let out ← put parameters.length capacity out
    putData parameters capacity out

/-- What a profile says. -/
structure BootstrapProfile where
  maxData : Nat
  maxStreamData : Nat
  maxDatagramFrameSize : Nat
  maxInFlightPackets : UInt16
  statelessResetToken : Option StatelessResetToken
  requestedPeerLimits : Option ReceiveWindowRequest

section

variable (version : Nat) (expectedKind : UInt8)

/-- The position of the extension parameters. -/
def extensionAt (parameters : Bytes) (valuesLen : Nat) : Except Error Nat :=
  let at₁ := if version &&& 1 ≠ 0 then valuesLen + statelessResetTokenLen else valuesLen
  if version &&& 2 ≠ 0 then
    if expectedKind ≠ 0 then .error .bootstrapInvalid
    else if parameters.length < at₁ then .error .truncated
    else do
      let (_, at₂) ← readVarint parameters at₁
      let (_, at₃) ← readVarint parameters at₂
      .ok at₃
  else .ok at₁

/-- The loop over the extension parameters. Each takes two bytes at least. -/
def readExtensions : Nat → Bytes → Bool → Nat → Except Error Nat
  | 0, _, _, size => .ok size
  | fuel + 1, tail, seen, size =>
    if tail = [] then .ok size
    else do
      let (id, n) ← getVarint tail
      let tail := tail.drop n
      let (len, n) ← getVarint tail
      let tail := tail.drop n
      if tail.length < len then .error .truncated
      else if id = maxDatagramFrameSizeParameter then
        if seen then .error .bootstrapInvalid
        else do
          let (size, used) ← getVarint (tail.take len)
          if used ≠ len then .error .bootstrapInvalid
          else readExtensions fuel (tail.drop len) true size
      else readExtensions fuel (tail.drop len) seen size

/-- The extensions, and the parameters before them. -/
def splitExtensions (parameters : Bytes) (valuesLen : Nat) : Except Error (Nat × Bytes) :=
  if version &&& 4 ≠ 0 then do
    let extensionAt ← extensionAt version expectedKind parameters valuesLen
    if parameters.length < extensionAt then .error .truncated
    else do
      let size ← readExtensions parameters.length (parameters.drop extensionAt) false 0
      .ok (size, parameters.take extensionAt)
  else .ok (0, parameters)

def tokenOf (bytes : Bytes) : Except Error StatelessResetToken :=
  if h : bytes.length = statelessResetTokenLen then .ok ⟨bytes, h⟩ else .error .bootstrapInvalid

def readRequest (bytes : Bytes) : Except Error ReceiveWindowRequest := do
  let (maxData, at₁) ← readVarint bytes 0
  let (maxStreamData, at₂) ← readVarint bytes at₁
  if at₂ ≠ bytes.length ∨ maxData = 0 ∨ maxStreamData = 0 then .error .bootstrapInvalid
  else .ok ⟨maxData, maxStreamData⟩

/-- Token and request, by version. -/
def readOptional (parameters : Bytes) (valuesLen : Nat) :
    Except Error (Option StatelessResetToken × Option ReceiveWindowRequest) :=
  if version &&& 3 = 0 ∧ valuesLen = parameters.length then .ok (none, none)
  else if version &&& 3 = 1 ∧ valuesLen + statelessResetTokenLen = parameters.length then do
    let token ← tokenOf (parameters.drop valuesLen)
    .ok (some token, none)
  else if version &&& 3 = 3 ∧ expectedKind = 0 then
    if parameters.length < valuesLen + statelessResetTokenLen then .error .bootstrapInvalid
    else do
      let token ← tokenOf ((parameters.drop valuesLen).take statelessResetTokenLen)
      let request ← readRequest (parameters.drop (valuesLen + statelessResetTokenLen))
      .ok (some token, some request)
  else if version &&& 3 = 2 ∧ expectedKind = 0 then do
    let request ← readRequest (parameters.drop valuesLen)
    .ok (none, some request)
  else .error .bootstrapInvalid

end

def decodeBootstrapProfile (input : Bytes) (expectedKind : UInt8) : Except Error BootstrapProfile :=
  if input.head? ≠ some expectedKind then .error .bootstrapInvalid
  else do
    let (version, at₁) ← readVarint input 1
    if 7 < version then .error .bootstrapInvalid
    else do
      let (length, at₂) ← readVarint input at₁
      let parameters := input.drop at₂
      if parameters.length ≠ length then .error .bootstrapInvalid
      else do
        let (maxData, dataLen) ← readVarint parameters 0
        let (maxStreamData, streamLen) ← readVarint parameters dataLen
        let (packets, valuesLen) ← readVarint parameters streamLen
        let (maxDatagramFrameSize, parameters) ← splitExtensions version expectedKind parameters
            valuesLen
        let (token, request) ← readOptional version expectedKind parameters valuesLen
        if parameters.length < valuesLen ∨ maxData = 0 ∨ maxStreamData = 0 ∨ 65535 < packets then
          .error .bootstrapInvalid
        else .ok ⟨maxData, maxStreamData, maxDatagramFrameSize, UInt16.ofNat packets, token,
          request⟩

/-! ## OPEN and OPEN_ACK -/

/-- The profile on stream 0, in the arrays of 96 bytes that body and frame have. -/
def encodeBootstrapFrame (kind : UInt8) (limits : ConnectionLimits) (maxInFlightPackets : UInt16)
    (token : Option StatelessResetToken) (request : Option ReceiveWindowRequest) :
    Except Error Bytes := do
  let body ← encodeBootstrapProfile kind limits maxInFlightPackets token request 96
  (Frame.stream ⟨controlStreamId, 0, true, body⟩).encode 96

def encodeBootstrapOpenPacket (clientCid : ConnectionId) (packetNumber : Nat)
    (limits : ConnectionLimits) (maxInFlightPackets : UInt16) (token : Option StatelessResetToken)
    (request : Option ReceiveWindowRequest) (capacity : Nat) : Except Error Bytes :=
  if clientCid.value = 0 then .error .bootstrapInvalid
  else do
    let frame ← encodeBootstrapFrame 0 limits maxInFlightPackets token request
    encodeLongPacket longPacketInitial none (some clientCid) packetNumber 1 frame capacity

def encodeBootstrapOpenAckPacket (clientCid serverCid : ConnectionId) (packetNumber : Nat)
    (limits : ConnectionLimits) (maxInFlightPackets : UInt16) (token : Option StatelessResetToken)
    (capacity : Nat) : Except Error Bytes :=
  if clientCid.value = 0 ∨ serverCid.value = 0 ∨ clientCid = serverCid then .error .bootstrapInvalid
  else do
    let frame ← encodeBootstrapFrame 1 limits maxInFlightPackets token none
    encodeLongPacket longPacketInitial (some clientCid) (some serverCid) packetNumber 1 frame
      capacity

/-- The frame that fills the payload, and the profile in it. -/
def decodeBootstrapStream (payload : Bytes) : Except Error StreamFrame := do
  let (frame, used) ← decodeFrame payload
  if used ≠ payload.length then .error .bootstrapInvalid
  else
    match frame with
    | .stream stream =>
      if stream.id ≠ controlStreamId ∨ stream.offset ≠ 0 ∨ stream.fin = false then
        .error .bootstrapInvalid else .ok stream
    | _ => .error .bootstrapInvalid

def decodeBootstrapOpenPacketWithLimits (input : Bytes) :
    Except Error (ShortHeader × BootstrapOpen) := do
  let (long, headerLen, _) ← decodeLongPacket input
  if long.packetType ≠ longPacketInitial ∨ long.dcid.isSome then .error .bootstrapInvalid
  else
    match long.scid with
    | none => .error .bootstrapInvalid
    | some sourceCid => do
        let stream ← decodeBootstrapStream (input.drop headerLen)
        let profile ← decodeBootstrapProfile stream.data 0
        match ConnectionId.new 0 with
        | none => .error .bootstrapInvalid
        | some dcid =>
          .ok (⟨flagFixed, dcid, long.packetNumber, long.packetNumberLen⟩,
            ⟨sourceCid, profile.maxData, profile.maxStreamData, profile.maxDatagramFrameSize,
              profile.maxInFlightPackets, profile.statelessResetToken, profile.requestedPeerLimits⟩)

def decodeBootstrapOpenAckPacketWithLimits (input : Bytes) (expectedClientCid : ConnectionId) :
    Except Error (ShortHeader × BootstrapOpenAck) := do
  let (long, headerLen, _) ← decodeLongPacket input
  if long.packetType ≠ longPacketInitial ∨ long.dcid ≠ some expectedClientCid then
    .error .wrongConnectionId
  else do
    let stream ← decodeBootstrapStream (input.drop headerLen)
    match long.scid with
    | none => .error .bootstrapInvalid
    | some serverCid =>
      if serverCid = expectedClientCid then .error .bootstrapInvalid
      else do
        let profile ← decodeBootstrapProfile stream.data 1
        if profile.requestedPeerLimits.isSome then .error .bootstrapInvalid
        else
          .ok (⟨flagFixed, expectedClientCid, long.packetNumber, long.packetNumberLen⟩,
            ⟨serverCid, profile.maxData, profile.maxStreamData, profile.maxDatagramFrameSize,
              profile.maxInFlightPackets, profile.statelessResetToken⟩)

/-! ## What the encoder writes

The four arguments of the encoders are bundled into an `Offer`, and its bytes are spelled out part
by part. The encoders are shown to write them, from the parameters outwards, and the decoders to
read them back in the same order.
-/

/-- What one side offers the other: its limits and the two optional parts. -/
structure Offer where
  limits : ConnectionLimits
  packets : UInt16
  token : Option StatelessResetToken
  request : Option ReceiveWindowRequest

def tokenBytes (token : Option StatelessResetToken) : Bytes := (token.map (·.bytes)).getD []

def requestBytes : Option ReceiveWindowRequest → Bytes
  | some request => varint request.maxData ++ varint request.maxStreamData
  | none => []

def datagramBytes (maxDatagramFrameSize : Nat) : Bytes :=
  if maxDatagramFrameSize ≠ 0 then
    varint maxDatagramFrameSizeParameter ++
      (varint (varint maxDatagramFrameSize).length ++ varint maxDatagramFrameSize)
  else []

/-- The limits that a profile can carry. -/
structure ConnectionLimits.Advertisable (limits : ConnectionLimits) : Prop where
  maxData : 0 < limits.maxData ∧ limits.maxData < varintBound
  maxStreamData : 0 < limits.maxStreamData ∧ limits.maxStreamData < varintBound
  maxDatagramFrameSize : limits.maxDatagramFrameSize < varintBound

structure ReceiveWindowRequest.Valid (request : ReceiveWindowRequest) : Prop where
  maxData : 0 < request.maxData ∧ request.maxData < varintBound
  maxStreamData : 0 < request.maxStreamData ∧ request.maxStreamData < varintBound

namespace Offer

variable (self : Offer)

/-- The parameters that every version carries. -/
def values : Bytes :=
  varint self.limits.maxData ++ (varint self.limits.maxStreamData ++ varint self.packets.toNat)

/-- The parameters before the extensions. -/
def plain : Bytes := self.values ++ (tokenBytes self.token ++ requestBytes self.request)

def parameters : Bytes := self.plain ++ datagramBytes self.limits.maxDatagramFrameSize

def version : Nat := profileVersion self.limits self.token self.request

def bytes (kind : UInt8) : Bytes :=
  kind :: (varint self.version ++ (varint self.parameters.length ++ self.parameters))

/-- What the decoder makes of it. -/
def profile : BootstrapProfile :=
  ⟨self.limits.maxData, self.limits.maxStreamData, self.limits.maxDatagramFrameSize, self.packets,
    self.token, self.request⟩

end Offer

open Offer

structure Offer.Valid (offer : Offer) : Prop where
  limits : offer.limits.Advertisable
  request : ∀ r ∈ offer.request, r.Valid

section

variable (capacity : Nat)

theorem putToken_writes (token : Option StatelessResetToken) :
    Writes .bufferTooSmall capacity (putToken token capacity) (tokenBytes token) True := by
  cases token with
  | none => exact .nothing _ _
  | some token => exact putData_writes capacity token.bytes

theorem putRequest_writes {request : Option ReceiveWindowRequest} (h : ∀ r ∈ request, r.Valid) :
    Writes .bufferTooSmall capacity (putRequest request capacity) (requestBytes request) True := by
  cases request with
  | none => exact .nothing _ _
  | some request =>
  obtain ⟨⟨hdata, hdataLt⟩, hstream, hstreamLt⟩ := h request rfl
  have hstep : putRequest (some request) capacity =
      fun out => put request.maxData capacity out >>= put request.maxStreamData capacity := by
    funext out
    rw [putRequest, if_neg (by omega)]
  rw [hstep]
  apply ((put_writes capacity request.maxData).bind
    (put_writes capacity request.maxStreamData)).congr _ rfl
  exact iff_of_true ⟨hdataLt, hstreamLt⟩ trivial

theorem putDatagramLimit_writes {maxDatagramFrameSize : Nat}
    (h : maxDatagramFrameSize < varintBound) :
    Writes .bufferTooSmall capacity (putDatagramLimit maxDatagramFrameSize capacity)
      (datagramBytes maxDatagramFrameSize) True := by
  have hvalue : putVarint maxDatagramFrameSize 8 = .ok (varint maxDatagramFrameSize) :=
    putVarint_eq_ok.mpr ⟨h, varintLen_le _, rfl⟩
  unfold putDatagramLimit datagramBytes
  split
  · have hlen : (varint maxDatagramFrameSize).length < varintBound := by
      have := varintLen_le maxDatagramFrameSize
      rw [length_varint, varintBound]
      omega
    simp only [hvalue]
    apply ((put_writes capacity maxDatagramFrameSizeParameter).bind
      ((put_writes capacity (varint maxDatagramFrameSize).length).bind
        (putData_writes capacity (varint maxDatagramFrameSize)))).congr _ rfl
    exact iff_of_true ⟨by decide, hlen, trivial⟩ trivial
  · exact .nothing _ _

end

theorem length_tokenBytes (token : Option StatelessResetToken) :
    (tokenBytes token).length = if token.isSome then statelessResetTokenLen else 0 := by
  cases token with
  | none => rfl
  | some token => exact token.length_eq

theorem varintLen_of_lt {value : Nat} (h : value < 2 ^ 6) : varintLen value = 1 := by
  rw [varintLen, if_pos h]

section Profile

variable {offer : Offer} {kind : UInt8}

theorem putParameters_writes (capacity : Nat) (h : offer.Valid) : Writes .bufferTooSmall capacity
      (putParameters offer.limits offer.packets offer.token offer.request capacity)
      offer.parameters True := by
  have hpackets : offer.packets.toNat < varintBound := by
    have := offer.packets.toNat_lt
    rw [varintBound]
    omega
  apply ((put_writes capacity offer.limits.maxData).bind
    ((put_writes capacity offer.limits.maxStreamData).bind
    ((put_writes capacity offer.packets.toNat).bind ((putToken_writes capacity offer.token).bind
      ((putRequest_writes capacity h.request).bind
        (putDatagramLimit_writes capacity h.limits.maxDatagramFrameSize)))))).congr
  · exact iff_of_true ⟨h.limits.maxData.2, h.limits.maxStreamData.2, hpackets, trivial, trivial,
      trivial⟩ trivial
  · simp [parameters, plain, values]

/-- At most 62 of the 64 bytes of the array are used. -/
theorem Offer.length_parameters_le (offer : Offer) : offer.parameters.length ≤ 62 := by
  have hpackets : varintLen offer.packets.toNat ≤ 4 := by
    have := offer.packets.toNat_lt
    unfold varintLen
    split_ifs <;> omega
  have hlength : varintLen (varintLen offer.limits.maxDatagramFrameSize) = 1 := by
    have := varintLen_le offer.limits.maxDatagramFrameSize
    exact varintLen_of_lt (by omega)
  have htoken : (tokenBytes offer.token).length ≤ 16 := by
    rw [length_tokenBytes]
    split <;> decide
  have hrequest : (requestBytes offer.request).length ≤ 16 := by
    cases offer.request with
    | none => exact zero_le _
    | some request =>
      have hdata := varintLen_le request.maxData
      have hstream := varintLen_le request.maxStreamData
      simp only [requestBytes, length_append, length_varint]
      omega
  have hdatagram : (datagramBytes offer.limits.maxDatagramFrameSize).length ≤ 10 := by
    have := varintLen_le offer.limits.maxDatagramFrameSize
    have hparameter : varintLen maxDatagramFrameSizeParameter = 1 := rfl
    unfold datagramBytes
    split
    · simp only [length_append, length_varint]
      omega
    · exact zero_le _
  have hdata := varintLen_le offer.limits.maxData
  have hstream := varintLen_le offer.limits.maxStreamData
  simp only [parameters, plain, values, length_append, length_varint]
  omega

/-- The version is a set of three bits. -/
theorem Offer.version_bits (offer : Offer) :
    offer.version ≤ 7 ∧ (offer.version &&& 1 ≠ 0 ↔ offer.token.isSome = true) ∧
      (offer.version &&& 2 ≠ 0 ↔ offer.request.isSome = true) ∧
      (offer.version &&& 4 ≠ 0 ↔ offer.limits.maxDatagramFrameSize ≠ 0) ∧
      offer.version &&& 3 = offer.token.isSome.toNat + 2 * offer.request.isSome.toNat := by
  obtain ⟨limits, packets, token, request⟩ := offer
  unfold version profileVersion
  cases token <;> cases request <;> by_cases h : limits.maxDatagramFrameSize = 0 <;> simp [h]

theorem encodeBootstrapProfile_eq (hkind : ¬1 < kind) (h : offer.Valid) {capacity : Nat}
    (hcapacity : 65 ≤ capacity) :
    encodeBootstrapProfile kind offer.limits offer.packets offer.token offer.request capacity =
      .ok (offer.bytes kind) := by
  have hversion := offer.version_bits.1
  have hlength := offer.length_parameters_le
  have hparameters : putParameters offer.limits offer.packets offer.token offer.request 64 [] =
      .ok offer.parameters :=
    ((putParameters_writes 64 h).eq_ok_iff _).mpr ⟨trivial, by omega, rfl⟩
  have hversionPut := (put_writes capacity offer.version).complete [kind]
    (by rw [varintBound]; omega)
    (by rw [length_varint, varintLen_of_lt (by omega), length_singleton]; omega)
  have hrest := ((put_writes capacity offer.parameters.length).bind
    (putData_writes capacity offer.parameters)).complete ([kind] ++ varint offer.version)
      ⟨by rw [varintBound]; omega, trivial⟩ (by
        simp only [length_append, length_varint, length_singleton]
        rw [varintLen_of_lt (by omega), varintLen_of_lt (by omega)]
        omega)
  unfold encodeBootstrapProfile
  rw [if_neg (by rw [not_or]; exact ⟨by omega, hkind⟩),
    show put (profileVersion _ _ _) capacity [kind] = _ from hversionPut]
  simp only [ok_bind, hparameters]
  rw [hrest]
  rfl

theorem Offer.length_bytes_le (offer : Offer) (kind : UInt8) : (offer.bytes kind).length ≤ 65 := by
  have hversion := offer.version_bits.1
  have hlength := offer.length_parameters_le
  simp only [bytes, length_cons, length_append, length_varint]
  rw [varintLen_of_lt (by omega), varintLen_of_lt (by omega)]
  omega

/-! ## What the decoder reads back

The decoder skips to the extensions before it reads the token and the request, so `extensionAt_eq`
comes first: the position it computes is where the plain parameters end.
-/

theorem readRequest_requestBytes {request : ReceiveWindowRequest} (h : request.Valid) :
    readRequest (requestBytes (some request)) = .ok request := by
  obtain ⟨⟨hdata, hdataLt⟩, hstream, hstreamLt⟩ := h
  obtain ⟨hread₁, hdrop₁⟩ := readVarint_at hdataLt (drop_zero (l := requestBytes (some request)))
  rw [← append_nil (varint request.maxStreamData)] at hdrop₁
  obtain ⟨hread₂, -⟩ := readVarint_at hstreamLt hdrop₁
  simp only [readRequest, hread₁, hread₂, ok_bind]
  rw [if_neg]
  simp only [requestBytes, length_append, length_varint]
  omega

theorem tokenOf_bytes (token : StatelessResetToken) : tokenOf token.bytes = .ok token := by
  rw [tokenOf, dif_pos token.length_eq]

theorem readExtensions_datagramBytes {size : Nat} (hsize : size < varintBound) (hnonzero : size ≠ 0)
    (fuel : Nat) : readExtensions (fuel + 2) (datagramBytes size) false 0 = .ok size := by
  have hlen := varintLen_le size
  have hid := getVarint_varint (show maxDatagramFrameSizeParameter < varintBound by decide)
  have hlength := getVarint_varint
    (show (varint size).length < varintBound by rw [length_varint, varintBound]; omega)
  have hvalue := getVarint_varint hsize []
  rw [append_nil] at hvalue
  have hdrop₁ : (varint maxDatagramFrameSizeParameter ++
      (varint (varint size).length ++ varint size)).drop
      (varintLen maxDatagramFrameSizeParameter) = varint (varint size).length ++ varint size :=
    drop_left' (length_varint _)
  have hdrop₂ : (varint (varint size).length ++ varint size).drop (varintLen (varint size).length) =
      varint size :=
    drop_left' (length_varint _)
  have hnonempty : varint maxDatagramFrameSizeParameter ++
      (varint (varint size).length ++ varint size) ≠ [] := by
    apply append_ne_nil_of_left_ne_nil
    decide
  rw [datagramBytes, if_pos hnonzero, readExtensions, if_neg hnonempty]
  simp only [hid, ok_bind, hdrop₁, hlength, hdrop₂, lt_irrefl, if_false, if_true, take_length,
    hvalue, Bool.false_eq_true]
  rw [if_neg (by simp), drop_length, readExtensions, if_pos rfl]

section

variable (hkind : kind = 0 ∨ offer.request = none) (h : offer.Valid)
include hkind h

theorem extensionAt_eq : extensionAt offer.version kind offer.parameters offer.values.length =
      .ok offer.plain.length := by
  obtain ⟨-, htokenBit, hrequestBit, -, -⟩ := offer.version_bits
  have hat : (if offer.version &&& 1 ≠ 0 then offer.values.length + statelessResetTokenLen
      else offer.values.length) = (offer.values ++ tokenBytes offer.token).length := by
    rw [length_append, length_tokenBytes]
    simp only [htokenBit]
    split <;> rfl
  unfold extensionAt
  simp only [hat]
  cases hrequest : offer.request with
  | none =>
    rw [if_neg (by rw [hrequestBit, hrequest]; simp)]
    simp [plain, requestBytes, hrequest]
  | some request =>
  obtain ⟨⟨hdata, hdataLt⟩, hstream, hstreamLt⟩ := h.request request hrequest
  obtain rfl : kind = 0 := hkind.resolve_right (by simp [hrequest])
  have hdrop : offer.parameters.drop (offer.values ++ tokenBytes offer.token).length =
      varint request.maxData ++ (varint request.maxStreamData ++
        datagramBytes offer.limits.maxDatagramFrameSize) := by
    rw [parameters, plain, ← append_assoc, append_assoc, drop_left]
    simp [requestBytes, hrequest]
  obtain ⟨hread₁, hdrop₁⟩ := readVarint_at hdataLt hdrop
  obtain ⟨hread₂, -⟩ := readVarint_at hstreamLt hdrop₁
  rw [if_pos (by rw [hrequestBit, hrequest]; rfl), if_neg (by simp),
    if_neg (by simp [parameters, plain]), hread₁]
  simp only [ok_bind, hread₂]
  simp only [plain, hrequest, requestBytes, length_append, length_varint, add_assoc]

theorem splitExtensions_eq :
    splitExtensions offer.version kind offer.parameters offer.values.length =
      .ok (offer.limits.maxDatagramFrameSize, offer.plain) := by
  obtain ⟨-, -, -, hextended, -⟩ := offer.version_bits
  unfold splitExtensions
  by_cases hsize : offer.limits.maxDatagramFrameSize = 0
  · have hplain : offer.parameters = offer.plain := by
      rw [parameters, datagramBytes, if_neg (not_not.mpr hsize), append_nil]
    rw [if_neg (by rw [hextended]; exact not_not.mpr hsize), hplain, hsize]
  have hroom : 2 ≤ offer.parameters.length := by
    have hdata := varintLen_pos offer.limits.maxData
    have hstream := varintLen_pos offer.limits.maxStreamData
    simp only [parameters, plain, values, length_append, length_varint]
    omega
  obtain ⟨fuel, hfuel⟩ : ∃ fuel, offer.parameters.length = fuel + 2 :=
    ⟨_, (Nat.sub_add_cancel hroom).symm⟩
  rw [if_pos (hextended.mpr hsize), extensionAt_eq hkind h]
  simp only [ok_bind]
  rw [if_neg (by simp [parameters]), hfuel, parameters, drop_left, take_left,
    readExtensions_datagramBytes h.limits.maxDatagramFrameSize hsize, ok_bind]

theorem readOptional_eq : readOptional offer.version kind offer.plain offer.values.length =
      .ok (offer.token, offer.request) := by
  obtain ⟨-, -, -, -, hkinds⟩ := offer.version_bits
  unfold readOptional plain
  rw [hkinds]
  generalize offer.values = values
  have hdropToken (token : StatelessResetToken) (rest : Bytes) :
      (values ++ (token.bytes ++ rest)).drop (values.length + statelessResetTokenLen) = rest := by
    rw [← drop_drop, drop_left, drop_left' token.length_eq]
  cases htoken : offer.token with
  | none =>
    cases hrequest : offer.request with
    | none => rw [if_pos ⟨rfl, by simp [tokenBytes, requestBytes]⟩]
    | some request =>
      obtain rfl : kind = 0 := hkind.resolve_right (by simp [hrequest])
      have hread := readRequest_requestBytes (h.request request hrequest)
      simp [tokenBytes, hread]
  | some token =>
    have hlength := token.length_eq
    cases hrequest : offer.request with
    | none => simp [tokenBytes, requestBytes, hlength, tokenOf_bytes]
    | some request =>
      obtain rfl : kind = 0 := hkind.resolve_right (by simp [hrequest])
      have hread := readRequest_requestBytes (h.request request hrequest)
      simp [tokenBytes, hread, tokenOf_bytes, hlength]

theorem decodeBootstrapProfile_bytes :
    decodeBootstrapProfile (offer.bytes kind) kind = .ok offer.profile := by
  have hversion := offer.version_bits.1
  have hlength := offer.length_parameters_le
  have hpackets := offer.packets.toNat_lt
  obtain ⟨hreadVersion, hdropVersion⟩ := readVarint_at (by rw [varintBound]; omega)
    (show (offer.bytes kind).drop 1 = varint offer.version ++ _ from rfl)
  obtain ⟨hreadLength, hdropLength⟩ := readVarint_at (by rw [varintBound]; omega) hdropVersion
  have hparameters : offer.parameters.drop 0 = varint offer.limits.maxData ++
      (varint offer.limits.maxStreamData ++ (varint offer.packets.toNat ++
        (tokenBytes offer.token ++ (requestBytes offer.request ++
          datagramBytes offer.limits.maxDatagramFrameSize)))) := by
    simp [parameters, plain, values]
  obtain ⟨hreadData, hdropData⟩ := readVarint_at h.limits.maxData.2 hparameters
  obtain ⟨hreadStream, hdropStream⟩ := readVarint_at h.limits.maxStreamData.2 hdropData
  obtain ⟨hreadPackets, -⟩ := readVarint_at (by rw [varintBound]; omega) hdropStream
  have hvalues : 0 + varintLen offer.limits.maxData + varintLen offer.limits.maxStreamData +
      varintLen offer.packets.toNat = offer.values.length := by
    simp only [values, length_append, length_varint]
    omega
  rw [hvalues] at hreadPackets
  unfold decodeBootstrapProfile
  rw [if_neg (by simp [bytes]), hreadVersion]
  simp only [ok_bind]
  rw [if_neg (by omega), hreadLength]
  simp only [ok_bind, hdropLength, ne_eq, not_true_eq_false, if_false, hreadData, hreadStream,
    hreadPackets, splitExtensions_eq hkind h, readOptional_eq hkind h]
  rw [if_neg]
  · simp [profile]
  have hdata := h.limits.maxData.1
  have hstream := h.limits.maxStreamData.1
  simp only [plain, length_append]
  omega

end

/-! ## Packets -/

namespace Offer

variable (offer : Offer) (kind : UInt8)

def stream : StreamFrame := ⟨controlStreamId, 0, true, offer.bytes kind⟩

/-- The payload of a bootstrap packet. -/
def frame : Bytes := (Frame.stream (offer.stream kind)).wire

theorem stream_encodable : (Frame.stream (offer.stream kind)).Encodable := by
  have := offer.length_bytes_le kind
  refine ⟨?_, trivial⟩
  rintro v hv
  simp only [Frame.values, stream, mem_cons, not_mem_nil, or_false] at hv
  rcases hv with rfl | rfl | rfl | rfl
  · decide
  · decide
  · decide
  · rw [varintBound]
    omega

/-- At most 70 of the 96 bytes of the array are used. -/
theorem length_frame_le : (offer.frame kind).length ≤ 70 := by
  have hbody := offer.length_bytes_le kind
  have hlen : varintLen (offer.bytes kind).length ≤ 2 := by
    unfold varintLen
    split_ifs <;> omega
  have hhead : varintLen (frameStreamBase ||| 0x04 ||| 0x02 ||| true.toNat) = 1 ∧
      varintLen controlStreamId = 1 ∧ varintLen 0 = 1 := by decide
  simp only [frame, stream, Frame.wire, Frame.values, Frame.trailer, varints_cons, varints_nil,
    length_append, length_nil, length_varint]
  omega

theorem frame_ne_nil : offer.frame kind ≠ [] := by
  simp [frame, stream, Frame.wire, Frame.trailer, bytes]

theorem decodeBootstrapStream_frame :
    decodeBootstrapStream (offer.frame kind) = .ok (offer.stream kind) := by
  have hlength := offer.length_frame_le kind
  have hdecode := Frame.decodeFrame_wire (offer.stream_encodable kind) trivial [] (.inr rfl)
    (by rw [append_nil, IsSlice]; exact lt_of_le_of_lt hlength (by decide))
  rw [append_nil] at hdecode
  show (decodeFrame (Frame.stream _).wire >>= _) = _
  rw [hdecode]
  simp [frame, stream, Frame.wireForm]

end Offer

theorem encodeBootstrapFrame_eq (hkind : ¬1 < kind) (h : offer.Valid) :
    encodeBootstrapFrame kind offer.limits offer.packets offer.token offer.request =
      .ok (offer.frame kind) := by
  have hlength := offer.length_frame_le kind
  rw [encodeBootstrapFrame, encodeBootstrapProfile_eq hkind h (by decide), ok_bind]
  apply Frame.encode_eq_ok.mpr
  exact ⟨offer.stream_encodable kind, rfl, by omega⟩

end Profile

section

variable {packetNumber : Nat} {payload : Bytes} (dcid scid : Option ConnectionId)

def bootstrapHeader (packetNumber : Nat) : LongHeader :=
  ⟨longPacketInitial, dmeshLongHeaderVersion, dcid, scid, packetNumber, 1⟩

theorem bootstrapHeader_valid (h : packetNumber < 256) :
    (bootstrapHeader dcid scid packetNumber).Valid where
  packetType := zero_le _
  version := rfl
  packetNumberLen := ⟨le_refl 1, le_of_ble_eq_true rfl⟩
  packetNumber := h

theorem need_bootstrapHeader (packetNumber : Nat) (payload : Bytes) :
    (bootstrapHeader dcid scid packetNumber).need payload ≤ 33 + payload.length := by
  have hcid (cid : Option ConnectionId) : (longCid cid).length ≤ 9 := by
    rw [length_longCid]
    cases cid with
    | none => decide
    | some cid =>
      have := cid.encodedLen_le
      simp only [Option.map_some, Option.getD_some]
      omega
  have hdcid := hcid dcid
  have hscid := hcid scid
  rw [LongHeader.need, length_longStart, length_longToken]
  simp only [bootstrapHeader, if_true]
  omega

theorem encodeLongPacket_bootstrap (hnumber : packetNumber < 256) (hne : payload ≠ [])
    (hlength : payload.length ≤ 70) :
    encodeLongPacket longPacketInitial dcid scid packetNumber 1 payload defaultMaxPacketSize =
      .ok (longPacket (bootstrapHeader dcid scid packetNumber) payload) := by
  have hneed := need_bootstrapHeader dcid scid packetNumber payload
  apply encodeLongPacket_eq_ok (bootstrapHeader_valid dcid scid hnumber) hne
  · show 1 + payload.length < varintBound
    rw [varintBound]
    omega
  · rw [defaultMaxPacketSize]
    omega

theorem decodeLongPacket_bootstrap (hnumber : packetNumber < 256) (hlength : payload.length ≤ 70) :
    decodeLongPacket (longPacket (bootstrapHeader dcid scid packetNumber) payload) =
      .ok (bootstrapHeader dcid scid packetNumber,
        (longPacket (bootstrapHeader dcid scid packetNumber) payload).length - payload.length,
          payload.length) := by
  apply decodeLongPacket_longPacket (bootstrapHeader_valid dcid scid hnumber)
  show 1 + payload.length < varintBound
  rw [varintBound]
  omega

end

/-- An OPEN as it is sent; a relay may have put a destination in front of it. -/
def openPacket (dcid : Option ConnectionId) (clientCid : ConnectionId) (packetNumber : Nat)
    (limits : ConnectionLimits) (packets : UInt16) (token : Option StatelessResetToken)
    (request : Option ReceiveWindowRequest) : Bytes :=
  longPacket (bootstrapHeader dcid (some clientCid) packetNumber)
    (frame ⟨limits, packets, token, request⟩ 0)

section Packets

variable {clientCid serverCid : ConnectionId} {packetNumber : Nat} {offer : Offer}

theorem encodeBootstrapOpenPacket_eq (hclient : clientCid.value ≠ 0) (hnumber : packetNumber < 256)
    (h : offer.Valid) :
    encodeBootstrapOpenPacket clientCid packetNumber offer.limits offer.packets offer.token
      offer.request defaultMaxPacketSize =
      .ok (longPacket (bootstrapHeader none (some clientCid) packetNumber) (offer.frame 0)) := by
  rw [encodeBootstrapOpenPacket, if_neg hclient, encodeBootstrapFrame_eq (by decide) h]
  exact encodeLongPacket_bootstrap _ _ hnumber (offer.frame_ne_nil 0) (offer.length_frame_le 0)

theorem decodeBootstrapOpenPacketWithLimits_eq (clientCid : ConnectionId)
    (hnumber : packetNumber < 256) (h : offer.Valid) : decodeBootstrapOpenPacketWithLimits
      (longPacket (bootstrapHeader none (some clientCid) packetNumber) (offer.frame 0)) =
      .ok (⟨flagFixed, ⟨0, zero_le _⟩, packetNumber, 1⟩,
        ⟨clientCid, offer.limits.maxData, offer.limits.maxStreamData,
          offer.limits.maxDatagramFrameSize, offer.packets, offer.token, offer.request⟩) := by
  have hdecode := decodeLongPacket_bootstrap none (some clientCid) hnumber (offer.length_frame_le 0)
  rw [decodeBootstrapOpenPacketWithLimits, hdecode]
  simp only [ok_bind, drop_longPacket, decodeBootstrapStream_frame]
  simp only [stream, decodeBootstrapProfile_bytes (.inl rfl) h]
  rfl

/-- An OPEN_ACK makes no request. -/
theorem bootstrapOpenAck_eq (hclient : clientCid.value ≠ 0) (hserver : serverCid.value ≠ 0)
    (hne : clientCid ≠ serverCid) (hnumber : packetNumber < 256) (h : offer.Valid)
    (hrequest : offer.request = none) :
    ∃ packet, encodeBootstrapOpenAckPacket clientCid serverCid packetNumber offer.limits
        offer.packets offer.token defaultMaxPacketSize = .ok packet ∧
      decodeBootstrapOpenAckPacketWithLimits packet clientCid =
        .ok (⟨flagFixed, clientCid, packetNumber, 1⟩,
          ⟨serverCid, offer.limits.maxData, offer.limits.maxStreamData,
            offer.limits.maxDatagramFrameSize, offer.packets, offer.token⟩) := by
  have hframe := encodeBootstrapFrame_eq (show ¬1 < (1 : UInt8) by decide) h
  have hdecode := decodeLongPacket_bootstrap (some clientCid) (some serverCid) hnumber
    (offer.length_frame_le 1)
  have hprofile : decodeBootstrapProfile (offer.bytes 1) 1 = .ok offer.profile :=
    decodeBootstrapProfile_bytes (.inr hrequest) h
  refine ⟨longPacket (bootstrapHeader (some clientCid) (some serverCid) packetNumber)
    (offer.frame 1), ?_, ?_⟩
  · rw [hrequest] at hframe
    rw [encodeBootstrapOpenAckPacket, if_neg (by tauto), hframe]
    exact encodeLongPacket_bootstrap _ _ hnumber (offer.frame_ne_nil 1) (offer.length_frame_le 1)
  rw [decodeBootstrapOpenAckPacketWithLimits, hdecode]
  simp only [ok_bind, drop_longPacket, decodeBootstrapStream_frame]
  rw [if_neg (by simp [bootstrapHeader])]
  simp only [bootstrapHeader, stream, hprofile, if_neg hne.symm]
  simp [profile, hrequest]

end Packets

end QuicLite
