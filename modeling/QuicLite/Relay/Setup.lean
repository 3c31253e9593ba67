import QuicLite.Wire.Long

/-!
# Setup messages

A circuit is set up by a request that passes from relay to relay. Its blocks are instructions, one
for each relay and one for the endpoint at the end; a relay acts on the first block, drops it and
passes the rest on under a new reverse id. The reply comes back the same way. Two versions of the
request are read: the older one has no route mode.

Writers append to what is written so far; readers return what they leave of the input.
-/

namespace QuicLite

open BigEndian

def setupVersion : UInt8 := 1
def setupRequestVersion : UInt8 := 2
def maxSetupBlocks : Nat := 8
def maxSetupBlockBytes : Nat := 256
/-- `DEFAULT_MAX_PACKET_SIZE - 64` -/
def maxSetupBodyBytes : Nat := 1100 - 64
def defaultSetupReplyBytes : Nat := 256
def setupBlockRelay : UInt8 := 1
def maxSetupBootstrapAckBytes : Nat := 128
def maxSetupHopAddressBytes : Nat := 18

/-! ## Bytes, varints and ids -/

def putSetupByte (value : UInt8) (capacity : Nat) (out : Bytes) : Except Error Bytes :=
  if capacity ≤ out.length then .error .bufferTooSmall else .ok (out ++ [value])

/-- `pos += cid.encode(&mut output[pos..])?` -/
def putConnectionId (cid : ConnectionId) (capacity : Nat) (out : Bytes) : Except Error Bytes := do
  let bs ← cid.encode (capacity - out.length)
  .ok (out ++ bs)

def takeSetupByte : Bytes → Except Error (UInt8 × Bytes)
  | [] => .error .invalid
  | byte :: rest => .ok (byte, rest)

section

variable (input : Bytes)

def takeVarint : Except Error (Nat × Bytes) := do
  let (value, used) ← getVarint input
  .ok (value, input.drop used)

def takeConnectionId : Except Error (ConnectionId × Bytes) := do
  let (cid, used) ← ConnectionId.decode input
  .ok (cid, input.drop used)

/-! ## Instructions -/

/-- The address is the part of the fixed array that is in use. -/
structure SetupHopInstruction where
  addressKind : UInt8
  address : Bytes
  leaseUs : Nat
  packetQuota : Nat
  deriving DecidableEq

def SetupHopInstruction.decode : Except Error SetupHopInstruction := do
  let (addressKind, rest) ← takeSetupByte input
  let (addressLen, rest) ← takeSetupByte rest
  if addressKind = 0 ∨ addressLen.toNat = 0 ∨ maxSetupHopAddressBytes < addressLen.toNat ∨
      rest.length < addressLen.toNat then .error .invalid
  else do
    let address := rest.take addressLen.toNat
    let (leaseUs, rest) ← takeVarint (rest.drop addressLen.toNat)
    let (packetQuota, rest) ← takeVarint rest
    if leaseUs = 0 ∨ packetQuota = 0 ∨ rest ≠ [] then .error .invalid
    else .ok ⟨addressKind, address, leaseUs, packetQuota⟩

structure SetupBlock where
  kind : UInt8
  version : UInt8
  protection : UInt8
  payload : Bytes
  deriving DecidableEq

/-- Kind, version, protection and length of a block, as every walk over the blocks starts. -/
def takeBlockHead : Except Error ((UInt8 × UInt8 × UInt8 × Nat) × Bytes) := do
  let (kind, rest) ← takeSetupByte input
  let (version, rest) ← takeSetupByte rest
  let (protection, rest) ← takeSetupByte rest
  let (len, rest) ← takeVarint rest
  .ok ((kind, version, protection, len), rest)

/-! ## Requests -/

inductive SetupMode where
  | create
  | join
  deriving DecidableEq

inductive RelayRouteMode where
  | layered
  | vipRouted
  | telescoping
  deriving DecidableEq

structure SetupCircuitKey where
  openerRole : Role
  sequence : Nat
  deriving DecidableEq

def SetupMode.byte : SetupMode → UInt8
  | .create => 0
  | .join => 1

def RelayRouteMode.byte : RelayRouteMode → UInt8
  | .layered => 0
  | .vipRouted => 1
  | .telescoping => 2

def Role.byte : Role → UInt8
  | .client => 0
  | .server => 1

def SetupMode.ofByte (byte : UInt8) : Except Error SetupMode :=
  if byte = 0 then .ok .create else if byte = 1 then .ok .join else .error .invalid

def RelayRouteMode.ofByte (byte : UInt8) : Except Error RelayRouteMode :=
  if byte = 0 then .ok .layered else if byte = 1 then .ok .vipRouted
  else if byte = 2 then .ok .telescoping
  else .error .invalid

def Role.ofByte (byte : UInt8) : Except Error Role :=
  if byte = 0 then .ok .client else if byte = 1 then .ok .server else .error .invalid

/-- What a request says besides its blocks. -/
structure SetupHead where
  transactionId : Nat
  mode : SetupMode
  routeMode : RelayRouteMode
  circuit : SetupCircuitKey
  destinationVip : Option UInt64
  previousReverseCid : Option ConnectionId
  deriving DecidableEq

structure SetupRequest extends SetupHead where
  blocks : List SetupBlock

/-- The blocks of a received request stay as they came. -/
structure SetupBlockBytes where
  bytes : Bytes
  count : Nat
  deriving DecidableEq

structure SetupRequestView extends SetupHead where
  version : UInt8
  blocks : SetupBlockBytes
  raw : Bytes
  deriving DecidableEq

def putVip (vip : Option UInt64) (capacity : Nat) (out : Bytes) : Except Error Bytes :=
  match vip with
  | some vip => do
      let out ← putSetupByte 1 capacity out
      putData (toBytes 8 vip.toNat) capacity out
  | none => putSetupByte 0 capacity out

def putReverseCid (cid : Option ConnectionId) (capacity : Nat) (out : Bytes) : Except Error Bytes :=
  match cid with
  | some cid => do
      let out ← putSetupByte 1 capacity out
      putConnectionId cid capacity out
  | none => putSetupByte 0 capacity out

def putRouteMode (version : UInt8) (routeMode : RelayRouteMode) (capacity : Nat) (out : Bytes) :
    Except Error Bytes :=
  if setupRequestVersion ≤ version then putSetupByte routeMode.byte capacity out else .ok out

/-- A request up to its blocks. -/
def putSetupHead (version : UInt8) (head : SetupHead) (count capacity : Nat) (out : Bytes) :
    Except Error Bytes := do
  let out ← putSetupByte version capacity out
  let out ← put head.transactionId capacity out
  let out ← putSetupByte head.mode.byte capacity out
  let out ← putRouteMode version head.routeMode capacity out
  let out ← putSetupByte head.circuit.openerRole.byte capacity out
  let out ← put head.circuit.sequence capacity out
  let out ← putVip head.destinationVip capacity out
  let out ← putReverseCid head.previousReverseCid capacity out
  put count capacity out

def putSetupBlock (block : SetupBlock) (capacity : Nat) (out : Bytes) : Except Error Bytes := do
  let out ← putSetupByte block.kind capacity out
  let out ← putSetupByte block.version capacity out
  let out ← putSetupByte block.protection capacity out
  let out ← put block.payload.length capacity out
  putData block.payload capacity out

def putSetupBlocks (capacity : Nat) : List SetupBlock → Bytes → Except Error Bytes
  | [], out => .ok out
  | block :: blocks, out => do
      let out ← putSetupBlock block capacity out
      if maxSetupBodyBytes < out.length then .error .invalid else putSetupBlocks capacity blocks out

/-- A block that `encode` writes and `decode` accepts. -/
structure SetupBlock.Valid (block : SetupBlock) : Prop where
  kind : block.kind ≠ 0
  version : block.version ≠ 0
  protection : block.protection = 0
  nonempty : block.payload.length ≠ 0
  length_le : block.payload.length ≤ maxSetupBlockBytes

instance (block : SetupBlock) : Decidable block.Valid :=
  decidable_of_iff (block.kind ≠ 0 ∧ block.version ≠ 0 ∧ block.protection = 0 ∧
    block.payload.length ≠ 0 ∧
      block.payload.length ≤ maxSetupBlockBytes)
    ⟨fun ⟨h₁, h₂, h₃, h₄, h₅⟩ => ⟨h₁, h₂, h₃, h₄, h₅⟩, fun ⟨h₁, h₂, h₃, h₄, h₅⟩ =>
      ⟨h₁, h₂, h₃, h₄, h₅⟩⟩

def SetupRequest.encode (self : SetupRequest) (capacity : Nat) : Except Error Bytes :=
  if self.transactionId = 0 ∨ self.circuit.sequence = 0 ∨ self.blocks = [] ∨
    maxSetupBlocks < self.blocks.length ∨
      self.destinationVip = some 0 ∨ (self.previousReverseCid.any fun cid => cid.value = 0) ∨
      ∃ block ∈ self.blocks, ¬ block.Valid then .error .invalid
  else do
    let out ← putSetupHead setupRequestVersion self.toSetupHead self.blocks.length capacity []
    putSetupBlocks capacity self.blocks out

def takeVip : Except Error (Option UInt64 × Bytes) := do
  let (byte, rest) ← takeSetupByte input
  if byte = 0 then .ok (none, rest)
  else if byte = 1 then
    if rest.length < 8 then .error .invalid
    else
      let vip := UInt64.ofNat (ofBytes 0 (rest.take 8))
      if vip = 0 then .error .invalid else .ok (some vip, rest.drop 8)
  else .error .invalid

def takeReverseCid : Except Error (Option ConnectionId × Bytes) := do
  let (byte, rest) ← takeSetupByte input
  if byte = 0 then .ok (none, rest)
  else if byte = 1 then do
    let (cid, rest) ← takeConnectionId rest
    if cid.value = 0 then .error .invalid else .ok (some cid, rest)
  else .error .invalid

end

def takeRouteMode (version : UInt8) (input : Bytes) : Except Error (RelayRouteMode × Bytes) :=
  if version = setupVersion then .ok (.layered, input)
  else do
    let (byte, rest) ← takeSetupByte input
    let routeMode ← RelayRouteMode.ofByte byte
    .ok (routeMode, rest)

def takeSetupHead (version : UInt8) (input : Bytes) : Except Error (SetupHead × Bytes) := do
  let (transactionId, rest) ← takeVarint input
  let (byte, rest) ← takeSetupByte rest
  let mode ← SetupMode.ofByte byte
  let (routeMode, rest) ← takeRouteMode version rest
  let (byte, rest) ← takeSetupByte rest
  let openerRole ← Role.ofByte byte
  let (sequence, rest) ← takeVarint rest
  let (destinationVip, rest) ← takeVip rest
  let (previousReverseCid, rest) ← takeReverseCid rest
  .ok (⟨transactionId, mode, routeMode, ⟨openerRole, sequence⟩, destinationVip, previousReverseCid⟩,
    rest)

/-- The walk that validates the blocks. -/
def checkBlocks : Nat → Bytes → Except Error Bytes
  | 0, input => .ok input
  | count + 1, input => do
      let ((kind, version, protection, len), rest) ← takeBlockHead input
      if kind = 0 ∨ version = 0 ∨ protection ≠ 0 ∨ len = 0 ∨ maxSetupBlockBytes < len ∨
        rest.length < len then
        .error .invalid
      else checkBlocks count (rest.drop len)

def SetupRequest.decode (input : Bytes) : Except Error SetupRequestView :=
  match input with
  | [] => .error .invalid
  | version :: rest =>
    if maxSetupBodyBytes < input.length ∨
      ¬(version = setupVersion ∨ version = setupRequestVersion) then .error .invalid
    else do
      let (head, rest) ← takeSetupHead version rest
      let (count, blocks) ← takeVarint rest
      if head.transactionId = 0 ∨ head.circuit.sequence = 0 ∨ count = 0 ∨
        maxSetupBlocks < count then .error .invalid
      else do
        let rest ← checkBlocks count blocks
        if rest ≠ [] then .error .invalid else .ok ⟨head, version, ⟨blocks, count⟩, input⟩

def decodeSetupRequestPacket (input : Bytes) : Except Error SetupRequestView := do
  let (header, bodyAt, bodyLen) ← decodeLongPacket input
  if header.packetType ≠ longPacketPathOpen ∨ header.dcid.isSome ∨ header.scid.isSome then
    .error .invalid
  else SetupRequest.decode ((input.drop bodyAt).take bodyLen)

/-! ## Passing a request on -/

/-- The loop of `get`: skip `index` blocks, read the next one. -/
def getBlock : Nat → Bytes → Option SetupBlock
  | index, bytes =>
    match takeBlockHead bytes with
    | .error _ => none
    | .ok ((kind, version, protection, len), rest) =>
      if rest.length < len then none
      else
        match index with
        | 0 => some ⟨kind, version, protection, rest.take len⟩
        | index + 1 => getBlock index (rest.drop len)

def SetupBlockBytes.get (self : SetupBlockBytes) (index : Nat) : Option SetupBlock :=
  if self.count ≤ index then none else getBlock index self.bytes

/-- This relay's instruction, if it is one that can be followed. -/
def SetupBlock.instruction (block : SetupBlock) : Except Error SetupHopInstruction :=
  if block.kind ≠ setupBlockRelay ∨ block.version ≠ 1 ∨ block.protection ≠ 0 then .error .invalid
  else SetupHopInstruction.decode block.payload

namespace SetupRequestView

def currentHopInstruction (self : SetupRequestView) : Except Error SetupHopInstruction :=
  match self.blocks.get 0 with
  | none => .error .invalid
  | some block => block.instruction

/-- Telescoping keeps the block of the current relay. -/
def consumedBlocks (self : SetupRequestView) : Nat := if self.routeMode ≠ .telescoping then 1 else 0

def skipBlocks : Nat → Bytes → Except Error Bytes
  | 0, bytes => .ok bytes
  | count + 1, bytes => do
      let ((_, _, _, len), rest) ← takeBlockHead bytes
      if rest.length < len then .error .invalid else skipBlocks count (rest.drop len)

def encodeAfterFirstBlockWithReverseCid (self : SetupRequestView)
    (previousReverseCid : Option ConnectionId) (capacity : Nat) : Except Error Bytes :=
  if self.blocks.count ≤ self.consumedBlocks then .error .invalid
  else do
    let _ ← self.currentHopInstruction
    let remaining ← skipBlocks self.consumedBlocks self.blocks.bytes
    let out ← putSetupHead self.version { self.toSetupHead with
        previousReverseCid := previousReverseCid }
      (self.blocks.count - self.consumedBlocks) capacity []
    let out ← putData remaining capacity out
    if maxSetupBodyBytes < out.length then .error .invalid else .ok out

end SetupRequestView

/-! ## Replies -/

inductive SetupResult where
  | accepted (endpointCid : ConnectionId) (leaseUs : Nat)
  | rejected (code : Nat)

def SetupResult.isRejected : SetupResult → Bool
  | .accepted _ _ => false
  | .rejected _ => true

/-- The OPEN_ACK of the endpoint, on its way to the opener. -/
structure SetupBootstrapAck where
  bytes : Bytes
  nonempty : bytes ≠ []
  length_le : bytes.length ≤ maxSetupBootstrapAckBytes

/-- The forward ids of the relays, the nearest first: the used part of the array, which holds no
zero. -/
structure SetupRelayCids where
  cids : List ConnectionId
  length_le : cids.length ≤ maxSetupBlocks - 1
  nonzero : ∀ cid ∈ cids, cid.value ≠ 0

structure SetupReply where
  transactionId : Nat
  circuit : SetupCircuitKey
  result : SetupResult
  bootstrapAck : Option SetupBootstrapAck
  relayCids : SetupRelayCids

def SetupBootstrapAck.fromSlice (input : Bytes) : Except Error SetupBootstrapAck :=
  if h : input ≠ [] ∧ input.length ≤ maxSetupBootstrapAckBytes then .ok ⟨input, h.1, h.2⟩
  else .error .invalid

def putResult (result : SetupResult) (capacity : Nat) (out : Bytes) : Except Error Bytes :=
  match result with
  | .accepted endpointCid leaseUs =>
    if endpointCid.value ≠ 0 ∧ leaseUs ≠ 0 then do
      let out ← putSetupByte 0 capacity out
      let out ← putConnectionId endpointCid capacity out
      put leaseUs capacity out
    else .error .invalid
  | .rejected code =>
    if code = 0 then .error .invalid
    else do
      let out ← putSetupByte 1 capacity out
      put code capacity out

def putBootstrapAck (result : SetupResult) (ack : Option SetupBootstrapAck) (capacity : Nat)
    (out : Bytes) : Except Error Bytes :=
  match result, ack with
  | .accepted _ _, some ack => do
      let out ← putSetupByte 1 capacity out
      let out ← put ack.bytes.length capacity out
      putData ack.bytes capacity out
  | _, none => putSetupByte 0 capacity out
  | .rejected _, some _ => .error .invalid

def putConnectionIds (capacity : Nat) : List ConnectionId → Bytes → Except Error Bytes
  | [], out => .ok out
  | cid :: cids, out => do
      let out ← putConnectionId cid capacity out
      putConnectionIds capacity cids out

def SetupRelayCids.encode (self : SetupRelayCids) (capacity : Nat) (out : Bytes) :
    Except Error Bytes := do
  let out ← put self.cids.length capacity out
  putConnectionIds capacity self.cids out

/-- A rejection names no relays. -/
def putRelayCids (result : SetupResult) (relayCids : SetupRelayCids) (capacity : Nat)
    (out : Bytes) : Except Error Bytes :=
  if result.isRejected ∧ relayCids.cids ≠ [] then .error .invalid else relayCids.encode capacity out

def SetupReply.encode (self : SetupReply) (capacity : Nat) : Except Error Bytes :=
  if self.transactionId = 0 ∨ self.circuit.sequence = 0 then .error .invalid
  else do
    let out ← putSetupByte setupVersion capacity []
    let out ← put self.transactionId capacity out
    let out ← putSetupByte self.circuit.openerRole.byte capacity out
    let out ← put self.circuit.sequence capacity out
    let out ← putResult self.result capacity out
    let out ← putBootstrapAck self.result self.bootstrapAck capacity out
    let out ← putRelayCids self.result self.relayCids capacity out
    if maxSetupBodyBytes < out.length then .error .invalid else .ok out

/-- The body goes through a fixed array of its own. -/
def SetupReply.encodePacket (self : SetupReply) (capacity : Nat) : Except Error Bytes := do
  let body ← self.encode defaultSetupReplyBytes
  encodeLongPacket longPacketPathOpenAck none none 0 1 body capacity

def takeResult (input : Bytes) : Except Error (SetupResult × Bytes) := do
  let (byte, rest) ← takeSetupByte input
  if byte = 0 then do
    let (endpointCid, rest) ← takeConnectionId rest
    if endpointCid.value = 0 then .error .invalid
    else do
      let (leaseUs, rest) ← takeVarint rest
      if leaseUs = 0 then .error .invalid else .ok (.accepted endpointCid leaseUs, rest)
  else if byte = 1 then do
    let (code, rest) ← takeVarint rest
    if code = 0 then .error .invalid else .ok (.rejected code, rest)
  else .error .invalid

def takeBootstrapAck (input : Bytes) : Except Error (Option SetupBootstrapAck × Bytes) := do
  let (byte, rest) ← takeSetupByte input
  if byte = 0 then .ok (none, rest)
  else if byte = 1 then do
    let (len, rest) ← takeVarint rest
    if rest.length < len then .error .invalid
    else do
      let ack ← SetupBootstrapAck.fromSlice (rest.take len)
      .ok (some ack, rest.drop len)
  else .error .invalid

def takeConnectionIds : Nat → Bytes → Except Error (List ConnectionId × Bytes)
  | 0, input => .ok ([], input)
  | count + 1, input => do
      let (cid, rest) ← takeConnectionId input
      if cid.value = 0 then .error .invalid
      else do
        let (cids, rest) ← takeConnectionIds count rest
        .ok (cid :: cids, rest)

def SetupRelayCids.decode (input : Bytes) : Except Error (SetupRelayCids × Bytes) := do
  let (len, rest) ← takeVarint input
  if maxSetupBlocks - 1 < len then .error .invalid
  else do
    let (cids, rest) ← takeConnectionIds len rest
    -- The loop has read `len` ids and none that is zero, so the test never fails.
    if h : cids.length ≤ maxSetupBlocks - 1 ∧ ∀ cid ∈ cids, cid.value ≠ 0 then
      .ok (⟨cids, h.1, h.2⟩, rest)
    else .error .invalid

def SetupReply.decode (input : Bytes) : Except Error SetupReply :=
  match input with
  | [] => .error .invalid
  | version :: rest =>
    if maxSetupBodyBytes < input.length ∨ version ≠ setupVersion then .error .invalid
    else do
      let (transactionId, rest) ← takeVarint rest
      let (byte, rest) ← takeSetupByte rest
      let openerRole ← Role.ofByte byte
      let (sequence, rest) ← takeVarint rest
      let (result, rest) ← takeResult rest
      let (bootstrapAck, rest) ← takeBootstrapAck rest
      let (relayCids, rest) ← SetupRelayCids.decode rest
      if result.isRejected ∧ bootstrapAck.isSome then .error .invalid
      else if result.isRejected ∧ relayCids.cids ≠ [] then .error .invalid
      else if transactionId = 0 ∨ sequence = 0 ∨ rest ≠ [] then .error .invalid
      else .ok ⟨transactionId, ⟨openerRole, sequence⟩, result, bootstrapAck, relayCids⟩

def decodeSetupReplyPacket (input : Bytes) : Except Error SetupReply := do
  let (header, bodyAt, bodyLen) ← decodeLongPacket input
  if header.packetType ≠ longPacketPathOpenAck ∨ header.dcid.isSome ∨ header.scid.isSome then
    .error .invalid
  else SetupReply.decode ((input.drop bodyAt).take bodyLen)

end QuicLite
