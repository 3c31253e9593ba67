import QuicLite.Discovery.Tagged
import Mathlib.Data.Vector.Basic

/-!
# The announce record

`encodeInner` writes a presence record, the signed form as well as the form that is signed, and
`decodeRecord` reads it. A field of the source that is an array with a length in use is a `Padded`.
-/

namespace QuicLite.Discovery

open Cbor

/-! ## The record -/

/-- A fixed array, and how many of its bytes are in use. -/
structure Padded (max : Nat) where
  bytes : List.Vector UInt8 max
  len : Nat
deriving DecidableEq

namespace Padded

variable {max : Nat}

def empty : Padded max := ⟨List.Vector.replicate max 0, 0⟩

/-- `&self.bytes[..usize::from(self.len).min(max)]`. -/
def used (self : Padded max) : Bytes := self.bytes.toList.take (min self.len max)

theorem store_length {bs : Bytes} (h : bs.length ≤ max) (old : List.Vector UInt8 max) :
    (bs ++ old.toList.drop bs.length).length = max := by
  rw [List.length_append, List.length_drop, List.Vector.toList_length]
  omega

/-- `self.bytes[..bs.len()].copy_from_slice(bs)`: what lies behind is kept. -/
def store (self : Padded max) (bs : Bytes) (h : bs.length ≤ max) : Padded max :=
  ⟨⟨bs ++ self.bytes.toList.drop bs.length, store_length h self.bytes⟩, bs.length⟩

end Padded

/-- `core::str::from_utf8`; a string is kept as its bytes. -/
def fromUtf8 (bs : Bytes) : Option Bytes :=
  if (ByteArray.mk bs.toArray).validateUTF8 then some bs else none

/-- `bs.try_into()`. -/
def toVector (n : Nat) (bs : Bytes) : Option (List.Vector UInt8 n) :=
  if h : bs.length = n then some ⟨bs, h⟩ else none

def announceComponent : Nat := 6
def announceDiscovery : Nat := 2
def announceTransitionBegin : Nat := 5
def announceSleepPending : Nat := 6
def announceTransitionComplete : Nat := 7
def announceWake : Nat := 8

def fieldDeviceId : Nat := 1
def fieldUptimeSecs : Nat := 2
def fieldPublicKey : Nat := 5
def fieldSignature : Nat := 6
def fieldDeviceClass : Nat := 7
def fieldProbeCapabilities : Nat := 8
def fieldDeviceName : Nat := 9
def fieldNetworkName : Nat := 10
def fieldStaLinkLocalV6 : Nat := 11
def fieldWifiChannel : Nat := 13
def fieldUdpPort : Nat := 14
def fieldUdpLinkLocalV6 : Nat := 15
def fieldDeviceDomain : Nat := 16
def fieldRecovery : Nat := 17

def signatureLen : Nat := 64

structure Announce where
  kind : UInt64
  deviceId : Padded 16
  uptimeSecs : UInt32
  deviceClass : UInt8
  probeCapabilities : UInt16
  publicKey : Padded 128
  signature : Padded 64
  deviceName : Padded 8
  deviceDomain : Padded 16
  networkName : Padded 32
  wifiChannel : UInt8
  staLinkLocalV6 : List.Vector UInt8 16
  staLinkLocalV6Present : Bool
  udpPort : UInt16
  udpLinkLocalV6 : List.Vector UInt8 16
  udpLinkLocalV6Present : Bool
  recovery : Bool
deriving DecidableEq

namespace Announce

/-- The record that `decode_record` starts from. -/
def blank (kind : UInt64) : Announce :=
  ⟨kind, .empty, 0, 0, 0, .empty, .empty, .empty, .empty, .empty, 0, List.Vector.replicate 16 0,
    false, 0, List.Vector.replicate 16 0, false, false⟩

/-- The text in use, if it is one and not empty. -/
def text {max : Nat} (field : Padded max) : Option Bytes :=
  (fromUtf8 field.used).filter fun text => !text.isEmpty

def hasIdentity (self : Announce) : Bool :=
  !self.publicKey.used.isEmpty && !self.signature.used.isEmpty

end Announce

/-! ## Encoding -/

/-- A key and its encoded value. -/
def putEntry (cbor : Codec) (capacity key : Nat) (value out : Bytes) : Except Unit Bytes := do
  let out ← put capacity (cbor.uint key) out
  put capacity value out

section Encode

variable (cbor : Codec) (capacity : Nat) (announce : Announce)

/-- The map of fields. -/
def putFields (includeSignature : Bool) (out : Bytes) : Except Unit Bytes := do
  let hasKey := !announce.publicKey.used.isEmpty
  let hasSignature := includeSignature && !announce.signature.used.isEmpty
  let hasName := (Announce.text announce.deviceName).isSome
  let hasDomain := (Announce.text announce.deviceDomain).isSome
  let hasNetworkName := (Announce.text announce.networkName).isSome
  let hasWifiChannel := announce.wifiChannel != 0
  let hasUdpPort := announce.udpPort != 0
  let hasDescriptor := announce.deviceClass != 0 || announce.probeCapabilities != 0
  let out ← put capacity (cbor.map
      (2 + hasKey.toNat + hasSignature.toNat + 2 * hasDescriptor.toNat + hasName.toNat +
    hasDomain.toNat + hasNetworkName.toNat + hasWifiChannel.toNat +
      announce.staLinkLocalV6Present.toNat +
    hasUdpPort.toNat + announce.udpLinkLocalV6Present.toNat + announce.recovery.toNat)) out
  let out ← putEntry cbor capacity fieldDeviceId (cbor.bytesValue announce.deviceId.used) out
  let out ← putEntry cbor capacity fieldUptimeSecs (cbor.uint announce.uptimeSecs.toNat) out
  let out ← putWhen hasDescriptor
    (putEntry cbor capacity fieldDeviceClass (cbor.uint announce.deviceClass.toNat)) out
  let out ← putWhen hasDescriptor
    (putEntry cbor capacity fieldProbeCapabilities (cbor.uint announce.probeCapabilities.toNat)) out
  let out ← putWhen hasKey
      (putEntry cbor capacity fieldPublicKey (cbor.bytesValue announce.publicKey.used)) out
  let out ← putWhen hasSignature
      (putEntry cbor capacity fieldSignature (cbor.bytesValue announce.signature.used)) out
  let out ← putWhen hasName
      (putEntry cbor capacity fieldDeviceName (cbor.bytesValue announce.deviceName.used)) out
  let out ← putWhen hasDomain
    (putEntry cbor capacity fieldDeviceDomain (cbor.bytesValue announce.deviceDomain.used)) out
  let out ← putWhen hasNetworkName
    (putEntry cbor capacity fieldNetworkName (cbor.bytesValue announce.networkName.used)) out
  let out ← putWhen hasWifiChannel
    (putEntry cbor capacity fieldWifiChannel (cbor.uint announce.wifiChannel.toNat)) out
  let out ← putWhen announce.staLinkLocalV6Present
    (putEntry cbor capacity fieldStaLinkLocalV6 (cbor.bytesValue announce.staLinkLocalV6.toList))
      out
  let out ← putWhen hasUdpPort
      (putEntry cbor capacity fieldUdpPort (cbor.uint announce.udpPort.toNat)) out
  let out ← putWhen announce.udpLinkLocalV6Present
    (putEntry cbor capacity fieldUdpLinkLocalV6 (cbor.bytesValue announce.udpLinkLocalV6.toList))
      out
  putWhen announce.recovery (putEntry cbor capacity fieldRecovery (cbor.boolean true)) out

/-- The envelope in front of the fields. -/
def putEnvelope (kind : Nat) (id : Option Nat) (entries : Nat) (out : Bytes) :
    Except Unit Bytes := do
  let out ← put capacity (cbor.map entries) out
  let out ← putEntry cbor capacity 1 (cbor.uint announceComponent) out
  let out ← putEntry cbor capacity 2 (cbor.uint kind) out
  putWhen id.isSome (putEntry cbor capacity 3 (cbor.uint (id.getD 0))) out

def encodeInner (includeSignature : Bool) (id : Option Nat) : Option Bytes :=
  let hasKey := !announce.publicKey.used.isEmpty
  let suppliedSignature := !announce.signature.used.isEmpty
  if announce.deviceId.used.isEmpty then none
  else if announce.udpPort != 0 && !announce.udpLinkLocalV6Present then none
  else if (includeSignature && suppliedSignature != hasKey) ||
    (!includeSignature && suppliedSignature && !hasKey) then none
  else
    Except.toOption do
      let out ← putEnvelope cbor capacity announce.kind.toNat id (if id.isSome then 4 else 3) []
      let out ← put capacity (cbor.uint 5) out
      putFields cbor capacity announce includeSignature out

def encode : Option Bytes := encodeInner cbor capacity announce true none

def encodeDiscoveryResponse (id : Nat) : Option Bytes :=
  if announce.kind.toNat ≠ announceDiscovery then none
  else encodeInner cbor capacity announce true (some id)

/-- The bytes under the signature: everything but the signature. -/
def signingBytes : Option Bytes :=
  if announce.publicKey.len = 0 then none else encodeInner cbor capacity announce false none

end Encode

/-! ## Decoding -/

/-- What the decoder finds under one key of the map of fields. -/
inductive Field where
  | deviceId (id : Bytes)
  | uptimeSecs (n : Nat)
  | deviceClass (n : Nat)
  | probeCapabilities (n : Nat)
  | publicKey (key : Bytes)
  | signature (signature : Bytes)
  | deviceName (name : Bytes)
  | deviceDomain (domain : Bytes)
  | networkName (name : Bytes)
  | wifiChannel (n : Nat)
  | staLinkLocalV6 (address : Bytes)
  | udpPort (n : Nat)
  | udpLinkLocalV6 (address : Bytes)
  | recovery (b : Bool)

section Read

variable (cbor : Codec) (d : Bytes)

def readUintField (field : Nat → Field) : Option (Option Field × Bytes) :=
  (cbor.readUint d).map fun read => (some (field read.1), read.2)

def readBytesField (field : Bytes → Field) : Option (Option Field × Bytes) :=
  (cbor.readBytes d).map fun read => (some (field read.1), read.2)

/-- The value under a key. An unknown field is skipped. -/
def readField (key : Nat) : Option (Option Field × Bytes) :=
  if key = fieldDeviceId then readBytesField cbor d .deviceId
  else if key = fieldUptimeSecs then readUintField cbor d .uptimeSecs
  else if key = fieldDeviceClass then readUintField cbor d .deviceClass
  else if key = fieldProbeCapabilities then readUintField cbor d .probeCapabilities
  else if key = fieldPublicKey then readBytesField cbor d .publicKey
  else if key = fieldSignature then readBytesField cbor d .signature
  else if key = fieldDeviceName then readBytesField cbor d .deviceName
  else if key = fieldDeviceDomain then readBytesField cbor d .deviceDomain
  else if key = fieldNetworkName then readBytesField cbor d .networkName
  else if key = fieldWifiChannel then readUintField cbor d .wifiChannel
  else if key = fieldStaLinkLocalV6 then readBytesField cbor d .staLinkLocalV6
  else if key = fieldUdpPort then readUintField cbor d .udpPort
  else if key = fieldUdpLinkLocalV6 then readBytesField cbor d .udpLinkLocalV6
  else if key = fieldRecovery then (cbor.readBoolean d).map fun read =>
    (some (.recovery read.1), read.2)
  else (cbor.skip d).map fun rest => (none, rest)

end Read

/-- A field that may be stored once, and not empty. -/
def Padded.acceptOnce {max : Nat} (self : Padded max) (bs : Bytes) : Option (Padded max) :=
  if h : bs.isEmpty = false ∧ bs.length ≤ max ∧ self.used.isEmpty = true then
    some (self.store bs h.2.1) else none

/-- The same for a text. -/
def Padded.acceptText {max : Nat} (self : Padded max) (bs : Bytes) : Option (Padded max) :=
  if h : bs.isEmpty = false ∧ bs.length ≤ max ∧ (fromUtf8 bs).isSome = true ∧
    (Announce.text self).isNone = true then
    some (self.store bs h.2.1)
  else none

/-- What the announce becomes when the field is read, unless the field is refused: a value out of
range, a field that is there already. Only the device id may come again. -/
def Announce.accept (self : Announce) : Field → Option Announce
  | .deviceId id =>
    if h : id.isEmpty = false ∧ id.length ≤ 16 then
      some { self with deviceId := self.deviceId.store id h.2 } else none
  | .uptimeSecs n => if n < 2 ^ 32 then some { self with uptimeSecs := UInt32.ofNat n } else none
  | .deviceClass n => if n < 2 ^ 8 then some { self with deviceClass := UInt8.ofNat n } else none
  | .probeCapabilities n =>
    if n < 2 ^ 16 then some { self with probeCapabilities := UInt16.ofNat n } else none
  | .publicKey key => (self.publicKey.acceptOnce key).map fun publicKey =>
    { self with publicKey := publicKey }
  | .signature signature =>
    if signature.length = signatureLen then
      (self.signature.acceptOnce signature).map fun signature =>
        { self with signature := signature }
    else none
  | .deviceName name => (self.deviceName.acceptText name).map fun deviceName =>
    { self with deviceName := deviceName }
  | .deviceDomain domain =>
    (self.deviceDomain.acceptText domain).map fun deviceDomain =>
      { self with deviceDomain := deviceDomain }
  | .networkName name => (self.networkName.acceptText name).map fun networkName =>
    { self with networkName := networkName }
  | .wifiChannel n =>
    if self.wifiChannel = 0 ∧ n < 2 ^ 8 ∧ 1 ≤ n ∧ n ≤ 13 then
      some { self with wifiChannel := UInt8.ofNat n } else none
  | .staLinkLocalV6 address =>
    if self.staLinkLocalV6Present then none
    else (toVector 16 address).map fun address =>
      { self with staLinkLocalV6 := address, staLinkLocalV6Present := true }
  | .udpPort n =>
    if self.udpPort = 0 ∧ n < 2 ^ 16 ∧ n ≠ 0 then some { self with udpPort := UInt16.ofNat n }
    else none
  | .udpLinkLocalV6 address =>
    if self.udpLinkLocalV6Present then none
    else (toVector 16 address).map fun address =>
      { self with udpLinkLocalV6 := address, udpLinkLocalV6Present := true }
  | .recovery b => if self.recovery = true ∨ b = false then none else some { self with
      recovery := true }

/-- One turn of the loop over the fields. -/
def decodeField (cbor : Codec) (announce : Announce) (d : Bytes) : Option (Announce × Bytes) := do
  let (key, d) ← cbor.readUint d
  let (field, d) ← readField cbor d key
  match field with
  | some field => (announce.accept field).map fun announce => (announce, d)
  | none => some (announce, d)

def decodeFields (cbor : Codec) : Nat → Announce → Bytes → Option (Announce × Bytes)
  | 0, announce, d => some (announce, d)
  | n + 1, announce, d => (decodeField cbor announce d).bind fun read =>
    decodeFields cbor n read.1 read.2

/-- The kinds that `decode_record` takes. -/
def decodableKinds : List Nat :=
  [announceDiscovery, announceTransitionBegin, announceSleepPending, announceTransitionComplete,
    announceWake]

/-- The kind of a record that is an announce. -/
def announceKind (record : Record) : Option UInt64 :=
  if record.component ≠ some (.tag announceComponent) then none
  else
    match record.method with
    | some (.tag kind) => if decodableKinds.contains kind then some (UInt64.ofNat kind) else none
    | _ => none

def decodeRecord (cbor : Codec) (record : Record) : Option Announce := do
  let kind ← announceKind record
  let fields ← record.fields
  let ((major, count), d) ← cbor.readHead fields
  if major ≠ 5 ∨ count = indefinite then none
  else
    let (announce, rest) ← decodeFields cbor count (.blank kind) d
    if announce.deviceId.len ≠ 0 ∧ (announce.publicKey.len = 0 ↔ announce.signature.len = 0) ∧
        (announce.udpPort = 0 ∨ announce.udpLinkLocalV6Present = true) ∧ rest = [] then
          some announce
    else none

/-- Directed records are not presence broadcasts. -/
def decodeAnnounce (cbor : Codec) (packet : Bytes) : Option Announce := do
  let record ← decode cbor packet
  if record.destination.isNone then decodeRecord cbor record else none

/-- The id of a directed discovery request. -/
def discoveryRequestId (cbor : Codec) (packet : Bytes) : Option Nat := do
  let record ← decode cbor packet
  if record.destination.isSome ∨ record.component ≠ some (.tag announceComponent) ∨
      record.method ≠ some (.tag announceDiscovery) then none
  else
    let id ← record.id
    let fields ← record.fields
    if cbor.readHead fields = some ((5, 0), []) then some id else none

/-! ## Discovery facts -/

/-- What the sender's radio sees at the moment, unsigned. -/
structure DiscoveryFacts where
  nanClusterSuffix : Option (List.Vector UInt8 3)
  nanServiceObservations : UInt16
  nanVisibleNodes : UInt16

def putFacts (cbor : Codec) (capacity : Nat) (facts : DiscoveryFacts) (out : Bytes) :
    Except Unit Bytes := do
  let out ← put capacity (cbor.map (2 + facts.nanClusterSuffix.isSome.toNat)) out
  let out ← putWhen facts.nanClusterSuffix.isSome
    (putEntry cbor capacity 1
      (cbor.bytesValue ((facts.nanClusterSuffix.map List.Vector.toList).getD []))) out
  let out ← putEntry cbor capacity 2 (cbor.uint facts.nanServiceObservations.toNat) out
  putEntry cbor capacity 3 (cbor.uint facts.nanVisibleNodes.toNat) out

/-- The number of a name that is one. -/
def Name.toTag : Name → Option Nat
  | .tag n => some n
  | .text _ | .bytes _ => none

/-- Facts are put beside the signed fields, which are copied as they are. -/
def encodeWithDiscoveryFacts (cbor : Codec) (capacity : Nat) (packet : Bytes)
    (facts : DiscoveryFacts) : Option Bytes := do
  let record ← decode cbor packet
  if record.destination.isSome ∨ record.params.isSome ∨ record.result.isSome ∨ record.error.isSome ∨
      record.data.isSome ∨ record.extensions.isSome then none
  else
    let announce ← decodeRecord cbor record
    if announce.kind.toNat ≠ announceDiscovery then none
    else
      let component ← record.component.bind Name.toTag
      let method ← record.method.bind Name.toTag
      let fields ← record.fields
      Except.toOption do
        let out ← put capacity (cbor.map (if record.id.isSome then 5 else 4)) []
        let out ← putEntry cbor capacity 1 (cbor.uint component) out
        let out ← putEntry cbor capacity 2 (cbor.uint method) out
        let out ← putWhen record.id.isSome (putEntry cbor capacity 3 (cbor.uint (record.id.getD 0)))
            out
        let out ← putEntry cbor capacity 5 fields out
        let out ← put capacity (cbor.uint 11) out
        putFacts cbor capacity facts out

/-- What the loop over the facts has found: the facts, and whether it has seen the two counters. -/
structure FactsRead where
  facts : DiscoveryFacts
  services : Bool
  nodes : Bool

def decodeFact (cbor : Codec) (read : FactsRead) (d : Bytes) : Option (FactsRead × Bytes) := do
  let (key, d) ← cbor.readUint d
  if key = 1 ∧ read.facts.nanClusterSuffix.isNone = true then
    let (bs, d) ← cbor.readBytes d
    let suffix ← toVector 3 bs
    return ({ read with facts := { read.facts with nanClusterSuffix := some suffix } }, d)
  else if key = 2 ∧ read.services = false then
    let (n, d) ← cbor.readUint d
    if n < 2 ^ 16 then
      return ({ read with
        facts := { read.facts with nanServiceObservations := UInt16.ofNat n },
        services := true }, d)
    else none
  else if key = 3 ∧ read.nodes = false then
    let (n, d) ← cbor.readUint d
    if n < 2 ^ 16 then
      return ({ read with
        facts := { read.facts with nanVisibleNodes := UInt16.ofNat n }, nodes := true }, d)
    else none
  else none

def decodeFacts (cbor : Codec) : Nat → FactsRead → Bytes → Option (FactsRead × Bytes)
  | 0, read, d => some (read, d)
  | n + 1, read, d => (decodeFact cbor read d).bind fun next => decodeFacts cbor n next.1 next.2

def discoveryFacts (cbor : Codec) (record : Record) : Option DiscoveryFacts := do
  let encoded ← record.extensions
  let ((major, count), d) ← cbor.readHead encoded
  if major ≠ 5 ∨ count = indefinite then none
  else
    let (read, rest) ← decodeFacts cbor count ⟨⟨none, 0, 0⟩, false, false⟩ d
    if read.services = true ∧ read.nodes = true ∧ rest = [] then some read.facts else none

end QuicLite.Discovery
