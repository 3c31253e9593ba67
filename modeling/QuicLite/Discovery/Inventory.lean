import QuicLite.Lib.Table
import QuicLite.Discovery.Announce

/-!
# The inventory of discovered devices

What each bearer has seen of a device, the latest announce that was validated, and which
observations were learned from other observers. Records are soft state: `prune` forgets a device
that was not seen for `ttlMs`. Time is in milliseconds; the source has `i64`, whose subtraction
saturates.
-/

namespace QuicLite.Discovery

open Cbor

/-- Strings are their UTF-8 bytes. -/
abbrev Text := Bytes

abbrev NodeKey := Text

def i64Max : Int := 2 ^ 63 - 1

/-- `i64::saturating_sub`. -/
def satSub64 (a b : Int) : Int := max (min (a - b) i64Max) (-i64Max - 1)

def hexDigit (n : Nat) : UInt8 := if n < 10 then UInt8.ofNat (48 + n) else UInt8.ofNat (87 + n)

def hex (bs : Bytes) : Text :=
  bs.flatMap fun b => [hexDigit (b.toNat / 16), hexDigit (b.toNat % 16)]

def toAsciiLowercase (text : Text) : Text := text.map fun b => if 65 ≤ b ∧ b ≤ 90 then b + 32 else b

/-! ## One bearer's view of a device -/

inductive DiscoveryPacketKind where
  | activePublish
  | activeSubscribe
  | followup
  | other
deriving DecidableEq, Repr

def observationPeer : Nat := 1
def observationBssid : Nat := 2
def observationChannel : Nat := 4
def observationRssi : Nat := 8
def observationPayloadFingerprint : Nat := 16

structure SocketAddr where
  ip : Bytes
  port : UInt16
  scope : UInt32

/-- How a datagram reached us. -/
structure Carrier where
  bearer : Text
  peer : Text
  sender : Option SocketAddr
  rssiDbm : Option Int16
  bssid : Option (List.Vector UInt8 6)
  channel : Option UInt8
  kind : DiscoveryPacketKind

structure DiscoveryObservation where
  availableFields : Nat
  firstSeenMs : Int
  lastSeenMs : Int
  packets : Nat
  activePublishRx : Nat
  activeSubscribeRx : Nat
  followupRx : Nat
  lastKind : DiscoveryPacketKind
  lastPeer : Text
  lastBssid : Option (List.Vector UInt8 6)
  lastChannel : Option UInt8
  lastRssiDbm : Option Int16
  lastPayloadLen : Nat
  lastPayloadHash : UInt32

def payloadHash (payload : Bytes) : UInt32 :=
  payload.foldl (fun hash b => (hash ^^^ b.toUInt32) * 0x01000193) 0x811c9dc5

/-- `u32::saturating_add(1)`. -/
def bump (n : Nat) : Nat := min (n + 1) (2 ^ 32 - 1)

namespace DiscoveryObservation

def new (nowMs : Int) (availableFields : Nat) : DiscoveryObservation :=
  ⟨availableFields, nowMs, nowMs, 0, 0, 0, 0, .other, [], none, none, none, 0, 0⟩

def observe (self : DiscoveryObservation) (nowMs : Int) (carrier : Carrier) (payload : Bytes) :
    DiscoveryObservation :=
  { self with
    lastSeenMs := nowMs
    packets := bump self.packets
    activePublishRx := if carrier.kind = .activePublish then
      bump self.activePublishRx else self.activePublishRx
    activeSubscribeRx := if carrier.kind = .activeSubscribe then
      bump self.activeSubscribeRx else self.activeSubscribeRx
    followupRx := if carrier.kind = .followup then bump self.followupRx else self.followupRx
    lastKind := carrier.kind
    lastPeer := carrier.peer
    lastBssid := carrier.bssid
    lastChannel := carrier.channel
    lastRssiDbm := carrier.rssiDbm
    lastPayloadLen := min payload.length (2 ^ 16 - 1)
    lastPayloadHash := payloadHash payload }

end DiscoveryObservation

/-! ## Devices -/

structure Device where
  id : NodeKey
  announce : Option Announce
  /-- The announce as it was received. -/
  record : Option Bytes
  /-- Who saw it, for each bearer whose observation was crawled. -/
  crawledVia : AList fun _ : Text => Bytes
  facts : Option DiscoveryFacts
  authenticated : Bool
  firstSeenMs : Int
  lastSeenMs : Int
  observations : AList fun _ : Text => DiscoveryObservation
  udpSender : Option SocketAddr

namespace Device

/-- A device that is seen for the first time. -/
def new (id : NodeKey) (announce : Option Announce) (authenticated : Bool) (nowMs : Int) : Device :=
  ⟨id, announce, none, ∅, none, authenticated, nowMs, nowMs, ∅, none⟩

def availableFields (carrier : Carrier) : Nat :=
  observationPeer ||| observationPayloadFingerprint |||
    (if carrier.rssiDbm.isSome then observationRssi else 0) |||
    (if carrier.bssid.isSome then observationBssid else 0) |||
      (if carrier.channel.isSome then observationChannel else 0)

variable (self : Device)

def recordObservation (nowMs : Int) (carrier : Carrier) (payload : Bytes) : Device :=
  let fields := availableFields carrier
  let observation := (self.observations.lookup carrier.bearer).getD (.new nowMs fields)
  let observation := { observation with availableFields := observation.availableFields ||| fields }
  { self with
    observations := self.observations.insert carrier.bearer
      (observation.observe nowMs carrier payload) }

/-- An announce that may replace the one that is there: a verified one, unless none was verified. -/
def takeAnnounce (cbor : Codec) (self : Device) (announce : Announce) (authenticated : Bool)
    (payload : Bytes) : Device :=
  if authenticated || !self.authenticated then
    { self with
      announce := some announce
      record := if decodeAnnounce cbor payload = some announce then
        some payload else encode cbor 512 announce
      authenticated := authenticated }
  else self

/-- The newest of the observations. -/
def newestMs : Option Int := (self.observations.entries.map fun entry => entry.2.lastSeenMs).max?

/-- An announce of the device has reached us. -/
def observe (cbor : Codec) (self : Device) (nowMs : Int) (carrier : Carrier) (announce : Announce)
    (facts : Option DiscoveryFacts) (authenticated : Bool) (payload : Bytes) : Device :=
  let device := self.takeAnnounce cbor announce authenticated payload
  let device := { device with
    crawledVia := device.crawledVia.erase carrier.bearer
    facts := facts <|> device.facts
    lastSeenMs := nowMs
    udpSender := carrier.sender <|> device.udpSender }
  device.recordObservation nowMs carrier payload

/-- The device was sighted. -/
def sight (nowMs : Int) (carrier : Carrier) (payload : Bytes) : Device :=
  { self with lastSeenMs := nowMs }.recordObservation nowMs carrier payload

/-- The observation that was just recorded came from another observer. -/
def markCrawled (bearer : Text) (via : Bytes) (seenMs : Int) : Device :=
  { self with
    crawledVia := self.crawledVia.insert bearer via
    observations :=
      match self.observations.lookup bearer with
      | some row => self.observations.insert bearer { row with lastSeenMs := seenMs }
      | none => self.observations }

def setCrawled (bearer : Text) (via : Bytes) (lastSeen : Option Int) : Device :=
  let device := self.markCrawled bearer via (lastSeen.getD 0)
  if lastSeen.isSome then { device with lastSeenMs := device.newestMs.getD device.lastSeenMs }
  else device

end Device

/-! ## The inventory -/

structure Inventory where
  devices : AList fun _ : NodeKey => Device
  ttlMs : Int

namespace Inventory

def default : Inventory := ⟨∅, 60 * 60 * 1000⟩

variable (self : Inventory)

def get (key : NodeKey) : Option Device := self.devices.lookup key

def fresh (ttlMs nowMs : Int) (device : Device) : Bool := satSub64 nowMs device.lastSeenMs ≤ ttlMs

def prune (nowMs : Int) : Inventory :=
  { self with devices := Table.retain (fresh self.ttlMs nowMs) self.devices }

/-- A validated announce. The second component says whether the device is new. -/
def observe (cbor : Codec) (self : Inventory) (nowMs : Int) (carrier : Carrier)
    (announce : Announce) (facts : Option DiscoveryFacts) (authenticated : Bool) (payload : Bytes) :
    Inventory × Bool :=
  let self := self.prune nowMs
  let key := hex announce.deviceId.used
  let device := (self.get key).getD (.new key (some announce) authenticated nowMs)
  let device := device.observe cbor nowMs carrier announce facts authenticated payload
  ({ self with devices := self.devices.insert key device }, (self.get key).isNone)

/-- A sighting of a device of which the bearer carried the identifier only. -/
def observeProvisional (nowMs : Int) (carrier : Carrier) (id : Text) (payload : Bytes) :
    Inventory × Bool :=
  let self := self.prune nowMs
  let key := toAsciiLowercase id
  let device := (self.get key).getD (.new key none false nowMs)
  ({ self with devices := self.devices.insert key (device.sight nowMs carrier payload) },
    (self.get key).isNone)

def setCrawledSource (key : NodeKey) (bearer : Text) (via : Bytes) (lastSeen : Option Int) :
    Inventory :=
  match self.get key with
  | none => self
  | some device =>
    { self with devices := self.devices.insert key (device.setCrawled bearer via lastSeen) }

end Inventory

end QuicLite.Discovery
