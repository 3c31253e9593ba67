import QuicLite.Discovery.Nodes

/-!
# The discovery engine

Validates and records what arrives: datagrams, announces that an adapter has decoded, sightings of a
mere identifier, and rows that other observers supply. The signature check of `verify_identity` is a
parameter, as are the replies, which the platform's identity signs.
-/

namespace QuicLite.Discovery

open Cbor

structure Engine where
  deviceId : List.Vector UInt8 16
  /-- The reply to a directed request. -/
  replyWire : Nat → Option Bytes
  inventory : Inventory
  /-- The requests whose callers wait for a reply. -/
  waiters : List Nat
  /-- What the waiters were given. -/
  delivered : List (Nat × Device)

/-- What a received datagram was. -/
inductive Received where
  | announce (key : NodeKey) (isNew : Bool)
  | request (id : Nat) (reply : Bytes)
  | response (id : Nat) (device : Device)
  | own
  | rejected
  | ignored

/-- A sender that supplies an identity must prove it. -/
def verifyIdentity (verify : Announce → Bool) (announce : Announce) : Bool :=
  !announce.hasIdentity || verify announce

/-- The address text of a radio peer. -/
def macText (mac : List.Vector UInt8 6) : Text :=
  List.flatten ((mac.toList.map fun b => hex [b]).intersperse [58])

namespace Engine

def new (deviceId : List.Vector UInt8 16) (replyWire : Nat → Option Bytes) : Engine :=
  ⟨deviceId, replyWire, .default, [], []⟩

def expectResponse (self : Engine) (id : Nat) : Engine :=
  { self with waiters := id :: self.waiters.erase id }

def forgetResponse (self : Engine) (id : Nat) : Engine :=
  { self with waiters := self.waiters.erase id }

/-- The announce is one of our own. -/
def isOwn (self : Engine) (announce : Announce) : Bool :=
  announce.deviceId.used == self.deviceId.toList.take announce.deviceId.used.length

/-- The snapshot of the devices. -/
def devices (self : Engine) (nowMs : Int) : Engine :=
  { self with inventory := self.inventory.prune nowMs }

section Observe

variable (cbor : Codec) (verify : Announce → Bool) (self : Engine) (nowMs : Int)

def observeAnnounceWith (carrier : Carrier) (announce : Announce) (facts : Option DiscoveryFacts)
    (replyId : Option Nat) (payload : Bytes) : Engine × Received :=
  if !verifyIdentity verify announce then (self, .rejected)
  else if self.isOwn announce then (self, .own)
  else
    let authenticated := announce.hasIdentity
    let key := hex announce.deviceId.used
    let observed := self.inventory.observe cbor nowMs carrier announce facts authenticated payload
    let self := { self with inventory := observed.1 }
    match replyId, self.inventory.get key with
    | some id, some device =>
      if self.waiters.contains id then
        ({ self with
          waiters := self.waiters.erase id, delivered := self.delivered ++ [(id, device)] },
          .response id device)
      else (self, .response id device)
    | _, _ => (self, .announce key observed.2)

def onDatagram (carrier : Carrier) (bytes : Bytes) : Engine × Received :=
  match discoveryRequestId cbor bytes with
  | some id =>
    match self.replyWire id with
    | some reply => (self, .request id reply)
    | none => (self, .ignored)
  | none =>
    match decode cbor bytes with
    | none => (self, .ignored)
    | some record =>
      match decodeAnnounce cbor bytes with
      | none => (self, .ignored)
      | some announce =>
        observeAnnounceWith cbor verify self nowMs carrier announce (discoveryFacts cbor record)
          record.id bytes

/-- An announce that the bearer's adapter has decoded. -/
def observeAnnounce (carrier : Carrier) (announce : Announce) (payload : Bytes) :
    Engine × Received :=
  observeAnnounceWith cbor verify self nowMs carrier announce none none payload

def observeProvisional (carrier : Carrier) (id : Text) (payload : Bytes) : Engine × Bool :=
  let observed := self.inventory.observeProvisional nowMs carrier id payload
  ({ self with inventory := observed.1 }, observed.2)

/-- The time a row says its device was seen: its age counts before its clock time. -/
def crawledSeen (row : Observation) : Option Int :=
  (row.ageMs.map fun age => satSub64 nowMs (min (age : Int) i64Max)) <|>
    (row.lastSeenMs.bind fun t => if (t : Int) ≤ i64Max then some (min (t : Int) nowMs) else none)

/-- The bearer has seen the device itself. -/
def seenDirectly (key : NodeKey) (bearer : Text) : Bool :=
  match self.inventory.get key with
  | some device =>
    (device.observations.lookup bearer).isSome && !(device.crawledVia.lookup bearer).isSome
  | none => false

def crawledCarrier (row : Observation) : Carrier :=
  ⟨row.bearer, (row.peer.map macText).getD [], none, row.rssiDbm, none, row.channel, .other⟩

/-- A signed announce learned from another observer. -/
def observeCrawled (via : Bytes) (row : Observation) : Engine × Bool :=
  match decodeAnnounce cbor row.record with
  | none => (self, false)
  | some announce =>
    if !announce.hasIdentity || !verifyIdentity verify announce || via.length != 8 then
      (self, false)
    else if self.isOwn announce then (self, false)
    else
      let key := hex announce.deviceId.used
      if self.seenDirectly key row.bearer then (self, false)
      else
        let observed :=
          self.inventory.observe cbor nowMs (crawledCarrier row) announce none announce.hasIdentity
            row.record
        let inventory := observed.1.setCrawledSource key row.bearer (row.via.getD via)
          (crawledSeen nowMs row)
        ({ self with inventory := inventory.prune nowMs }, true)

end Observe

end Engine

end QuicLite.Discovery
