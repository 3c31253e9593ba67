import QuicLite.Discovery.Inventory

/-!
# Rows of `discovery.nodes`

One row is the original announce of a device with the unsigned metadata of one observation.
-/

namespace QuicLite.Discovery

open Cbor

inductive Origin where
  | direct
  | crawled

def Origin.toNat : Origin → Nat
  | .direct => 0
  | .crawled => 1

structure Observation where
  record : Bytes
  peer : Option (List.Vector UInt8 6)
  rssiDbm : Option Int16
  channel : Option UInt8
  receivedUs : Option Nat
  bearer : Text
  lastSeenMs : Option Nat
  ageMs : Option Nat
  origin : Origin
  retained : Bool
  via : Option Bytes

namespace Observation

def new (record : Bytes) (bearer : Text) : Observation :=
  ⟨record, none, none, none, none, bearer, none, none, .direct, false, none⟩

/-! ## Encoding -/

section Encode

variable (cbor : Codec) (capacity : Nat)

/-- An entry that is written when its value is there. -/
def putOptional {α : Type} (key : Nat) (value : α → Bytes) (field : Option α) (out : Bytes) :
    Except Unit Bytes :=
  match field with
  | some found => putEntry cbor capacity key (value found) out
  | none => .ok out

def encode (self : Observation) : Option Bytes :=
  if self.record.isEmpty || self.bearer.isEmpty || self.via.any (fun via => via.length != 8) then
    none
  else
    Except.toOption do
      let out ← put capacity (cbor.map (5 + self.peer.isSome.toNat + self.rssiDbm.isSome.toNat +
        self.channel.isSome.toNat + self.receivedUs.isSome.toNat + self.lastSeenMs.isSome.toNat +
        self.ageMs.isSome.toNat + self.via.isSome.toNat)) []
      let out ← putEntry cbor capacity 0 (cbor.uint 1) out
      let out ← putOptional cbor capacity 1 (fun peer => cbor.bytesValue peer.toList) self.peer out
      let out ← putOptional cbor capacity 2 (fun rssi => cbor.int rssi.toInt) self.rssiDbm out
      let out ← putOptional cbor capacity 3 (fun channel => cbor.uint channel.toNat)
          self.channel out
      let out ← putOptional cbor capacity 4 cbor.uint self.receivedUs out
      let out ← putEntry cbor capacity 6 (cbor.bytesValue self.record) out
      let out ← putOptional cbor capacity 7 cbor.uint self.lastSeenMs out
      let out ← putEntry cbor capacity 8 (cbor.uint self.origin.toNat) out
      let out ← putEntry cbor capacity 9 (cbor.textValue self.bearer) out
      let out ← putEntry cbor capacity 10 (cbor.boolean self.retained) out
      let out ← putOptional cbor capacity 11 cbor.bytesValue self.via out
      putOptional cbor capacity 12 cbor.uint self.ageMs out

end Encode

/-! ## Decoding -/

/-- The row so far, the schema that was named, and the keys that were seen. -/
structure Read where
  row : Observation
  kind : Option Nat
  seen : List Nat

/-- The value under one of the keys 0 to 12. -/
def readValue (cbor : Codec) (read : Read) (key : Nat) (d : Bytes) : Option (Read × Bytes) :=
  match key with
  | 0 => (cbor.readUint d).map fun value => ({ read with kind := some value.1 }, value.2)
  | 1 => do
      let (bs, d) ← cbor.readBytes d
      let peer ← toVector 6 bs
      return ({ read with row := { read.row with peer := some peer } }, d)
  | 2 => do
      let (rssi, d) ← cbor.readInt d
      if -2 ^ 15 ≤ rssi ∧ rssi < 2 ^ 15 then
        return ({ read with row := { read.row with rssiDbm := some (Int16.ofInt rssi) } }, d)
      else none
  | 3 => do
      let (channel, d) ← cbor.readUint d
      if channel < 2 ^ 8 then
        return ({ read with row := { read.row with channel := some (UInt8.ofNat channel) } }, d)
      else none
  | 4 => (cbor.readUint d).map fun value =>
    ({ read with row := { read.row with receivedUs := some value.1 } }, value.2)
  | 6 => (cbor.readBytes d).map fun value =>
    ({ read with row := { read.row with record := value.1 } }, value.2)
  | 7 => (cbor.readUint d).map fun value =>
    ({ read with row := { read.row with lastSeenMs := some value.1 } }, value.2)
  | 8 => do
      let (origin, d) ← cbor.readUint d
      if origin = 0 then return ({ read with row := { read.row with origin := .direct } }, d)
      else if origin = 1 then return ({ read with row := { read.row with origin := .crawled } }, d)
      else none
  | 9 => do
      let (bs, d) ← cbor.readText d
      let bearer ← fromUtf8 bs
      return ({ read with row := { read.row with bearer := bearer } }, d)
  | 10 => (cbor.readBoolean d).map fun value =>
    ({ read with row := { read.row with retained := value.1 } }, value.2)
  | 11 => do
      let (via, d) ← cbor.readBytes d
      if via.length = 8 then return ({ read with row := { read.row with via := some via } }, d)
      else none
  | 12 => (cbor.readUint d).map fun value =>
    ({ read with row := { read.row with ageMs := some value.1 } }, value.2)
  | _ => (cbor.skip d).map fun rest => (read, rest)

/-- One turn of the loop. Known keys may come once. -/
def decodeEntry (cbor : Codec) (read : Read) (d : Bytes) : Option (Read × Bytes) := do
  let (key, d) ← cbor.readUint d
  if key ≤ 12 then
    if read.seen.contains key then none
    else readValue cbor { read with seen := key :: read.seen } key d
  else readValue cbor read key d

def decodeEntries (cbor : Codec) : Nat → Read → Bytes → Option (Read × Bytes)
  | 0, read, d => some (read, d)
  | n + 1, read, d => (decodeEntry cbor read d).bind fun next => decodeEntries cbor n next.1 next.2

def decode (cbor : Codec) (data : Bytes) : Option Observation := do
  let ((major, count), d) ← cbor.readHead data
  if major ≠ 5 then none
  else
    let (read, rest) ← decodeEntries cbor count ⟨new [] [], none, []⟩ d
    if rest = [] ∧ read.kind = some 1 ∧ read.row.record ≠ [] ∧ read.row.bearer ≠ [] then
      some read.row else none

end Observation

end QuicLite.Discovery
