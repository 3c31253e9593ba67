import QuicLite.Lib.Cbor
import QuicLite.Wire.Varint

/-!
# The tagged envelope

Every record is a CBOR map with numeric keys: 1 component, 2 method, 3 id, 4 parameters, 5 fields, 6
result, 7 error, 8 timeout, 9 destination, 10 data, 11 extensions. Structured values stay encoded.
-/

namespace QuicLite.Discovery

open Cbor

/-- A component, method or destination. Text is kept as its UTF-8 bytes. -/
inductive Name where
  | tag (n : Nat)
  | text (bs : Bytes)
  | bytes (bs : Bytes)
deriving DecidableEq, Repr

structure Record where
  component : Option Name
  method : Option Name
  id : Option Nat
  params : Option Bytes
  fields : Option Bytes
  result : Option Bytes
  error : Option Bytes
  destination : Option Name
  timeout : Option Nat
  data : Option Bytes
  extensions : Option Bytes
deriving DecidableEq, Repr

def Record.default : Record := ⟨none, none, none, none, none, none, none, none, none, none, none⟩

def name (cbor : Codec) (d : Bytes) : Option (Name × Bytes) :=
  match cbor.readUint d with
  | some (tag, rest) => some (.tag tag, rest)
  | none =>
    match cbor.readText d with
    | some (text, rest) => some (.text text, rest)
    | none => (cbor.readBytes d).map fun read => (.bytes read.1, read.2)

/-- `&packet[start..d.position()]` after `d.skip()`. -/
def item (cbor : Codec) (d : Bytes) : Option (Bytes × Bytes) :=
  (cbor.skip d).map fun rest => (d.take (d.length - rest.length), rest)

/-- One entry of the map. -/
def decodeEntry (cbor : Codec) (record : Record) (d : Bytes) : Option (Record × Bytes) := do
  let (key, d) ← cbor.readUint d
  match key with
  | 1 => (name cbor d).map fun read => ({ record with component := some read.1 }, read.2)
  | 2 => (name cbor d).map fun read => ({ record with method := some read.1 }, read.2)
  | 3 => (cbor.readUint d).map fun read => ({ record with id := some read.1 }, read.2)
  | 4 => (item cbor d).map fun read => ({ record with params := some read.1 }, read.2)
  | 5 => (item cbor d).map fun read => ({ record with fields := some read.1 }, read.2)
  | 6 => (item cbor d).map fun read => ({ record with result := some read.1 }, read.2)
  | 7 => (item cbor d).map fun read => ({ record with error := some read.1 }, read.2)
  | 8 => (cbor.readUint d).map fun read => ({ record with timeout := some read.1 }, read.2)
  | 9 => (name cbor d).map fun read => ({ record with destination := some read.1 }, read.2)
  | 10 => (cbor.readBytes d).map fun read => ({ record with data := some read.1 }, read.2)
  | 11 => (item cbor d).map fun read => ({ record with extensions := some read.1 }, read.2)
  | _ => (cbor.skip d).map fun rest => (record, rest)

def decodeEntries (cbor : Codec) : Nat → Record → Bytes → Option (Record × Bytes)
  | 0, record, d => some (record, d)
  | n + 1, record, d => (decodeEntry cbor record d).bind fun read =>
    decodeEntries cbor n read.1 read.2

/-- The envelope at the start of a buffer, and what follows it. -/
def decodePrefix (cbor : Codec) (packet : Bytes) : Option (Record × Bytes) := do
  let ((major, count), d) ← cbor.readHead packet
  if major ≠ 5 ∨ count = indefinite then none
  else
    let (record, d) ← decodeEntries cbor count .default d
    record.method.map fun _ => (record, d)

def decode (cbor : Codec) (packet : Bytes) : Option Record := do
  let (record, rest) ← decodePrefix cbor packet
  if rest = [] then some record else none

section Entries

variable {cbor : Codec} (h : cbor.Lawful)
variable {bs : Bytes}
include h

theorem name_tag {n : Nat} (hn : n < u64Bound) (rest : Bytes) :
    name cbor (cbor.uint n ++ rest) = some (.tag n, rest) := by
  simp only [name, h.readUint hn]

theorem item_encoded (hbs : cbor.Items 1 bs) (rest : Bytes) :
    item cbor (bs ++ rest) = some (bs, rest) := by
  simp [item, h.skip hbs]

variable {n : Nat} (record : Record) (hn : n < u64Bound) (rest : Bytes)
include hn

theorem decodeEntry_component : decodeEntry cbor record (cbor.uint 1 ++ (cbor.uint n ++ rest)) =
      some ({ record with component := some (.tag n) }, rest) := by
  simp [decodeEntry, h.readUint (by decide : 1 < u64Bound), name_tag h hn]

theorem decodeEntry_method : decodeEntry cbor record (cbor.uint 2 ++ (cbor.uint n ++ rest)) =
      some ({ record with method := some (.tag n) }, rest) := by
  simp [decodeEntry, h.readUint (by decide : 2 < u64Bound), name_tag h hn]

theorem decodeEntry_id : decodeEntry cbor record (cbor.uint 3 ++ (cbor.uint n ++ rest)) =
      some ({ record with id := some n }, rest) := by
  simp [decodeEntry, h.readUint (by decide : 3 < u64Bound), h.readUint hn]

omit hn

theorem decodeEntry_fields (hbs : cbor.Items 1 bs) :
    decodeEntry cbor record (cbor.uint 5 ++ (bs ++ rest)) =
      some ({ record with fields := some bs }, rest) := by
  simp [decodeEntry, h.readUint (by decide : 5 < u64Bound), item_encoded h hbs]

theorem decodeEntry_extensions (hbs : cbor.Items 1 bs) :
    decodeEntry cbor record (cbor.uint 11 ++ (bs ++ rest)) =
      some ({ record with extensions := some bs }, rest) := by
  simp [decodeEntry, h.readUint (by decide : 11 < u64Bound), item_encoded h hbs]

end Entries

end QuicLite.Discovery
