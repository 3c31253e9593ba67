import QuicLite.Stream.Scan
import Mathlib.Algebra.Order.Ring.Int

/-!
# The CBOR values of the Android side

The codec of generic values: a writer over what a message may hold, and a reader of one item. The
reader goes by the additional information of a head, so that a double is one only where its head
announces eight bytes.
-/

namespace QuicLite.Android

open BigEndian QuicLite.Stream

/-! ## Values -/

/-- The objects that are written and read. A text is its code points; a float or double is its bit
pattern. -/
inductive Value where
  | null
  | boolean (b : Bool)
  | integer (n : Int)
  | long (n : Int)
  | float (bits : Nat)
  | double (bits : Nat)
  | text (s : List Char)
  | bytes (bs : Bytes)
  | list (items : List Value)
  | map (entries : List (Value × Value))

inductive Failure where
  | negativeLength
  | truncated
  | trailing
  | indefinite
  | arrayLimit
  | mapLimit
  | illegalCapacity
  | unsupportedType

/-! ## Texts -/

/-- `getBytes(UTF_8)` -/
def utf8Bytes (s : List Char) : Bytes := s.flatMap String.utf8EncodeChar

def isContinuation (b : UInt8) : Bool := b &&& 0xc0 == 0x80

/-- How many bytes one replacement character stands for. -/
def malformedLength : Bytes → Nat
  | b₁ :: b₂ :: rest =>
    let third := rest.head?.any isContinuation
    if 0xe0 ≤ b₁ ∧ b₁ ≤ 0xef then
      if (b₁ = 0xe0 ∧ b₂ &&& 0xe0 = 0x80) ∨ !isContinuation b₂ then 1
      -- an encoded surrogate is replaced as a whole
      else if third then 3 else 2
    else if 0xf0 ≤ b₁ ∧ b₁ ≤ 0xf4 then
      if (b₁ = 0xf0 ∧ b₂ < 0x90) ∨ (b₁ = 0xf4 ∧ b₂ &&& 0xf0 ≠ 0x80) ∨ !isContinuation b₂ then 1
      else if third then 3 else 2
    else 1
  | _ => 1

def decodeText : Nat → Bytes → List Char
  | 0, _ => []
  | fuel + 1, bs =>
    if bs.isEmpty then []
    else
      match bs.toByteArray.utf8DecodeChar? 0 with
      | some c => c :: decodeText fuel (bs.drop c.utf8Size)
      | none => '\uFFFD' :: decodeText fuel (bs.drop (malformedLength bs))

/-- `new String(bytes, UTF_8)` -/
def textOf (bs : Bytes) : List Char := decodeText bs.length bs

/-! ## The writer -/

/-- `Float.doubleValue`, on bit patterns. -/
def widen (bits : Nat) : Nat :=
  let sign := bits / 2 ^ 31 % 2
  let exponent := bits / 2 ^ 23 % 256
  let fraction := bits % 2 ^ 23
  sign * 2 ^ 63 + if exponent = 255 then 2047 * 2 ^ 52 + if fraction = 0 then
    0 else (fraction ||| 2 ^ 22) * 2 ^ 29
    else if exponent ≠ 0 then (exponent + 896) * 2 ^ 52 + fraction * 2 ^ 29
    else if fraction = 0 then 0
    else (Nat.log2 fraction + 874) * 2 ^ 52 + (fraction * 2 ^ (52 - Nat.log2 fraction) - 2 ^ 52)

/-- `writeType`: major type and argument, in as few bytes as possible. -/
def writeType (major : Nat) (value : Int) : Except Failure Bytes :=
  if value < 0 then .error .negativeLength
  else if value < 24 then .ok [UInt8.ofNat (major * 32 + value.toNat)]
  else if value ≤ 0xff then .ok (UInt8.ofNat (major * 32 + 24) :: toBytes 1 value.toNat)
  else if value ≤ 0xffff then .ok (UInt8.ofNat (major * 32 + 25) :: toBytes 2 value.toNat)
  else if value ≤ 0xffffffff then .ok (UInt8.ofNat (major * 32 + 26) :: toBytes 4 value.toNat)
  else .ok (UInt8.ofNat (major * 32 + 27) :: toBytes 8 value.toNat)

def writeText (s : List Char) : Except Failure Bytes := do
  let head ← writeType 3 (utf8Bytes s).length
  .ok (head ++ utf8Bytes s)

def writeInteger (n : Int) : Except Failure Bytes :=
  if 0 ≤ n then writeType 0 n else writeType 1 (-1 - n)

def writeDouble (bits : Nat) : Except Failure Bytes := do
  let head ← writeType 7 27
  .ok (head ++ toBytes 8 bits)

mutual

def writeValue : Value → Except Failure Bytes
  | .null => .ok [0xf6]
  | .text s => writeText s
  | .boolean b => .ok [if b then 0xf5 else 0xf4]
  | .float bits => writeDouble (widen bits)
  | .double bits => writeDouble bits
  | .integer n => writeInteger n
  | .long n => writeInteger n
  | .bytes bs => do
      let head ← writeType 2 bs.length
      .ok (head ++ bs)
  | .map entries => do
      let head ← writeType 5 entries.length
      let body ← writeEntries entries
      .ok (head ++ body)
  | .list items => do
      let head ← writeType 4 items.length
      let body ← writeItems items
      .ok (head ++ body)

def writeItems : List Value → Except Failure Bytes
  | [] => .ok []
  | item :: items => do
      let first ← writeValue item
      let rest ← writeItems items
      .ok (first ++ rest)

def writeEntries : List (Value × Value) → Except Failure Bytes
  | [] => .ok []
  | (key, value) :: entries => do
      let first ← writeValue key
      let second ← writeValue value
      let rest ← writeEntries entries
      .ok (first ++ (second ++ rest))

end

def encodeValue (value : Value) : Except Failure Bytes := writeValue value

/-! ## Equal keys -/

/-- Bit patterns of one number: all patterns that are no number count as one. -/
def sameDouble (a b : Nat) : Bool :=
  let isNaN := fun bits => bits / 2 ^ 52 % 2048 = 2047 ∧ bits % 2 ^ 52 ≠ 0
  a = b ∨ (isNaN a ∧ isNaN b)

def sameFloat (a b : Nat) : Bool :=
  let isNaN := fun bits => bits / 2 ^ 23 % 256 = 255 ∧ bits % 2 ^ 23 ≠ 0
  a = b ∨ (isNaN a ∧ isNaN b)

mutual

/-- `Object.equals`. Two arrays are never equal, since each is its own object. -/
def equals : Value → Value → Bool
  | .null, .null => true
  | .boolean a, .boolean b => a == b
  | .integer a, .integer b => a == b
  | .long a, .long b => a == b
  | .float a, .float b => sameFloat a b
  | .double a, .double b => sameDouble a b
  | .text a, .text b => a == b
  | .list a, .list b => equalsItems a b
  | .map a, .map b => a.length == b.length && equalsEntries a b
  | _, _ => false

def equalsItems : List Value → List Value → Bool
  | [], [] => true
  | a :: as, b :: bs => equals a b && equalsItems as bs
  | _, _ => false

/-- Every entry of the first map is one of the second. -/
def equalsEntries : List (Value × Value) → List (Value × Value) → Bool
  | [], _ => true
  | (key, value) :: entries, others =>
    (others.any fun other => equals key other.1 && equals value other.2) &&
      equalsEntries entries others

end

/-- `LinkedHashMap.put` -/
def put (key value : Value) : List (Value × Value) → List (Value × Value)
  | [] => [(key, value)]
  | (old, was) :: entries =>
    if equals old key then (old, value) :: entries else (old, was) :: put key value entries

/-! ## The reader -/

structure Header where
  major : Nat
  additional : Nat
  value : Int

/-- A `long` of eight bytes. -/
def signed (n : Nat) : Int := if n < 2 ^ 63 then n else n - 2 ^ 64

/-- The bytes of an argument, one `next` after the other. -/
def readArgument (width : Nat) (input : Bytes) : Except Failure (Int × Bytes) :=
  if input.length < width then .error .truncated
  else .ok (signed (ofBytes 0 (input.take width)), input.drop width)

/-- `Reader.header` -/
def header : Bytes → Except Failure (Header × Bytes)
  | [] => .error .truncated
  | first :: rest =>
    let additional := infoOf first
    if additional < 24 then .ok (⟨majorOf first, additional, additional⟩, rest)
    else if additional ≤ 27 then do
      let (value, rest) ← readArgument (2 ^ (additional - 24)) rest
      .ok (⟨majorOf first, additional, value⟩, rest)
    else .error .indefinite

def readBytes (count : Int) (input : Bytes) : Except Failure (Bytes × Bytes) :=
  if count < 0 ∨ input.length < count then .error .truncated
  else .ok (input.take count.toNat, input.drop count.toNat)

def readItems (item : Bytes → Except Failure (Value × Bytes)) :
    Nat → Bytes → Except Failure (List Value × Bytes)
  | 0, input => .ok ([], input)
  | n + 1, input => do
      let (first, input) ← item input
      let (rest, input) ← readItems item n input
      .ok (first :: rest, input)

def readEntries (item : Bytes → Except Failure (Value × Bytes)) :
    Nat → List (Value × Value) → Bytes → Except Failure (List (Value × Value) × Bytes)
  | 0, map, input => .ok (map, input)
  | n + 1, map, input => do
      let (key, input) ← item input
      let (value, input) ← item input
      readEntries item n (put key value map) input

/-- The low half of a `long`, as an `int`. -/
def intOf (value : Int) : Int :=
  let low := value % 2 ^ 32
  if low < 2 ^ 31 then low else low - 2 ^ 32

/-- What follows a head. -/
def readBody (item : Bytes → Except Failure (Value × Bytes)) (head : Header) (input : Bytes) :
    Except Failure (Value × Bytes) :=
  match head.major with
  | 0 => .ok (.long head.value, input)
  | 1 => .ok (.long (-1 - head.value), input)
  | 2 => (readBytes head.value input).map fun out => (.bytes out.1, out.2)
  | 3 => (readBytes head.value input).map fun out => (.text (textOf out.1), out.2)
  | 4 =>
    if 128 < head.value then .error .arrayLimit
    else if intOf head.value < 0 then .error .illegalCapacity
    else (readItems item head.value.toNat input).map fun out => (.list out.1, out.2)
  | 5 =>
    if 128 < head.value then .error .mapLimit
    else (readEntries item head.value.toNat [] input).map fun out => (.map out.1, out.2)
  | 7 =>
    if head.additional = 20 then .ok (.boolean false, input)
    else if head.additional = 21 then .ok (.boolean true, input)
    else if head.additional = 22 then .ok (.null, input)
    else if head.additional = 26 then .ok (.float (head.value % 2 ^ 32).toNat, input)
    else if head.additional = 27 then .ok (.double (head.value % 2 ^ 64).toNat, input)
    else .error .unsupportedType
  | _ => .error .unsupportedType

/-- `readGenericValue`. Every head takes a byte, so that the length of the input is fuel enough. -/
def readGenericValue : Nat → Bytes → Except Failure (Value × Bytes)
  | 0, _ => .error .truncated
  | fuel + 1, input => header input >>= fun out => readBody (readGenericValue fuel) out.1 out.2

def decodeValue (bytes : Bytes) : Except Failure Value := do
  let (value, rest) ← readGenericValue bytes.length bytes
  if rest.isEmpty then .ok value else .error .trailing

end QuicLite.Android
