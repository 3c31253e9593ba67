import QuicLite.Lib.Cbor

/-!
# Plain CBOR items

What a flat map of plain values relies on in a codec: `Plain` asks for the round trip of every kind
of item, texts only where they are texts, and that a reader can pass over any of them.
-/

namespace Cbor

open BigEndian List

/-- The bytes of a text. -/
def Utf8 (bs : List UInt8) : Prop := ∃ text : List Char, bs = text.flatMap String.utf8EncodeChar

inductive Item
  | uint (n : Nat)
  | int (i : Int)
  | bytes (bs : List UInt8)
  | text (bs : List UInt8)
  | boolean (b : Bool)

namespace Item

def encode (codec : Codec) : Item → List UInt8
  | .uint n => codec.uint n
  | .int i => codec.int i
  | .bytes bs => codec.bytesValue bs
  | .text bs => codec.textValue bs
  | .boolean b => codec.boolean b

/-- The value is one that the encoder takes. -/
def Sound : Item → Prop
  | .uint n => n < u64Bound
  | .int i => -2 ^ 63 ≤ i ∧ i < 2 ^ 63
  | .bytes bs => bs.length < u64Bound
  | .text bs => bs.length < u64Bound ∧ Utf8 bs
  | .boolean _ => True

/-- The bytes of its encoding. -/
def size : Item → Nat
  | .uint n => headLength n
  | .int i => headLength (if 0 ≤ i then i.toNat else (-1 - i).toNat)
  | .bytes bs => headLength bs.length + bs.length
  | .text bs => headLength bs.length + bs.length
  | .boolean _ => 1

end Item

/-- Decoding what was encoded gives the value and consumes exactly it, and heads are minimal. -/
structure Codec.Plain (codec : Codec) : Prop where
  readUint : ∀ {n : Nat} (_ : (Item.uint n).Sound) (rest : List UInt8),
    codec.readUint (codec.uint n ++ rest) = some (n, rest)
  readInt : ∀ {i : Int} (_ : (Item.int i).Sound) (rest : List UInt8),
    codec.readInt (codec.int i ++ rest) = some (i, rest)
  readBytes : ∀ {bs : List UInt8} (_ : (Item.bytes bs).Sound) (rest : List UInt8),
    codec.readBytes (codec.bytesValue bs ++ rest) = some (bs, rest)
  readText : ∀ {bs : List UInt8} (_ : (Item.text bs).Sound) (rest : List UInt8),
    codec.readText (codec.textValue bs ++ rest) = some (bs, rest)
  readBoolean : ∀ (b : Bool) (rest : List UInt8),
    codec.readBoolean (codec.boolean b ++ rest) = some (b, rest)
  readHead : ∀ {n : Nat} (_ : n < indefinite) (rest : List UInt8),
    codec.readHead (codec.map n ++ rest) = some ((5, n), rest)
  skip : ∀ {item : Item} (_ : item.Sound) (rest : List UInt8),
    codec.skip (item.encode codec ++ rest) = some rest
  length_item : ∀ item : Item, (item.encode codec).length = item.size
  length_map : ∀ n : Nat, (codec.map n).length = headLength n

theorem headLength_le_nine (n : Nat) : headLength n ≤ 9 := by
  unfold headLength
  repeat' split
  all_goals decide

/-! ## The minimal codec -/

/-- A head without contents is passed over at once. -/
theorem skip_head {major n : Nat} (hmajor : major < 2) (hn : n < u64Bound) (rest : List UInt8) :
    minimal.skip (head major n ++ rest) = some rest := by
  have hpos := headLength_pos n
  obtain ⟨fuel, hfuel⟩ : ∃ fuel, (head major n ++ rest).length = fuel + 1 :=
    ⟨(head major n ++ rest).length - 1, by rw [length_append, length_head]; omega⟩
  show skipItems (head major n ++ rest).length 1 (head major n ++ rest) = some rest
  rw [hfuel, skipItems, readHead_head (by omega) hn]
  simp only
  rw [if_neg (by omega), if_neg (by omega), if_neg (by omega), if_neg (by omega), skipItems_zero]

theorem skip_string {major : Nat} (hmajor : major = 2 ∨ major = 3) {bs : List UInt8}
    (hbs : bs.length < u64Bound) (rest : List UInt8) :
    minimal.skip (head major bs.length ++ bs ++ rest) = some rest := by
  have hpos := headLength_pos bs.length
  obtain ⟨fuel, hfuel⟩ : ∃ fuel, (head major bs.length ++ bs ++ rest).length = fuel + 1 :=
    ⟨(head major bs.length ++ bs ++ rest).length - 1, by
      rw [length_append, length_append, length_head]; omega⟩
  show skipItems (head major bs.length ++ bs ++ rest).length 1
    (head major bs.length ++ bs ++ rest) = some rest
  rw [hfuel, append_assoc, skipItems, readHead_head (by omega) hbs]
  simp only
  rw [if_pos hmajor, if_pos (by simp), drop_left, skipItems_zero]

theorem minimal_plain : minimal.Plain where
  readUint := minimal_lawful.readUint
  readInt := minimal_lawful.readInt
  readBytes := minimal_lawful.readBytes
  readText := fun h rest => minimal_lawful.readText h.1 rest
  readBoolean := minimal_lawful.readBoolean
  readHead := minimal_lawful.readHead
  skip := by
    intro item h rest
    have hbound : u64Bound = 2 ^ 64 := rfl
    cases item with
    | uint n => exact skip_head (by decide) h rest
    | int i =>
      obtain ⟨hlow, hhigh⟩ := h
      show minimal.skip ((if 0 ≤ i then head 0 i.toNat else head 1 (-1 - i).toNat) ++ rest) =
        some rest
      split
      · exact skip_head (by decide) (by omega) rest
      · exact skip_head (by decide) (by omega) rest
    | bytes bs => exact skip_string (.inl rfl) h rest
    | text bs => exact skip_string (.inr rfl) h.1 rest
    | boolean b => cases b <;> exact skipItems_zero _ _
  length_item := by
    intro item
    cases item with
    | uint => exact length_head 0 ..
    | int i =>
      show (if 0 ≤ i then head 0 i.toNat else head 1 (-1 - i).toNat).length =
        headLength (if 0 ≤ i then i.toNat else (-1 - i).toNat)
      split
      · exact length_head 0 _
      · exact length_head 1 _
    | bytes => exact minimal_lawful.length_bytesValue ..
    | text => exact minimal_lawful.length_textValue ..
    | boolean b => rfl
  length_map := minimal_lawful.length_map

end Cbor
