import QuicLite.Android.Codec
import QuicLite.Stream.Grammar
import Mathlib.Data.List.Forall2

/-!
# The dialect of the Android side

Every value that is written is one item for the scan, and reads back as what it was, except where it
holds a double: its head announces a simple value in one byte, and the eight bytes of the number
follow as strays.
-/

namespace QuicLite.Android

open BigEndian Recognizer QuicLite.Stream Nat Except Bool

/-! ## What is written -/

variable {n major fuel : Nat} {bytes : Bytes} {key : Value}
variable {map : List (Value × Value)}

/-- A key that messages use. -/
inductive IsKey : Value → Prop
  | text (s : List Char) (h : (utf8Bytes s).length < 2 ^ 31) : IsKey (.text s)
  | long (n : Int) (h : -2 ^ 63 ≤ n ∧ n < 2 ^ 63) : IsKey (.long n)

/-- The values of a message. Arrays are at most as long as an `int` says. -/
inductive Valid : Value → Prop
  | null : Valid .null
  | boolean (b : Bool) : Valid (.boolean b)
  | integer (n : Int) (h : -2 ^ 31 ≤ n ∧ n < 2 ^ 31) : Valid (.integer n)
  | long (n : Int) (h : -2 ^ 63 ≤ n ∧ n < 2 ^ 63) : Valid (.long n)
  | double (bits : Nat) (h : bits < 2 ^ 64) : Valid (.double bits)
  | text (s : List Char) (h : (utf8Bytes s).length < 2 ^ 31) : Valid (.text s)
  | bytes (bs : Bytes) (h : bs.length < 2 ^ 31) : Valid (.bytes bs)
  | list (items : List Value) (hlength : items.length ≤ 128) (hitems : ∀ item ∈ items, Valid item) :
      Valid (.list items)
  | map (entries : List (Value × Value)) (hlength : entries.length ≤ 128)
      (hkeys : ∀ entry ∈ entries, IsKey entry.1) (hdistinct : (entries.map (·.1)).Nodup)
      (hvalues : ∀ entry ∈ entries, Valid entry.2) : Valid (.map entries)

mutual

def Value.hasDouble : Value → Bool
  | .double _ => true
  | .list items => hasDoubleItems items
  | .map entries => hasDoubleEntries entries
  | _ => false

def hasDoubleItems : List Value → Bool
  | [] => false
  | item :: items => item.hasDouble || hasDoubleItems items

def hasDoubleEntries : List (Value × Value) → Bool
  | [] => false
  | (_, value) :: entries => value.hasDouble || hasDoubleEntries entries

end

mutual

/-- What comes back: an `Integer` as the `Long` of the same number. -/
def Value.asRead : Value → Value
  | .integer n => .long n
  | .list items => .list (asReadItems items)
  | .map entries => .map (asReadEntries entries)
  | value => value

def asReadItems : List Value → List Value
  | [] => []
  | item :: items => item.asRead :: asReadItems items

def asReadEntries : List (Value × Value) → List (Value × Value)
  | [] => []
  | (key, value) :: entries => (key, value.asRead) :: asReadEntries entries

end

mutual

/-- Levels of nesting, its own included. -/
def Value.depth : Value → Nat
  | .list items => depthItems items + 1
  | .map entries => depthEntries entries + 1
  | _ => 1

def depthItems : List Value → Nat
  | [] => 0
  | item :: items => max item.depth (depthItems items)

def depthEntries : List (Value × Value) → Nat
  | [] => 0
  | (_, value) :: entries => max 1 (max value.depth (depthEntries entries))

end

/-! ## Heads -/

theorem initial_spec {info : Nat} (hmajor : major < 8) (hinfo : info < 32) :
    majorOf (UInt8.ofNat (major * 32 + info)) = major ∧ infoOf (UInt8.ofNat (major * 32 + info)) =
      info := by
  have hnat : (UInt8.ofNat (major * 32 + info)).toNat = major * 32 + info := by
    rw [UInt8.toNat_ofNat']
    omega
  constructor
  · rw [majorOf, UInt8.toNat_shiftRight, show (5 : UInt8).toNat % 8 = 5 from rfl]
    omega
  · rw [infoOf, UInt8.toNat_and, show (0x1f : UInt8).toNat = 2 ^ 5 - 1 from rfl,
      and_two_pow_sub_one_eq_mod]
    omega

/-- What a written head is for both readers. -/
structure Heads (major n : Nat) (bytes : Bytes) (additional : Nat) : Prop where
  written : writeType major n = .ok bytes
  nonempty : 1 ≤ bytes.length
  read : ∀ rest, header (bytes ++ rest) = .ok (⟨major, additional, n⟩, rest)
  scanned : Head (major, some n) bytes

open List

theorem heads_direct (major : Nat) (hmajor : major < 8) (hn : n < 24) :
    Heads major n [UInt8.ofNat (major * 32 + n)] n := by
  obtain ⟨hmajorOf, hinfoOf⟩ := initial_spec hmajor (by omega : n < 32)
  refine ⟨?_, le_refl 1, fun rest => ?_, ?_⟩
  · rw [writeType, if_neg (by omega), if_pos (by omega)]
    rfl
  · rw [singleton_append, header]
    simp only [hmajorOf, hinfoOf, if_pos hn]
  · have hhead := Head.direct (.ofNat (major * 32 + n)) (by omega)
    rwa [hmajorOf, hinfoOf] at hhead

/-- A head with `2 ^ class` bytes of argument. -/
theorem heads_extended (width : Nat) (hmajor : major < 8) (hwidth : width < 4)
    (hn : n < 256 ^ 2 ^ width) (hsigned : n < 2 ^ 63) (hwritten : writeType major n =
      .ok (UInt8.ofNat (major * 32 + (24 + width)) :: toBytes (2 ^ width) n)) :
    Heads major n (UInt8.ofNat (major * 32 + (24 + width)) :: toBytes (2 ^ width) n)
    (24 + width) := by
  obtain ⟨hmajorOf, hinfoOf⟩ := initial_spec hmajor (by omega : 24 + width < 32)
  have hvalue : ofBytes 0 (toBytes (2 ^ width) n) = n := by
    rw [ofBytes_toBytes, zero_mul, zero_add, mod_eq_of_lt hn]
  have hsize : 24 + width - 24 = width := by omega
  refine ⟨hwritten, le_add_left 1 _, fun rest => ?_, ?_⟩
  · have hlength : (toBytes (2 ^ width) n).length = 2 ^ width := length_toBytes _ _
    have hlong : ¬(toBytes (2 ^ width) n ++ rest).length < 2 ^ width := by
      rw [length_append]
      omega
    rw [cons_append, header]
    simp only [hinfoOf, hmajorOf, hsize]
    rw [if_neg (by omega), if_pos (by omega), readArgument, if_neg hlong, take_left' hlength,
      drop_left' hlength,
      hvalue, signed, if_pos hsigned]
    rfl
  · have hhead := Head.extended (.ofNat (major * 32 + (24 + width))) (toBytes (2 ^ width) n)
      (by omega)
      (by omega) (by rw [length_toBytes, hinfoOf, hsize])
    rwa [hmajorOf, hvalue] at hhead

theorem exists_heads (major : Nat) (hmajor : major < 8) (hn : n < 2 ^ 63) : ∃ bytes additional,
    Heads major n bytes additional := by
  by_cases hdirect : n < 24
  · exact ⟨_, _, heads_direct major hmajor hdirect⟩
  by_cases hone : n ≤ 0xff
  · refine ⟨_, _, heads_extended 0 hmajor (by omega) (by norm_num; omega) hn ?_⟩
    rw [writeType, if_neg (by omega), if_neg (by omega), if_pos (by omega)]
    rfl
  by_cases htwo : n ≤ 0xffff
  · refine ⟨_, _, heads_extended 1 hmajor (by omega) (by norm_num; omega) hn ?_⟩
    rw [writeType, if_neg (by omega), if_neg (by omega), if_neg (by omega), if_pos (by omega)]
    rfl
  by_cases hfour : n ≤ 0xffffffff
  · refine ⟨_, _, heads_extended 2 hmajor (by omega) (by norm_num; omega) hn ?_⟩
    rw [writeType, if_neg (by omega), if_neg (by omega), if_neg (by omega), if_neg (by omega),
      if_pos (by omega)]
    rfl
  refine ⟨_, _, heads_extended 3 hmajor (by omega) (by norm_num; omega) hn ?_⟩
  rw [writeType, if_neg (by omega), if_neg (by omega), if_neg (by omega), if_neg (by omega),
    if_neg (by omega)]
  rfl

/-! ## Texts -/

theorem decodeText_utf8Bytes (s : List Char) (hfuel : (utf8Bytes s).length ≤ fuel) :
    decodeText fuel (utf8Bytes s) = s := by
  induction s generalizing fuel with
  | nil =>
    cases fuel with
    | zero => rfl
    | succ fuel => rfl
  | cons c s ih =>
    have hsize : (String.utf8EncodeChar c).length = c.utf8Size := String.length_utf8EncodeChar c
    have hpos := c.utf8Size_pos
    have hbytes : utf8Bytes (c :: s) = String.utf8EncodeChar c ++ utf8Bytes s := rfl
    rw [hbytes, length_append] at hfuel
    obtain ⟨fuel, rfl⟩ := exists_eq_succ_of_ne_zero (by omega : fuel ≠ 0)
    have hnonempty : (String.utf8EncodeChar c ++ utf8Bytes s).isEmpty = false := by
      rw [isEmpty_eq_false_iff]
      exact append_ne_nil_of_left_ne_nil String.utf8EncodeChar_ne_nil _
    have hdecode : (String.utf8EncodeChar c ++ utf8Bytes s).toByteArray.utf8DecodeChar? 0 =
        some c := by
      rw [toByteArray_append]
      exact ByteArray.utf8DecodeChar?_utf8EncodeChar_append
    rw [hbytes, decodeText, hnonempty, if_neg Bool.false_ne_true]
    simp only [hdecode]
    rw [drop_left' hsize, ih (by omega)]

theorem textOf_utf8Bytes (s : List Char) : textOf (utf8Bytes s) = s :=
  decodeText_utf8Bytes s (le_refl _)

/-! ## Values -/

/-- The bytes of a value, the scan of them, and what comes back. -/
structure Codes (value : Value) (bytes : Bytes) : Prop where
  written : writeValue value = .ok bytes
  deep : value.depth ≤ bytes.length
  read : ∀ fuel rest, value.depth ≤ fuel → readGenericValue fuel (bytes ++ rest) =
    if value.hasDouble then .error .unsupportedType else .ok (value.asRead, rest)
  scanned : value.hasDouble = false → Item value.depth bytes

theorem Heads.readValue {additional : Nat} (h : Heads major n bytes additional) (fuel : Nat)
    (rest : Bytes) : readGenericValue (fuel + 1)
    (bytes ++ rest) = readBody (readGenericValue fuel) ⟨major, additional, n⟩ rest := by
  rw [readGenericValue, h.read]
  rfl

variable {value : Value}

theorem Codes.leaf (hdepth : value.depth = 1) (hdouble : value.hasDouble = false)
    (hwritten : writeValue value = .ok bytes) (hnonempty : 1 ≤ bytes.length)
    (hread : ∀ fuel rest, readGenericValue (fuel + 1) (bytes ++ rest) = .ok (value.asRead, rest))
    (hitem : Item 1 bytes) : Codes value bytes where
  written := hwritten
  deep := by rwa [hdepth]
  read := by
    intro fuel rest hfuel
    obtain ⟨fuel, rfl⟩ := exists_eq_succ_of_ne_zero (by omega : fuel ≠ 0)
    rw [hdouble]
    exact hread fuel rest
  scanned := fun _ => by rwa [hdepth]

/-- An integer, written as a number or as what is left of -1. -/
theorem exists_integer {n : Int} (h : -2 ^ 63 ≤ n ∧ n < 2 ^ 63) :
    ∃ bytes, writeInteger n = .ok bytes ∧ 1 ≤ bytes.length ∧
    (∀ fuel rest, readGenericValue (fuel + 1) (bytes ++ rest) = .ok (.long n, rest)) ∧
      Item 1 bytes := by
  by_cases hsign : 0 ≤ n
  · obtain ⟨bytes, additional, hheads⟩ := exists_heads 0 (by decide) (by omega : n.toNat < 2 ^ 63)
    have hn : ((n.toNat : Nat) : Int) = n := Int.toNat_of_nonneg hsign
    refine ⟨bytes, ?_, hheads.nonempty, fun fuel rest => ?_, .simple (.inl rfl) hheads.scanned⟩
    · rw [writeInteger, if_pos hsign, ← hheads.written, hn]
    · rw [hheads.readValue, hn]
      rfl
  obtain ⟨bytes, additional, hheads⟩ :=
    exists_heads 1 (by decide) (by omega : (-1 - n).toNat < 2 ^ 63)
  have hn : (((-1 - n).toNat : Nat) : Int) = -1 - n := Int.toNat_of_nonneg (by omega)
  refine ⟨bytes, ?_, hheads.nonempty, fun fuel rest => ?_, .simple (.inr (.inl rfl)) hheads.scanned⟩
  · rw [writeInteger, if_neg hsign, ← hheads.written, hn]
  rw [hheads.readValue, hn]
  show ok (Value.long (-1 - (-1 - n)), rest) = _
  rw [sub_sub_cancel]

theorem readBytes_append (bs rest : Bytes) : readBytes bs.length (bs ++ rest) = .ok (bs, rest) := by
  rw [readBytes, if_neg (by rw [length_append]; omega), Int.toNat_natCast, take_left, drop_left]

theorem codes_bytes {bs : Bytes} (h : bs.length < 2 ^ 31) : ∃ bytes, Codes (.bytes bs) bytes := by
  obtain ⟨head, additional, hheads⟩ := exists_heads 2 (by decide) (by omega : bs.length < 2 ^ 63)
  refine ⟨head ++ bs, .leaf rfl rfl ?_ ?_ (fun fuel rest => ?_)
    (.string (.inl rfl) ⟨head, bs, hheads.scanned, rfl⟩)⟩
  · rw [writeValue, hheads.written]
    rfl
  · exact le_trans hheads.nonempty (by rw [length_append]; omega)
  rw [append_assoc, hheads.readValue]
  show (readBytes bs.length (bs ++ rest)).map _ = _
  rw [readBytes_append]
  rfl

theorem codes_text {s : List Char} (h : (utf8Bytes s).length < 2 ^ 31) :
    ∃ bytes, Codes (.text s) bytes := by
  obtain ⟨head, additional, hheads⟩ :=
    exists_heads 3 (by decide) (by omega : (utf8Bytes s).length < 2 ^ 63)
  refine ⟨head ++ utf8Bytes s, .leaf rfl rfl ?_ ?_ (fun fuel rest => ?_)
    (.string (.inr rfl) ⟨head, utf8Bytes s, hheads.scanned, rfl⟩)⟩
  · rw [writeValue, writeText, hheads.written]
    rfl
  · exact le_trans hheads.nonempty (by rw [length_append]; omega)
  rw [append_assoc, hheads.readValue]
  show (readBytes (utf8Bytes s).length (utf8Bytes s ++ rest)).map _ = _
  rw [readBytes_append]
  show ok (Value.text (textOf (utf8Bytes s)), rest) = _
  rw [textOf_utf8Bytes]
  rfl

/-- A boolean or null is its own head. -/
theorem codes_simple (hn : n < 24) (hdepth : value.depth = 1) (hdouble : value.hasDouble = false)
    (hwritten : writeValue value = .ok [UInt8.ofNat (7 * 32 + n)])
    (hread : ∀ item rest, readBody item ⟨7, n, n⟩ rest = .ok (value.asRead, rest)) :
    ∃ bytes, Codes value bytes := by
  have hheads := heads_direct 7 (by decide) hn
  refine ⟨_, .leaf hdepth hdouble hwritten hheads.nonempty (fun fuel rest => ?_)
    (.simple (.inr (.inr rfl)) hheads.scanned)⟩
  rw [hheads.readValue]
  exact hread _ rest

/-- The head of a double announces a simple value in one byte, which is none that the reader
knows. -/
theorem codes_double (bits : Nat) : ∃ bytes, Codes (.double bits) bytes := by
  have hheads : Heads 7 27 [0xf8, 0x1b] 24 :=
    heads_extended 0 (by decide) (by decide) (by decide) (by decide) rfl
  have hdepth : (Value.double bits).depth = 1 := rfl
  refine ⟨[0xf8, 0x1b] ++ toBytes 8 bits, rfl, ?_, fun fuel rest hfuel => ?_, fun h => by cases h⟩
  · rw [length_append]
    exact le_trans (by decide : 1 ≤ 2) (le_add_right _ _)
  · obtain ⟨fuel, rfl⟩ := exists_eq_succ_of_ne_zero (by omega : fuel ≠ 0)
    rfl

/-! ## Lists -/

theorem exists_parts {α : Type} {P : α → Bytes → Prop} {as : List α}
    (h : ∀ a ∈ as, ∃ bytes, P a bytes) :
    ∃ parts, Forall₂ P as parts := by
  induction as with
  | nil => exact ⟨[], .nil⟩
  | cons a as ih =>
    obtain ⟨bytes, hbytes⟩ := h a mem_cons_self
    obtain ⟨parts, hparts⟩ := ih fun a ha => h a (mem_cons_of_mem _ ha)
    exact ⟨bytes :: parts, .cons hbytes hparts⟩

section Items

variable {items : List Value} {parts : List Bytes}

section

variable (h : Forall₂ Codes items parts)
include h

theorem writeItems_parts : writeItems items = .ok parts.flatten := by
  induction h with
  | nil => rfl
  | cons hfirst _ ih =>
    rw [writeItems, hfirst.written, ih]
    rfl

theorem depthItems_le : depthItems items ≤ parts.flatten.length := by
  induction h with
  | nil => exact le_refl 0
  | cons hfirst _ ih =>
    rw [depthItems, flatten_cons, length_append]
    have hdeep := hfirst.deep
    omega

theorem readItems_parts (hfuel : depthItems items ≤ fuel) (rest : Bytes) :
    readItems (readGenericValue fuel) items.length (parts.flatten ++ rest) =
      if hasDoubleItems items then .error .unsupportedType else .ok (asReadItems items, rest) := by
  induction h with
  | nil => rfl
  | @cons item bytes items parts hfirst _ ih =>
    rw [depthItems] at hfuel
    rw [length_cons, readItems, flatten_cons, append_assoc, hfirst.read fuel _ (by omega),
      hasDoubleItems]
    cases item.hasDouble with
    | true => rfl
    | false =>
      show ((readItems (readGenericValue fuel) items.length (parts.flatten ++ rest)).bind fun out =>
        ok (item.asRead :: out.1, out.2)) = _
      rw [ih (by omega)]
      cases hasDoubleItems items <;> rfl

theorem scanned_parts (hdouble : hasDoubleItems items = false) :
    ∀ part ∈ parts, Item (depthItems items) part := by
  induction h with
  | nil => exact fun part hpart => absurd hpart not_mem_nil
  | @cons item bytes items parts hfirst _ ih =>
    rw [hasDoubleItems, or_eq_false_iff] at hdouble
    intro part hpart
    rcases mem_cons.mp hpart with rfl | hpart
    · exact item_mono (le_max_left _ _) (hfirst.scanned hdouble.1)
    · exact item_mono (le_max_right _ _) (ih hdouble.2 part hpart)

end

theorem codes_list (hlength : items.length ≤ 128) (h : Forall₂ Codes items parts) : ∃ bytes, Codes
    (.list items) bytes := by
  obtain ⟨head, additional, hheads⟩ := exists_heads 4 (by decide) (by omega : items.length < 2 ^ 63)
  have hdepth : (Value.list items).depth = depthItems items + 1 := rfl
  have hparts : items.length = parts.length := h.length_eq
  refine ⟨head ++ parts.flatten, ?_, ?_, fun fuel rest hfuel => ?_, fun hdouble => ?_⟩
  · rw [writeValue, hheads.written, writeItems_parts h]
    rfl
  · have hdeep := depthItems_le h
    have hnonempty := hheads.nonempty
    rw [length_append]
    omega
  · obtain ⟨fuel, rfl⟩ := exists_eq_succ_of_ne_zero (by omega : fuel ≠ 0)
    rw [append_assoc, hheads.readValue]
    show (if (128 : Int) < items.length then _ else if intOf items.length < 0 then _ else
      (readItems (readGenericValue fuel) ((items.length : Int).toNat) (parts.flatten ++ rest)).map
        _) = _
    have hint : ¬intOf items.length < 0 := by
      unfold intOf
      simp only
      split <;> omega
    rw [if_neg (by omega), if_neg hint, Int.toNat_natCast, readItems_parts h (by omega)]
    show _ = if hasDoubleItems items then _ else _
    cases hasDoubleItems items <;> rfl
  · rw [hdepth]
    have hhead := hheads.scanned
    rw [hparts] at hhead
    exact .array hhead (scanned_parts h hdouble)

end Items

/-! ## Maps -/

theorem isKey_plain (h : IsKey key) : key.hasDouble = false ∧ key.asRead = key ∧ key.depth = 1 := by
  cases h <;> exact ⟨rfl, rfl, rfl⟩

theorem equals_isKey {other : Value} (h : IsKey key) (h' : IsKey other) :
    equals key other = true ↔ key = other := by
  cases h with
  | text s hs =>
    cases h' with
    | text s' hs' => simp [equals]
    | long n hn => simp [equals]
  | long n hn =>
    cases h' with
    | text s' hs' => simp [equals]
    | long n' hn' => simp [equals]

theorem put_new (h : ∀ entry ∈ map, equals entry.1 key = false) :
    put key value map = map ++ [(key, value)] := by
  induction map with
  | nil => rfl
  | cons entry map ih =>
    obtain ⟨old, was⟩ := entry
    have hfirst : equals old key = false := h _ mem_cons_self
    rw [put, hfirst, ih fun entry hentry => h entry (mem_cons_of_mem _ hentry)]
    rfl

section Entries

/-- An entry and the bytes of its key and value. -/
def CodesEntry (entry : Value × Value) (part : Bytes × Bytes) : Prop :=
  IsKey entry.1 ∧ Codes entry.1 part.1 ∧ Codes entry.2 part.2

/-- Keys and values in a row. -/
def sides (parts : List (Bytes × Bytes)) : List Bytes := parts.flatMap fun part => [part.1, part.2]

variable {entries : List (Value × Value)} {parts : List (Bytes × Bytes)}

theorem sides_cons (part : Bytes × Bytes) (parts : List (Bytes × Bytes)) :
    (sides (part :: parts)).flatten = part.1 ++ (part.2 ++ (sides parts).flatten) := by
  simp [sides]

theorem length_sides (parts : List (Bytes × Bytes)) : (sides parts).length = parts.length * 2 := by
  induction parts with
  | nil => rfl
  | cons part parts ih =>
    have hcons : (sides (part :: parts)).length = (sides parts).length + 2 := rfl
    rw [hcons, ih, length_cons, succ_mul]

theorem exists_entries (hkeys : ∀ entry ∈ entries, IsKey entry.1)
    (hcodes : ∀ entry ∈ entries, ∃ bytes, Codes entry.1 bytes)
    (hvalues : ∀ entry ∈ entries, ∃ bytes, Codes entry.2 bytes) :
    ∃ parts, Forall₂ CodesEntry entries parts := by
  induction entries with
  | nil => exact ⟨[], .nil⟩
  | cons entry entries ih =>
    obtain ⟨key, hkey⟩ := hcodes entry mem_cons_self
    obtain ⟨value, hvalue⟩ := hvalues entry mem_cons_self
    obtain ⟨parts, hparts⟩ := ih (fun e he => hkeys e (mem_cons_of_mem _ he))
      (fun e he => hcodes e (mem_cons_of_mem _ he)) fun e he => hvalues e (mem_cons_of_mem _ he)
    exact ⟨(key, value) :: parts, .cons ⟨hkeys entry mem_cons_self, hkey, hvalue⟩ hparts⟩

section

variable (h : Forall₂ CodesEntry entries parts)
include h

theorem writeEntries_parts : writeEntries entries = .ok (sides parts).flatten := by
  induction h with
  | nil => rfl
  | @cons entry part entries parts hfirst _ ih =>
    rw [writeEntries, hfirst.2.1.written, hfirst.2.2.written, ih]
    rfl

theorem depthEntries_le : depthEntries entries ≤ (sides parts).flatten.length := by
  induction h with
  | nil => exact le_refl 0
  | @cons entry part entries parts hfirst _ ih =>
    have hkey := hfirst.2.1.deep
    have hvalue := hfirst.2.2.deep
    rw [(isKey_plain hfirst.1).2.2] at hkey
    rw [depthEntries, sides_cons, length_append, length_append]
    omega

/-- The entries are put into the map one after the other, none over another. -/
theorem readEntries_parts (hfuel : depthEntries entries ≤ fuel)
    (hdistinct : (entries.map (·.1)).Nodup)
    (hmap : ∀ entry ∈ map, IsKey entry.1 ∧ entry.1 ∉ entries.map (·.1)) (rest : Bytes) :
    readEntries (readGenericValue fuel) entries.length map ((sides parts).flatten ++ rest) =
      if hasDoubleEntries entries then .error .unsupportedType
        else .ok (map ++ asReadEntries entries, rest) := by
  induction h generalizing map with
  | nil => rw [asReadEntries, append_nil]; rfl
  | @cons entry part entries parts hfirst _ ih =>
    obtain ⟨key, value⟩ := entry
    obtain ⟨hkey, hcodesKey, hcodesValue⟩ := hfirst
    obtain ⟨hkeyDouble, hkeyRead, hkeyDepth⟩ := isKey_plain hkey
    have hfuel : max 1 (max value.depth (depthEntries entries)) ≤ fuel := hfuel
    rw [map_cons, nodup_cons] at hdistinct
    rw [length_cons, readEntries, sides_cons, append_assoc, append_assoc,
      hcodesKey.read fuel _ (by omega), hkeyDouble, hkeyRead]
    show ((readGenericValue fuel (part.2 ++ ((sides parts).flatten ++ rest))).bind fun out =>
      readEntries (readGenericValue fuel) entries.length (put key out.1 map) out.2) = _
    have hvalueFuel : value.depth ≤ fuel := by omega
    rw [hcodesValue.read fuel _ hvalueFuel, hasDoubleEntries]
    cases hvalueDouble : value.hasDouble with
    | true => rfl
    | false =>
    have hnew : put key value.asRead map = map ++ [(key, value.asRead)] := by
      refine put_new fun old hold => ?_
      obtain ⟨hisKey, habsent⟩ := hmap old hold
      rw [eq_false_iff, Ne, equals_isKey hisKey hkey]
      intro hsame
      exact habsent (hsame ▸ mem_cons_self)
    show readEntries (readGenericValue fuel) entries.length (put key value.asRead map)
      ((sides parts).flatten ++ rest) = _
    rw [hnew, ih (by omega) hdistinct.2, append_assoc]
    · rfl
    intro old hold
    rcases mem_append.mp hold with hold | hold
    · exact ⟨(hmap old hold).1, fun hmem => (hmap old hold).2 (mem_cons_of_mem _ hmem)⟩
    · rw [mem_singleton.mp hold]
      exact ⟨hkey, hdistinct.1⟩

theorem scanned_sides (hdouble : hasDoubleEntries entries = false) :
    ∀ side ∈ sides parts, Item (depthEntries entries) side := by
  induction h with
  | nil => exact fun side hside => absurd hside not_mem_nil
  | @cons entry part entries parts hfirst _ ih =>
    obtain ⟨hkeyDouble, -, hkeyDepth⟩ := isKey_plain hfirst.1
    rw [hasDoubleEntries, or_eq_false_iff] at hdouble
    have hkeyItem := hfirst.2.1.scanned hkeyDouble
    have hvalueItem := hfirst.2.2.scanned hdouble.1
    simp only [hkeyDepth] at hkeyItem
    intro side hside
    rcases mem_append.mp (show side ∈ [part.1, part.2] ++ sides parts from hside) with hside | hside
    · rcases mem_pair.mp hside with rfl | rfl
      · exact item_mono (le_max_left _ _) hkeyItem
      · exact item_mono (le_trans (le_max_left _ _) (le_max_right _ _)) hvalueItem
    · exact item_mono (le_trans (le_max_right _ _) (le_max_right _ _))
        (ih hdouble.2 side hside)

end

theorem codes_map (hlength : entries.length ≤ 128) (hdistinct : (entries.map (·.1)).Nodup)
    (h : Forall₂ CodesEntry entries parts) : ∃ bytes, Codes (.map entries) bytes := by
  obtain ⟨head, additional, hheads⟩ :=
    exists_heads 5 (by decide) (by omega : entries.length < 2 ^ 63)
  have hdepth : (Value.map entries).depth = depthEntries entries + 1 := rfl
  have hparts : entries.length = parts.length := h.length_eq
  refine ⟨head ++ (sides parts).flatten, ?_, ?_, fun fuel rest hfuel => ?_, fun hdouble => ?_⟩
  · rw [writeValue, hheads.written, writeEntries_parts h]
    rfl
  · have hdeep := depthEntries_le h
    have hnonempty := hheads.nonempty
    rw [length_append]
    omega
  · obtain ⟨fuel, rfl⟩ := exists_eq_succ_of_ne_zero (by omega : fuel ≠ 0)
    rw [append_assoc, hheads.readValue]
    show (if (128 : Int) < entries.length then _ else
      (readEntries (readGenericValue fuel) ((entries.length : Int).toNat) []
        ((sides parts).flatten ++ rest)).map _) = _
    rw [if_neg (by omega), Int.toNat_natCast,
      readEntries_parts h (by omega) hdistinct fun old hold =>
      absurd hold not_mem_nil]
    show _ = if hasDoubleEntries entries then _ else _
    cases hasDoubleEntries entries <;> rfl
  · rw [hdepth]
    exact .map hheads.scanned (by rw [length_sides, hparts]) (scanned_sides h hdouble)

end Entries

/-! ## Every value -/

theorem codes_integer {n : Int} (h : -2 ^ 31 ≤ n ∧ n < 2 ^ 31) :
    ∃ bytes, Codes (.integer n) bytes := by
  obtain ⟨bytes, hwritten, hnonempty, hread, hitem⟩ := exists_integer (n := n) (by omega)
  exact ⟨bytes, .leaf rfl rfl hwritten hnonempty hread hitem⟩

theorem codes_long {n : Int} (h : -2 ^ 63 ≤ n ∧ n < 2 ^ 63) : ∃ bytes, Codes (.long n) bytes := by
  obtain ⟨bytes, hwritten, hnonempty, hread, hitem⟩ := exists_integer h
  exact ⟨bytes, .leaf rfl rfl hwritten hnonempty hread hitem⟩

theorem IsKey.codes (h : IsKey key) : ∃ bytes, Codes key bytes := by
  cases h with
  | text s h => exact codes_text h
  | long n h => exact codes_long h

theorem Valid.codes (h : Valid value) : ∃ bytes, Codes value bytes := by
  induction h with
  | null => exact codes_simple (n := 22) (by decide) rfl rfl rfl fun _ _ => rfl
  | boolean b =>
    cases b with
    | false => exact codes_simple (n := 20) (by decide) rfl rfl rfl fun _ _ => rfl
    | true => exact codes_simple (n := 21) (by decide) rfl rfl rfl fun _ _ => rfl
  | integer n h => exact codes_integer h
  | long n h => exact codes_long h
  | double bits h => exact codes_double bits
  | text s h => exact codes_text h
  | bytes bs h => exact codes_bytes h
  | list items hlength _ ih =>
    obtain ⟨parts, hparts⟩ := exists_parts ih
    exact codes_list hlength hparts
  | map entries hlength hkeys hdistinct _ ih =>
    obtain ⟨parts, hparts⟩ :=
      exists_entries hkeys (fun entry hentry => (hkeys entry hentry).codes) ih
    exact codes_map hlength hdistinct hparts

/-! ## The codec -/

/-- Writing succeeds, reading gives the value back, and the scan sees one item. -/
def RoundTrips (value : Value) : Prop :=
  ∃ bytes, encodeValue value = .ok bytes ∧ decodeValue bytes = .ok value.asRead ∧ IsItem bytes ∧
    (value.depth ≤ maxDepth + 1 → bytes.length ≤ maxHeaderBytes →
      ∀ rest, scanHeader (bytes ++ rest) = .complete bytes.length)

/-- The encodings in a row are items in one way only. -/
def Splits (values : List Value) : Prop :=
  ∃ encodings, Forall₂ (fun value bytes => encodeValue value = .ok bytes) values encodings ∧
    ∀ parts, (∀ part ∈ parts, IsItem part) ∧ parts.flatten = encodings.flatten ↔ parts = encodings

theorem Codes.decode (h : Codes value bytes) :
    decodeValue bytes = if value.hasDouble then .error .unsupportedType else .ok value.asRead := by
  have hread := h.read bytes.length [] h.deep
  rw [append_nil] at hread
  rw [decodeValue, hread]
  cases value.hasDouble <;> rfl

theorem Codes.roundTrips (h : Codes value bytes) (hdouble : value.hasDouble = false) :
    RoundTrips value := by
  have hitem := h.scanned hdouble
  refine ⟨bytes, h.written, ?_, ⟨_, hitem⟩, fun hdepth hlength rest => ?_⟩
  · rw [h.decode, hdouble, if_neg Bool.false_ne_true]
  refine scanHeader_append (scanHeader_complete_iff.mpr ⟨le_refl _, ?_⟩) rest
  rw [take_length]
  exact ⟨item_mono hdepth hitem, hlength⟩

theorem scanned_encodings {values : List Value} {encodings : List Bytes}
    (h : Forall₂ Codes values encodings)
    (hdouble : ∀ value ∈ values, value.hasDouble = false) : ∀ bytes ∈ encodings, IsItem bytes := by
  induction h with
  | nil => exact fun bytes hbytes => absurd hbytes not_mem_nil
  | @cons value first values encodings hfirst _ ih =>
    intro bytes hbytes
    rcases mem_cons.mp hbytes with rfl | hbytes
    · exact ⟨_, hfirst.scanned (hdouble value mem_cons_self)⟩
    · exact ih (fun v hv => hdouble v (mem_cons_of_mem _ hv)) bytes hbytes

/-- Any messages round trip and split, if and only if none of them holds a double. -/
theorem roundTrips_iff {values : List Value} (hvalid : ∀ value ∈ values, Valid value) :
    (∀ value ∈ values, RoundTrips value) ∧ Splits values ↔
      ∀ value ∈ values, value.hasDouble = false := by
  constructor
  · rintro ⟨hround, -⟩ value hvalue
    obtain ⟨bytes, hwritten, hdecoded, -⟩ := hround value hvalue
    obtain ⟨written, hcodes⟩ := (hvalid value hvalue).codes
    obtain rfl : bytes = written := ok.inj (hwritten.symm.trans hcodes.written)
    rw [hcodes.decode] at hdecoded
    cases hdouble : value.hasDouble with
    | false => rfl
    | true =>
      rw [hdouble] at hdecoded
      cases hdecoded
  · intro hdouble
    have hcodes := fun value hvalue => (hvalid value hvalue).codes
    refine ⟨fun value hvalue => ?_, ?_⟩
    · obtain ⟨bytes, hbytes⟩ := hcodes value hvalue
      exact hbytes.roundTrips (hdouble value hvalue)
    obtain ⟨encodings, hencodings⟩ := exists_parts hcodes
    refine ⟨encodings, hencodings.imp fun _ _ h => h.written, fun parts => ⟨fun h => ?_, ?_⟩⟩
    · exact isItem_prefixFree.flatten_inj isItem_nonempty h.1
        (scanned_encodings hencodings hdouble) h.2
    · rintro rfl
      exact ⟨scanned_encodings hencodings hdouble, rfl⟩

/-! ## Two messages -/

def plainMessage : Value :=
  .map [(.long 1, .list [.integer (-5), .null]), (.text ['a'], .bytes [1, 2])]

theorem plainMessage_valid : Valid plainMessage := by
  refine .map _ (by decide) ?_ (by simp) ?_
  · intro entry hentry
    rcases mem_pair.mp hentry with rfl | rfl
    · exact .long 1 (by decide)
    · exact .text ['a'] (by decide)
  intro entry hentry
  rcases mem_pair.mp hentry with rfl | rfl
  · refine .list _ (by decide) fun item hitem => ?_
    rcases mem_pair.mp hitem with rfl | rfl
    · exact .integer (-5) (by decide)
    · exact .null
  · exact .bytes [1, 2] (by decide)

theorem plainMessage_roundTrips :
    (∀ value ∈ [plainMessage], RoundTrips value) ∧ Splits [plainMessage] ↔
      ∀ value ∈ [plainMessage], value.hasDouble = false :=
  roundTrips_iff fun value hvalue => by
    rw [mem_singleton.mp hvalue]
    exact plainMessage_valid

/-- `1.0` -/
def one : Value := .double 0x3ff0000000000000

/-- The head announces the simple value 27, and the number is left over. -/
theorem one_not_roundTrips :
    Valid one ∧ encodeValue one = .ok [0xf8, 0x1b, 0x3f, 0xf0, 0, 0, 0, 0, 0, 0] ∧
    decodeValue [0xf8, 0x1b, 0x3f, 0xf0, 0, 0, 0, 0, 0, 0] = .error .unsupportedType ∧
      ¬RoundTrips one := by
  have hdecode : decodeValue [0xf8, 0x1b, 0x3f, 0xf0, 0, 0, 0, 0, 0, 0] = .error .unsupportedType :=
    rfl
  have hencode : encodeValue one = .ok [0xf8, 0x1b, 0x3f, 0xf0, 0, 0, 0, 0, 0, 0] := rfl
  refine ⟨.double _ (by decide), hencode, hdecode, ?_⟩
  rintro ⟨bytes, hwritten, hdecoded, -⟩
  rw [hencode] at hwritten
  rw [← ok.inj hwritten] at hdecoded
  cases hdecoded

end QuicLite.Android
