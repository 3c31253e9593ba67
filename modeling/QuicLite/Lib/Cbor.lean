import QuicLite.Lib.BigEndian
import QuicLite.Lib.Writer

/-!
# CBOR

What a protocol may rely on in a codec of CBOR data items: every item has one encoding, with a head
of minimal length, and the decoder gets the value back and stops right behind it. A decoder is the
list of bytes that are still to be read. `Codec` leaves the codec open and `Lawful` says what is
relied on; `minimal` is a codec that has it.
-/

namespace Cbor

open BigEndian Writer List Nat

variable {bs : List UInt8} {n : Nat} {items : List UInt8}

/-- One function of the encoder for each kind of item, and one of the decoder. -/
structure Codec where
  uint : Nat → List UInt8
  int : Int → List UInt8
  bytesValue : List UInt8 → List UInt8
  textValue : List UInt8 → List UInt8
  boolean : Bool → List UInt8
  map : Nat → List UInt8
  readHead : List UInt8 → Option ((Nat × Nat) × List UInt8)
  readUint : List UInt8 → Option (Nat × List UInt8)
  readInt : List UInt8 → Option (Int × List UInt8)
  readBytes : List UInt8 → Option (List UInt8 × List UInt8)
  readText : List UInt8 → Option (List UInt8 × List UInt8)
  readBoolean : List UInt8 → Option (Bool × List UInt8)
  skip : List UInt8 → Option (List UInt8)

def u64Bound : Nat := 2 ^ 64

/-- The number of entries that stands for "indefinite". -/
def indefinite : Nat := u64Bound - 1

/-- The bytes of a minimal head. -/
def headLength (n : Nat) : Nat :=
  if n < 24 then 1 else if n < 256 then 2 else if n < 65536 then 3
  else if n < 4294967296 then 5 else 9

/-- A number of complete items, one after the other. -/
inductive Codec.Items (codec : Codec) : Nat → List UInt8 → Prop
  | none : codec.Items 0 []
  | uint {k : Nat} {rest : List UInt8} (n : Nat) (hn : n < u64Bound) (h : codec.Items k rest) :
      codec.Items (k + 1) (codec.uint n ++ rest)
  | bytesValue {k : Nat} {rest : List UInt8} (bs : List UInt8) (hbs : bs.length < u64Bound)
      (h : codec.Items k rest) :
      codec.Items (k + 1) (codec.bytesValue bs ++ rest)
  | boolean {k : Nat} {rest : List UInt8} (b : Bool) (h : codec.Items k rest) :
      codec.Items (k + 1) (codec.boolean b ++ rest)
  | map {k : Nat} {rest : List UInt8} (n : Nat) (hn : n < indefinite)
      (h : codec.Items (2 * n + k) rest) :
      codec.Items (k + 1) (codec.map n ++ rest)

/-- Decoding what was encoded gives the value and consumes exactly it, and heads are minimal. -/
structure Codec.Lawful (codec : Codec) : Prop where
  readUint : ∀ {n : Nat} (_ : n < u64Bound) (rest : List UInt8),
    codec.readUint (codec.uint n ++ rest) = some (n, rest)
  readInt : ∀ {i : Int} (_ : -2 ^ 63 ≤ i ∧ i < 2 ^ 63) (rest : List UInt8),
    codec.readInt (codec.int i ++ rest) = some (i, rest)
  readBytes : ∀ {bs : List UInt8} (_ : bs.length < u64Bound) (rest : List UInt8),
    codec.readBytes (codec.bytesValue bs ++ rest) = some (bs, rest)
  readText : ∀ {bs : List UInt8} (_ : bs.length < u64Bound) (rest : List UInt8),
    codec.readText (codec.textValue bs ++ rest) = some (bs, rest)
  readBoolean : ∀ (b : Bool) (rest : List UInt8),
    codec.readBoolean (codec.boolean b ++ rest) = some (b, rest)
  readHead : ∀ {n : Nat} (_ : n < indefinite) (rest : List UInt8),
    codec.readHead (codec.map n ++ rest) = some ((5, n), rest)
  skip : ∀ {item : List UInt8} (_ : codec.Items 1 item) (rest : List UInt8),
    codec.skip (item ++ rest) = some rest
  length_uint : ∀ n : Nat, (codec.uint n).length = headLength n
  length_bytesValue : ∀ bs : List UInt8, (codec.bytesValue bs).length = headLength bs.length +
    bs.length
  length_textValue : ∀ bs : List UInt8, (codec.textValue bs).length = headLength bs.length +
    bs.length
  length_boolean : ∀ b : Bool, (codec.boolean b).length = 1
  length_map : ∀ n : Nat, (codec.map n).length = headLength n

theorem headLength_pos (n : Nat) : 0 < headLength n := by
  unfold headLength
  repeat' split
  all_goals decide

theorem headLength_le {bound : Nat} (h : n ≤ bound) : headLength n ≤ headLength bound := by
  unfold headLength
  repeat' split
  all_goals omega

/-- A map is one item. -/
theorem Codec.Items.one_map {codec : Codec} (hn : n < indefinite)
    (h : codec.Items (2 * n) items) : codec.Items 1 (codec.map n ++ items) :=
  .map n hn (by simpa using h)

/-! ## Writing into a slice -/

section Put

variable {capacity : Nat}
variable {step : List UInt8 → Except Unit (List UInt8)}

/-- The item is appended, unless the slice is full. -/
def put (capacity : Nat) (item out : List UInt8) : Except Unit (List UInt8) :=
  if out.length + item.length ≤ capacity then .ok (out ++ item) else .error ()

/-- A part that is written only sometimes. -/
def putWhen (present : Bool) (step : List UInt8 → Except Unit (List UInt8)) (out : List UInt8) :
    Except Unit (List UInt8) :=
  if present then step out else .ok out

theorem writes_put (capacity : Nat) (item : List UInt8) :
    Writes () capacity (put capacity item) item True where
  sound := by
    intro out result _ h
    unfold put at h
    split at h
    · next hfits =>
        cases h
        exact ⟨trivial, rfl, by rwa [length_append]⟩
    · cases h
  complete := fun out _ hfits => if_pos hfits
  room := by
    intro out hfits
    rw [put, if_pos hfits]
    simp

theorem writes_bind {step₁ step₂ : List UInt8 → Except Unit (List UInt8)} {bs₁ bs₂ : List UInt8}
    (h₁ : Writes () capacity step₁ bs₁ True) (h₂ : Writes () capacity step₂ bs₂ True) :
    Writes () capacity (fun out => step₁ out >>= step₂) (bs₁ ++ bs₂) True :=
  (h₁.bind h₂).congr (and_self_iff) rfl

theorem writes_putWhen (present : Bool) (h : Writes () capacity step bs True) :
    Writes () capacity (putWhen present step) (if present then bs else []) True := by
  cases present with
  | true => exact h
  | false => exact .nothing () capacity

/-- The whole encoder gives its bytes when they fit. -/
theorem toOption_eq_some (h : Writes () capacity step bs True) (result : List UInt8) :
    (step []).toOption = some result ↔ bs.length ≤ capacity ∧ result = bs := by
  have heq := h.eq_ok_iff result
  rw [true_and] at heq
  rw [← heq]
  cases step [] with
  | ok out => simp [Except.toOption]
  | error e => simp [Except.toOption]

end Put

/-! ## A codec -/

/-- The smallest of the four wider heads that holds `n`. -/
def widthClass (n : Nat) : Nat :=
  if n < 256 then 0 else if n < 65536 then 1 else if n < 4294967296 then 2 else 3

/-- The head of an item: three bits of major type and the argument, in as few bytes as possible. -/
def head (major n : Nat) : List UInt8 :=
  if n < 24 then [UInt8.ofNat (major * 32 + n)]
  else UInt8.ofNat (major * 32 + (24 + widthClass n)) :: toBytes (2 ^ widthClass n) n

def readHead : List UInt8 → Option ((Nat × Nat) × List UInt8)
  | [] => none
  | first :: rest =>
    let major := first.toNat / 32
    let info := first.toNat % 32
    if info < 24 then some ((major, info), rest)
    else if info < 28 then
      let width := 2 ^ (info - 24)
      if width ≤ rest.length then some ((major, ofBytes 0 (rest.take width)), rest.drop width)
      else none
    else none

/-- An item of one major type. -/
def readMajor (major : Nat) (bs : List UInt8) : Option (Nat × List UInt8) :=
  match readHead bs with
  | some ((found, n), rest) => if found = major then some (n, rest) else none
  | none => none

def readString (major : Nat) (bs : List UInt8) : Option (List UInt8 × List UInt8) :=
  match readMajor major bs with
  | some (n, rest) => if n ≤ rest.length then some (rest.take n, rest.drop n) else none
  | none => none

def readInt (bs : List UInt8) : Option (Int × List UInt8) :=
  match readHead bs with
  | some ((major, n), rest) =>
    if 2 ^ 63 ≤ n then none
    else if major = 0 then some (n, rest)
    else if major = 1 then some (-1 - n, rest)
    else none
  | none => none

/-- Skips `pending` items, in at most `fuel` heads. -/
def skipItems : Nat → Nat → List UInt8 → Option (List UInt8)
  | _, 0, bs => some bs
  | 0, _ + 1, _ => none
  | fuel + 1, pending + 1, bs =>
    match readHead bs with
    | none => none
    | some ((major, n), rest) =>
      if major = 2 ∨ major = 3 then
        if n ≤ rest.length then skipItems fuel pending (rest.drop n) else none
      else if major = 4 then skipItems fuel (n + pending) rest
      else if major = 5 then skipItems fuel (2 * n + pending) rest
      else if major = 6 then skipItems fuel (1 + pending) rest
      else skipItems fuel pending rest

/-- Minimal heads, definite lengths. -/
def minimal : Codec where
  uint := head 0
  int i := if 0 ≤ i then head 0 i.toNat else head 1 (-1 - i).toNat
  bytesValue bs := head 2 bs.length ++ bs
  textValue bs := head 3 bs.length ++ bs
  boolean b := [if b then 0xf5 else 0xf4]
  map := head 5
  readHead := readHead
  readUint := readMajor 0
  readInt := readInt
  readBytes := readString 2
  readText := readString 3
  readBoolean
    | 0xf4 :: rest => some (false, rest)
    | 0xf5 :: rest => some (true, rest)
    | _ => none
  skip bs := skipItems bs.length 1 bs

section Minimal

variable {major n : Nat}

theorem widthClass_lt (n : Nat) : widthClass n < 4 := by
  unfold widthClass
  repeat' split
  all_goals decide

theorem lt_widthClass (hn : n < u64Bound) : n < 256 ^ 2 ^ widthClass n := by
  unfold u64Bound at hn
  unfold widthClass
  repeat' split
  all_goals omega

/-- The first byte is the major type and the additional information. -/
theorem first_toNat {info : Nat} (hmajor : major < 8) (hinfo : info < 32) :
    (UInt8.ofNat (major * 32 + info)).toNat / 32 = major ∧ (UInt8.ofNat (major * 32 + info)).toNat %
      32 = info := by
  rw [UInt8.toNat_ofNat']
  omega

theorem readHead_head (hmajor : major < 8) (hn : n < u64Bound) (rest : List UInt8) :
    readHead (head major n ++ rest) = some ((major, n), rest) := by
  unfold head
  split
  · next hsmall =>
      obtain ⟨hdiv, hmod⟩ := first_toNat hmajor (by omega : n < 32)
      rw [cons_append, nil_append, readHead]
      simp only [hdiv, hmod, if_pos hsmall]
  next hlarge =>
    have hclass := widthClass_lt n
    obtain ⟨hdiv, hmod⟩ := first_toNat hmajor (by omega : 24 + widthClass n < 32)
    have hvalue : ofBytes 0 (toBytes (2 ^ widthClass n) n) = n := by
      rw [ofBytes_toBytes, zero_mul, zero_add, mod_eq_of_lt (lt_widthClass hn)]
    rw [cons_append, readHead]
    simp only [hdiv, hmod]
    rw [if_neg (by omega), if_pos (by omega), Nat.add_sub_cancel_left, if_pos (by simp),
      take_left' (length_toBytes _ _), drop_left' (length_toBytes _ _), hvalue]

theorem length_head (major n : Nat) : (head major n).length = headLength n := by
  unfold head headLength widthClass
  split
  · rfl
  · repeat' split
    all_goals simp

theorem readMajor_head (hmajor : major < 8) (hn : n < u64Bound) (rest : List UInt8) :
    readMajor major (head major n ++ rest) = some (n, rest) := by
  rw [readMajor, readHead_head hmajor hn]
  exact if_pos rfl

theorem readString_head (hmajor : major < 8) (hbs : bs.length < u64Bound) (rest : List UInt8) :
    readString major (head major bs.length ++ bs ++ rest) = some (bs, rest) := by
  rw [readString, append_assoc, readMajor_head hmajor hbs]
  show (if bs.length ≤ (bs ++ rest).length then _ else _) = _
  rw [if_pos (by simp), take_left, drop_left]

theorem skipItems_zero (fuel : Nat) (bs : List UInt8) : skipItems fuel 0 bs = some bs := by
  cases fuel <;> rfl

/-- Enough fuel for the heads of the items. -/
theorem skipItems_items {pending : Nat} (h : minimal.Items pending items) :
    ∀ {fuel : Nat} (rest : List UInt8), items.length ≤ fuel →
      skipItems fuel pending (items ++ rest) = some rest := by
  have hnext : ∀ {n fuel : Nat} {bs : List UInt8}, (head 0 n ++ bs).length ≤ fuel + 1 →
      bs.length ≤ fuel := by
    intro n fuel bs hfuel
    have := headLength_pos n
    rw [length_append, length_head] at hfuel
    omega
  have hspent : ∀ {major n : Nat} {bs : List UInt8}, ¬ (head major n ++ bs).length ≤ 0 := by
    intro major n bs hfuel
    have := headLength_pos n
    rw [length_append, length_head] at hfuel
    omega
  induction h with
  | none => exact fun rest _ => skipItems_zero _ _
  | @uint k items n hn _ ih =>
    intro fuel rest hfuel
    cases fuel with
    | zero => exact absurd hfuel hspent
    | succ fuel =>
      rw [append_assoc, skipItems, show minimal.uint n = head 0 n from rfl,
        readHead_head (by decide) hn]
      exact ih rest (hnext hfuel)
  | @bytesValue k items bs hbs _ ih =>
    intro fuel rest hfuel
    cases fuel with
    | zero =>
      have := headLength_pos bs.length
      rw [length_append, show minimal.bytesValue bs = head 2 bs.length ++ bs from rfl,
        length_append, length_head] at hfuel
      omega
    | succ fuel =>
      have hlength := headLength_pos bs.length
      rw [length_append, show minimal.bytesValue bs = head 2 bs.length ++ bs from rfl,
        length_append, length_head] at hfuel
      rw [show minimal.bytesValue bs = head 2 bs.length ++ bs from rfl, append_assoc, append_assoc,
        skipItems, readHead_head (by decide) hbs]
      show (if bs.length ≤ (bs ++ (items ++ rest)).length then
        skipItems fuel k ((bs ++ (items ++ rest)).drop bs.length) else none) = _
      rw [if_pos (by simp), drop_left]
      exact ih rest (by omega)
  | @boolean k items b _ ih =>
    intro fuel rest hfuel
    cases fuel with
    | zero => simp [minimal] at hfuel
    | succ fuel =>
      have hlength : items.length ≤ fuel := by simpa [minimal] using hfuel
      cases b with
      | true => exact ih rest hlength
      | false => exact ih rest hlength
  | @map k items n hn _ ih =>
    intro fuel rest hfuel
    have hbound : n < u64Bound := lt_of_lt_of_le hn (sub_le _ _)
    cases fuel with
    | zero => exact absurd hfuel hspent
    | succ fuel =>
      have hlength := headLength_pos n
      rw [length_append, show minimal.map n = head 5 n from rfl, length_head] at hfuel
      rw [append_assoc, skipItems, show minimal.map n = head 5 n from rfl,
        readHead_head (by decide) hbound]
      exact ih rest (by omega)

theorem minimal_lawful : minimal.Lawful where
  readUint := fun hn rest => readMajor_head (by decide) hn rest
  readInt := by
    intro i hi rest
    show readInt ((if 0 ≤ i then head 0 i.toNat else head 1 (-1 - i).toNat) ++ rest) = _
    have hbound : u64Bound = 2 ^ 64 := rfl
    split
    · next hnonneg =>
        rw [readInt, readHead_head (by decide) (by omega)]
        simp only [if_neg (by omega : ¬ 2 ^ 63 ≤ i.toNat), if_pos, Int.toNat_of_nonneg hnonneg]
    next hneg =>
      rw [readInt, readHead_head (by decide) (by omega)]
      simp only [if_neg (by omega : ¬ 2 ^ 63 ≤ (-1 - i).toNat),
        if_neg (by decide : ¬ 1 = 0), if_pos]
      congr 2
      omega
  readBytes := fun hbs rest => readString_head (by decide) hbs rest
  readText := fun hbs rest => readString_head (by decide) hbs rest
  readBoolean := fun b rest => by cases b <;> rfl
  readHead := fun hn rest => readHead_head (by decide) (lt_of_lt_of_le hn (sub_le _ _)) rest
  skip := by
    intro item h rest
    exact skipItems_items h rest (by rw [length_append]; omega)
  length_uint := fun n => length_head 0 n
  length_bytesValue := by
    intro bs
    show (head 2 bs.length ++ bs).length = _
    rw [length_append, length_head]
  length_textValue := by
    intro bs
    show (head 3 bs.length ++ bs).length = _
    rw [length_append, length_head]
  length_boolean := fun _ => rfl
  length_map := fun n => length_head 5 n

end Minimal

end Cbor
