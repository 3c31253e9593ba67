import QuicLite.Lib.Recognizer
import QuicLite.Lib.BigEndian

/-!
# The header of a request stream

The header of a stream is one CBOR item, found by a recursive scan over the bytes received so far.
The scan is compared with the grammar of items.
-/

namespace QuicLite.Stream

open BigEndian Recognizer Except Nat Cursor
open List hiding count

variable {info count : Nat} {c' : Cursor UInt8}

abbrev Bytes := List UInt8

def maxHeaderBytes : Nat := 4096
def maxDepth : Nat := 24

/-- One more than the greatest `usize`. -/
def usizeLimit : Nat := 2 ^ 64
def u64Limit : Nat := 2 ^ 64

def breakCode : UInt8 := 0xff

def majorOf (initial : UInt8) : Nat := (initial >>> 5).toNat
def infoOf (initial : UInt8) : Nat := (initial &&& 0x1f).toNat

/-! ## The scan -/

/-- Steps over `count` bytes. -/
def take (count : Nat) (c : Cursor UInt8) : Except Scan (Cursor UInt8) :=
  if usizeLimit ≤ c.position + count then .error .bad
  else if c.rest.length < count then .error .more
  else .ok (c.skip count)

/-- The argument of an initial byte, none for an indefinite length. -/
def argument (info : Nat) (c : Cursor UInt8) : Except Scan (Option Nat × Cursor UInt8) :=
  if info ≤ 23 then .ok (some info, c)
  else if info = 31 then .ok (none, c)
  else if info ≤ 27 then (take (2 ^ (info - 24)) c).map fun next =>
    (some (ofBytes 0 (c.rest.take (2 ^ (info - 24)))), next)
  else .error .bad

/-- The major type and the argument. -/
def readHead (c : Cursor UInt8) : Except Scan ((Nat × Option Nat) × Cursor UInt8) :=
  match c.rest with
  | [] => .error .more
  | initial :: rest =>
    (argument (infoOf initial) ⟨c.position + 1, rest⟩).map fun out =>
      ((majorOf initial, out.1), out.2)

/-- A chunk of a string of indefinite length. -/
def isChunk (major : Nat) (initial : UInt8) : Bool :=
  majorOf initial == major && infoOf initial != 31

/-- What follows the head of an item. -/
def scanBody (item : Cursor UInt8 → Step UInt8) (head : Nat × Option Nat) (c : Cursor UInt8) :
    Step UInt8 :=
  match head.1, head.2 with
  | 0, some _ | 1, some _ | 7, some _ => .ok c
  | 2, some length | 3, some length => ⟨0, take length c⟩
  | 2, none | 3, none => untilStop breakCode (isChunk head.1) item (c.rest.length + 1) c
  | 4, some count => times item count c
  | 5, some count => if count * 2 < u64Limit then times item (count * 2) c else .fail .bad
  | 4, none => untilStop breakCode (fun _ => true) item (c.rest.length + 1) c
  | 5, none =>
    untilStop breakCode (fun _ => true) (fun c => (item c).andThen item) (c.rest.length + 1) c
  | 6, some _ => item c
  | _, _ => .fail .bad

/-- `levels` is how many levels of nesting are left. -/
def scanItem : Nat → Cursor UInt8 → Step UInt8
  | 0 => fun _ => ⟨1, .error .bad⟩
  | levels + 1 => headed readHead (scanBody (scanItem levels))

inductive Header where
  | complete (n : Nat)
  | needMore
  | invalid
deriving DecidableEq, Repr

/-- The scan from the start, at depth zero. -/
def scanBytes (bytes : Bytes) : Step UInt8 := scanItem (maxDepth + 1) ⟨0, bytes⟩

def scanHeader (bytes : Bytes) : Header :=
  match (scanBytes bytes).outcome with
  | .ok c => if c.position ≤ maxHeaderBytes then .complete c.position else .invalid
  | .error .more => if bytes.length < maxHeaderBytes then .needMore else .invalid
  | .error .bad => .invalid

/-! ## The grammar -/

/-- The head of an item: its major type and its argument, none for an indefinite length. -/
inductive Head : Nat × Option Nat → Bytes → Prop
  | direct (initial : UInt8) (hinfo : infoOf initial ≤ 23) :
      Head (majorOf initial, some (infoOf initial)) [initial]
  | extended (initial : UInt8) (arg : Bytes) (hmin : 24 ≤ infoOf initial)
      (hmax : infoOf initial ≤ 27) (hlength : arg.length = 2 ^ (infoOf initial - 24)) :
      Head (majorOf initial, some (ofBytes 0 arg)) (initial :: arg)
  | indefinite (initial : UInt8) (hinfo : infoOf initial = 31) :
      Head (majorOf initial, none) [initial]

/-- A string with its length in front. -/
def DefiniteString (major : Nat) (bytes : Bytes) : Prop :=
  ∃ head body, Head (major, some body.length) head ∧ bytes = head ++ body

/-- One item with at most `levels` levels of nesting, its own included. -/
inductive Item : Nat → Bytes → Prop
  | simple {levels major value : Nat} {head : Bytes} (hmajor : major = 0 ∨ major = 1 ∨ major = 7)
      (hhead : Head (major, some value) head) : Item (levels + 1) head
  | string {levels major : Nat} {bytes : Bytes} (hmajor : major = 2 ∨ major = 3)
      (hbytes : DefiniteString major bytes) :
      Item (levels + 1) bytes
  | chunked {levels major : Nat} {head : Bytes} {chunks : List Bytes}
      (hmajor : major = 2 ∨ major = 3) (hhead : Head (major, none) head)
      (hchunks : ∀ chunk ∈ chunks, DefiniteString major chunk)
      (hitems : ∀ chunk ∈ chunks, Item levels chunk) : Item (levels + 1)
      (head ++ chunks.flatten ++ [breakCode])
  | array {levels : Nat} {head : Bytes} {items : List Bytes}
      (hhead : Head (4, some items.length) head) (hitems : ∀ item ∈ items, Item levels item) :
      Item (levels + 1) (head ++ items.flatten)
  | map {levels count : Nat} {head : Bytes} {items : List Bytes} (hhead : Head (5, some count) head)
      (hcount : items.length = count * 2) (hitems : ∀ item ∈ items, Item levels item) :
      Item (levels + 1) (head ++ items.flatten)
  | indefiniteArray {levels : Nat} {head : Bytes} {items : List Bytes} (hhead : Head (4, none) head)
      (hitems : ∀ item ∈ items, Item levels item) : Item (levels + 1)
      (head ++ items.flatten ++ [breakCode])
  | indefiniteMap {levels : Nat} {head : Bytes} {pairs : List (Bytes × Bytes)}
      (hhead : Head (5, none) head) (hkeys : ∀ pair ∈ pairs, Item levels pair.1)
      (hvalues : ∀ pair ∈ pairs, Item levels pair.2) :
      Item (levels + 1) (head ++ (pairs.map fun pair => pair.1 ++ pair.2).flatten ++ [breakCode])
  | tag {levels number : Nat} {head item : Bytes} (hhead : Head (6, some number) head)
      (hitem : Item levels item) :
      Item (levels + 1) (head ++ item)

/-! ## The head -/

theorem argument_extended (hmin : 24 ≤ info) (hmax : info ≤ 27) (c : Cursor UInt8) :
    argument info c =
      (take (2 ^ (info - 24)) c).map fun next =>
        (some (ofBytes 0 (c.rest.take (2 ^ (info - 24)))), next) := by
  rw [argument, if_neg (by omega), if_neg (by omega), if_pos hmax]

theorem argument_reserved (hmin : 28 ≤ info) (hmax : info ≠ 31) (c : Cursor UInt8) :
    argument info c = .error .bad := by
  rw [argument, if_neg (by omega), if_neg hmax, if_neg (by omega)]

/-- The four kinds of additional information. -/
theorem info_cases (info : Nat) :
    info ≤ 23 ∨ (24 ≤ info ∧ info ≤ 27) ∨ info = 31 ∨ (28 ≤ info ∧ info ≠ 31) := by
  omega

theorem take_cases (count : Nat) (c : Cursor UInt8) :
    (usizeLimit ≤ c.position + count ∧ take count c = .error .bad) ∨
      (c.position + count < usizeLimit ∧ c.rest.length < count ∧ take count c = .error .more) ∨
        (c.position + count < usizeLimit ∧ count ≤ c.rest.length ∧
          take count c = .ok (c.skip count)) := by
  unfold take
  split_ifs with hover hshort
  · exact .inl ⟨hover, rfl⟩
  · exact .inr (.inl ⟨Nat.lt_of_not_le hover, hshort, rfl⟩)
  · exact .inr (.inr ⟨Nat.lt_of_not_le hover, Nat.le_of_not_lt hshort, rfl⟩)

variable {c : Cursor UInt8}

theorem take_ok (h : take count c = .ok c') : count ≤ c.rest.length ∧ c' = c.skip count := by
  rcases take_cases count c with ⟨-, hbad⟩ | ⟨-, -, hmore⟩ | ⟨-, hfits, hok⟩
  · cases hbad.symm.trans h
  · cases hmore.symm.trans h
  · exact ⟨hfits, ok.inj (h.symm.trans hok)⟩

theorem take_append {p tail : Bytes} (hrest : c.rest = p ++ tail)
    (hlimit : c.position + p.length < usizeLimit) :
    take p.length c = .ok ⟨c.position + p.length, tail⟩ := by
  rw [take, if_neg (not_le.mpr hlimit), if_neg (by rw [hrest, length_append]; omega), skip, hrest,
    drop_left]

variable (ext : Bytes)

theorem take_extend_ok (h : take count c = .ok c') :
    take count (c.extend ext) = .ok (c'.extend ext) := by
  rcases take_cases count c with ⟨-, hbad⟩ | ⟨-, -, hmore⟩ | ⟨hlimit, hfits, hok⟩
  · cases hbad.symm.trans h
  · cases hmore.symm.trans h
  obtain rfl := ok.inj (h.symm.trans hok)
  show (if usizeLimit ≤ c.position + count then _ else if (c.rest ++ ext).length < count then
    _ else _) = _
  rw [if_neg (not_le.mpr hlimit), if_neg (by rw [length_append]; omega), skip, extend,
    skip, extend, drop_append_of_le_length hfits]

theorem take_extend_bad (h : take count c = .error .bad) :
    take count (c.extend ext) = .error .bad := by
  rcases take_cases count c with ⟨hover, -⟩ | ⟨-, -, hmore⟩ | ⟨-, -, hok⟩
  · exact if_pos hover
  · cases hmore.symm.trans h
  · cases hok.symm.trans h

theorem argument_extend_ok {out : Option Nat × Cursor UInt8} (h : argument info c = .ok out) :
    argument info (c.extend ext) = .ok (out.1, out.2.extend ext) := by
  rcases info_cases info with hdirect | ⟨hmin, hmax⟩ | hindefinite | ⟨hmin, hmax⟩
  · rw [argument, if_pos hdirect] at h ⊢
    cases h
    rfl
  · rw [argument_extended hmin hmax] at h ⊢
    cases htake : take (2 ^ (info - 24)) c with
    | error e =>
      rw [htake] at h
      cases h
    | ok next =>
      rw [htake] at h
      cases h
      have hfits := (take_ok htake).1
      rw [take_extend_ok ext htake, extend, take_append_of_le_length hfits]
      rfl
  · rw [argument, if_neg (by omega), if_pos hindefinite] at h ⊢
    cases h
    rfl
  · rw [argument_reserved hmin hmax] at h
    cases h

theorem argument_extend_bad (h : argument info c = .error .bad) :
    argument info (c.extend ext) = .error .bad := by
  rcases info_cases info with hdirect | ⟨hmin, hmax⟩ | hindefinite | ⟨hmin, hmax⟩
  · rw [argument, if_pos hdirect] at h
    cases h
  · rw [argument_extended hmin hmax] at h ⊢
    cases htake : take (2 ^ (info - 24)) c with
    | error e =>
      rw [htake] at h
      obtain rfl := error.inj h
      rw [take_extend_bad ext htake]
      rfl
    | ok next =>
      rw [htake] at h
      cases h
  · rw [argument, if_neg (by omega), if_pos hindefinite] at h
    cases h
  · exact argument_reserved hmin hmax _

theorem readHead_cons {initial : UInt8} {rest : Bytes} (hrest : c.rest = initial :: rest) :
    readHead c = (argument (infoOf initial) ⟨c.position + 1, rest⟩).map fun out =>
      ((majorOf initial, out.1), out.2) := by
  rw [readHead, hrest]

theorem readHead_reads : Reads usizeLimit readHead Head where
  sound := by
    intro c head c' hok
    cases hrest : c.rest with
    | nil =>
      rw [readHead, hrest] at hok
      cases hok
    | cons initial rest =>
    rw [readHead_cons hrest] at hok
    rcases info_cases (infoOf initial) with hdirect | ⟨hmin, hmax⟩ | hindefinite | ⟨hmin, hmax⟩
    · rw [argument, if_pos hdirect] at hok
      cases hok
      exact ⟨[initial], .direct initial hdirect, cons_ne_nil _ _, rfl, rfl⟩
    · rw [argument_extended hmin hmax] at hok
      cases htake : take (2 ^ (infoOf initial - 24)) ⟨c.position + 1, rest⟩ with
      | error e =>
        rw [htake] at hok
        cases hok
      | ok next =>
      rw [htake] at hok
      cases hok
      obtain ⟨hfits, rfl⟩ := take_ok htake
      have hlength : (rest.take (2 ^ (infoOf initial - 24))).length =
          2 ^ (infoOf initial - 24) :=
        length_take_of_le hfits
      refine ⟨initial :: rest.take (2 ^ (infoOf initial - 24)),
        .extended initial _ hmin hmax hlength, cons_ne_nil _ _, ?_, ?_⟩
      · rw [cons_append, skip, take_append_drop]
      rw [length_cons]
      show c.position + 1 + 2 ^ (infoOf initial - 24) = _
      omega
    · rw [argument, if_neg (by omega), if_pos hindefinite] at hok
      cases hok
      exact ⟨[initial], .indefinite initial hindefinite, cons_ne_nil _ _, rfl, rfl⟩
    · rw [argument_reserved hmin hmax] at hok
      cases hok
  complete := by
    intro c head p tail hhead hrest hlimit
    cases hhead with
    | direct initial hinfo =>
      rw [readHead_cons hrest, argument, if_pos hinfo]
      rfl
    | extended initial arg hmin hmax hlength =>
      rw [length_cons] at hlimit ⊢
      rw [readHead_cons (show c.rest = initial :: (arg ++ tail) from hrest),
        argument_extended hmin hmax, ← hlength]
      have htake := take_append (c := ⟨c.position + 1, arg ++ tail⟩) rfl
        (show c.position + 1 + arg.length < usizeLimit by omega)
      rw [htake, take_left]
      show ok _ = ok _
      rw [add_assoc, add_comm 1]
    | indefinite initial hinfo =>
      rw [readHead_cons hrest, argument, if_neg (by omega), if_pos hinfo]
      rfl
  extend_ok := by
    intro c head c' ext hok
    cases hrest : c.rest with
    | nil =>
      rw [readHead, hrest] at hok
      cases hok
    | cons initial rest =>
    have hrest' : (c.extend ext).rest = initial :: (rest ++ ext) := by
      rw [extend, hrest, cons_append]
    rw [readHead_cons hrest] at hok
    rw [readHead_cons hrest']
    cases harg : argument (infoOf initial) ⟨c.position + 1, rest⟩ with
    | error e =>
      rw [harg] at hok
      cases hok
    | ok out =>
      rw [harg] at hok
      cases hok
      have hext : argument (infoOf initial) ⟨c.position + 1, rest ++ ext⟩ =
          .ok (out.1, out.2.extend ext) :=
        argument_extend_ok ext harg
      exact congrArg _ hext
  extend_bad := by
    intro c ext hbad
    cases hrest : c.rest with
    | nil =>
      rw [readHead, hrest] at hbad
      cases hbad
    | cons initial rest =>
    have hrest' : (c.extend ext).rest = initial :: (rest ++ ext) := by
      rw [extend, hrest, cons_append]
    rw [readHead_cons hrest] at hbad
    rw [readHead_cons hrest']
    cases harg : argument (infoOf initial) ⟨c.position + 1, rest⟩ with
    | error e =>
      rw [harg] at hbad
      obtain rfl := error.inj hbad
      have hext : argument (infoOf initial) ⟨c.position + 1, rest ++ ext⟩ = .error .bad :=
        argument_extend_bad ext harg
      exact congrArg _ hext
    | ok out =>
      rw [harg] at hbad
      cases hbad

end QuicLite.Stream
