import QuicLite.Stream.Scan

/-!
# The scan accepts the grammar

The scan of one level recognizes the items of that level, so the end of a header does not depend on
how the stream was split.
-/

namespace QuicLite.Stream

open BigEndian Recognizer Nat
open List hiding count

/-! ## One level -/

variable {head bytes : Bytes} {n : Nat} {arg : Option Nat} {rest : Bytes} {initial : UInt8}

/-- What may follow the head of an item. -/
def Body (phrase : Bytes → Prop) (head : Nat × Option Nat) : Bytes → Prop :=
  match head.1, head.2 with
  | 0, some _ | 1, some _ | 7, some _ => (· = [])
  | 2, some length | 3, some length => (·.length = length)
  | 2, none | 3, none => UntilStop breakCode (isChunk head.1) phrase
  | 4, some count => Times phrase count
  | 5, some count => Times phrase (count * 2)
  | 4, none => UntilStop breakCode (fun _ => true) phrase
  | 5, none => UntilStop breakCode (fun _ => true) (Seq phrase phrase)
  | 6, some _ => phrase
  | _, _ => fun _ => False

theorem take_recognizes (count : Nat) : Recognizes usizeLimit (fun c => ⟨0, take count c⟩)
    (·.length = count) where
  sound := by
    intro c c' hok
    obtain ⟨hfits, rfl⟩ := take_ok hok
    refine ⟨c.rest.take count, length_take_of_le hfits, (take_append_drop _ _).symm, ?_, zero_le _⟩
    rw [length_take_of_le hfits]
    rfl
  complete := by
    rintro c p tail rfl hrest hlimit
    exact take_append hrest hlimit
  bounded := fun _ => zero_le _
  extend_ok := fun ext hok => take_extend_ok ext hok
  extend_bad := fun ext hbad => take_extend_bad ext hbad

variable {p : Bytes} {phrase : Bytes → Prop}

/-- As many phrases as there are take at least as many bytes. -/
theorem le_length_of_times (hnonempty : ∀ p, phrase p → p ≠ []) (h : Times phrase n p) :
    n ≤ p.length := by
  obtain ⟨parts, rfl, hparts, rfl⟩ := h
  induction parts with
  | nil => exact le_refl _
  | cons part parts ih =>
    have hpos := length_pos_iff.mpr (hnonempty part (hparts part mem_cons_self))
    have hrest := ih (forall_mem_cons.mp hparts).2
    rw [flatten_cons, length_append, length_cons]
    omega

section

variable {item : Cursor UInt8 → Step UInt8} (h : Recognizes usizeLimit item phrase)
  (hnonempty : ∀ p, phrase p → p ≠ [])
include h hnonempty

/-- A map whose count overflows would not fit anyway. -/
theorem map_recognizes (count : Nat) : Recognizes usizeLimit (fun c => if count * 2 < u64Limit then
      times item (count * 2) c else .fail .bad) (Times phrase (count * 2)) := by
  by_cases hcount : count * 2 < u64Limit
  · simp only [if_pos hcount]
    exact h.times (count * 2)
  simp only [if_neg hcount]
  refine ⟨fun hok => (by cases hok), fun {c p tail} hp _ hlimit => ?_, fun hbad =>
    ?_, fun ext hok => ?_, fun _ _ => rfl⟩
  · have hlength := le_length_of_times hnonempty hp
    have hsame : u64Limit = usizeLimit := rfl
    omega
  · exact zero_le _
  · cases hok

theorem scanBody_recognizes (head : Nat × Option Nat) :
    Recognizes usizeLimit (scanBody item head) (Body phrase head) := by
  have hpair : ∀ p, Seq phrase phrase p → p ≠ [] := by
    rintro p ⟨a, b, ha, -, rfl⟩
    exact append_ne_nil_of_left_ne_nil (hnonempty a ha) b
  obtain ⟨major, length⟩ := head
  cases length with
  | some value =>
    rcases major with _ | _ | _ | _ | _ | _ | _ | _ | major
    · exact .empty
    · exact .empty
    · exact take_recognizes value
    · exact take_recognizes value
    · exact h.times value
    · exact map_recognizes h hnonempty value
    · exact h
    · exact .empty
    · exact .none
  | none =>
    rcases major with _ | _ | _ | _ | _ | _ | _ | _ | major
    · exact .none
    · exact .none
    · exact h.untilStop hnonempty
    · exact h.untilStop hnonempty
    · exact h.untilStop hnonempty
    · exact (h.seq h).untilStop hpair
    · exact .none
    · exact .none
    · exact .none

end

/-! ## The grammar level by level -/

variable {major : Nat}

theorem head_first (h : Head (major, arg) head) :
    ∃ initial rest, head = initial :: rest ∧ majorOf initial = major ∧
      (arg = none ↔ infoOf initial = 31) := by
  cases h with
  | direct initial hinfo => exact ⟨initial, [], rfl, rfl, by simp, fun h => by omega⟩
  | extended initial arg hmin hmax hlength =>
    exact ⟨initial, arg, rfl, rfl, by simp, fun h => by omega⟩
  | indefinite initial hinfo => exact ⟨initial, [], rfl, rfl, fun _ => hinfo, fun _ => rfl⟩

/-- The head of an item is not a break code. -/
theorem head_not_break (h : Head (major, arg) head) (hitem : arg ≠ none ∨ major ≠ 7)
    (tail : Bytes) :
    ∃ initial rest, head ++ tail = initial :: rest ∧ initial ≠ breakCode := by
  obtain ⟨initial, rest, rfl, hmajor, harg⟩ := head_first h
  refine ⟨initial, rest ++ tail, rfl, ?_⟩
  rintro rfl
  rcases hitem with hsome | hother
  · exact hsome (harg.mpr (by decide))
  · exact hother (hmajor.symm.trans (by decide))

variable {levels : Nat}

theorem item_first (h : Item levels p) :
    ∃ initial rest, p = initial :: rest ∧ initial ≠ breakCode := by
  cases h with
  | simple hmajor hhead => simpa using head_not_break hhead (.inl (by simp)) []
  | string hmajor hbytes =>
    obtain ⟨head, body, hhead, rfl⟩ := hbytes
    exact head_not_break hhead (.inl (by simp)) body
  | chunked hmajor hhead hchunks hitems =>
    rw [append_assoc]
    exact head_not_break hhead (.inr (by omega)) _
  | array hhead hitems => exact head_not_break hhead (.inl (by simp)) _
  | map hhead hcount hitems => exact head_not_break hhead (.inl (by simp)) _
  | indefiniteArray hhead hitems =>
    rw [append_assoc]
    exact head_not_break hhead (.inr (by decide)) _
  | indefiniteMap hhead hkeys hvalues =>
    rw [append_assoc]
    exact head_not_break hhead (.inr (by decide)) _
  | tag hhead hitem => exact head_not_break hhead (.inl (by simp)) _

theorem item_nonempty (p : Bytes) (h : Item levels p) : p ≠ [] := by
  obtain ⟨initial, rest, rfl, -⟩ := item_first h
  exact cons_ne_nil _ _

/-- A chunk starts with a head of its type and a length. -/
theorem definiteString_first (h : DefiniteString major p) :
    ∃ initial rest, p = initial :: rest ∧ isChunk major initial = true := by
  obtain ⟨head, body, hhead, rfl⟩ := h
  obtain ⟨initial, rest, rfl, hmajor, harg⟩ := head_first hhead
  have hinfo : infoOf initial ≠ 31 := fun h31 => by cases harg.mpr h31
  exact ⟨initial, rest ++ body, rfl, by simp [isChunk, hmajor, hinfo]⟩

/-- The major type and the kind of argument of an item are read off its first byte. -/
theorem head_unique {tail : Bytes} (h : Head (major, arg) head)
    (hsame : head ++ tail = initial :: rest) :
    majorOf initial = major ∧ (arg = none ↔ infoOf initial = 31) := by
  obtain ⟨found, more, rfl, hmajor, harg⟩ := head_first h
  obtain rfl : found = initial := (cons.inj hsame).1
  exact ⟨hmajor, harg⟩

/-- An item that starts as a chunk is a string with its length in front. -/
theorem definiteString_of_item (hmajor : major = 2 ∨ major = 3)
    (hchunk : isChunk major initial = true) (h : Item levels (initial :: rest)) :
    DefiniteString major (initial :: rest) := by
  obtain ⟨hsame, hinfo⟩ : majorOf initial = major ∧ infoOf initial ≠ 31 := by
    simpa [isChunk] using hchunk
  generalize hp : initial :: rest = p at h
  cases h with
  | simple hother hhead =>
    have := (head_unique hhead ((append_nil _).trans hp.symm)).1
    omega
  | string hother hbytes =>
    obtain ⟨head, body, hhead, rfl⟩ := hbytes
    obtain rfl := hsame.symm.trans (head_unique hhead hp.symm).1
    exact ⟨head, body, hhead, rfl⟩
  | chunked hother hhead hchunks hitems =>
    rw [append_assoc] at hp
    exact absurd ((head_unique hhead hp.symm).2.mp rfl) hinfo
  | array hhead hitems =>
    have := (head_unique hhead hp.symm).1
    omega
  | map hhead hcount hitems =>
    have := (head_unique hhead hp.symm).1
    omega
  | indefiniteArray hhead hitems =>
    rw [append_assoc] at hp
    exact absurd ((head_unique hhead hp.symm).2.mp rfl) hinfo
  | indefiniteMap hhead hkeys hvalues =>
    rw [append_assoc] at hp
    exact absurd ((head_unique hhead hp.symm).2.mp rfl) hinfo
  | tag hhead hitem =>
    have := (head_unique hhead hp.symm).1
    omega

/-- The items of a sequence up to the break code. -/
theorem untilStop_of_items {items : List Bytes} (hitems : ∀ item ∈ items, Item levels item) :
    UntilStop breakCode (fun _ => true) (Item levels) (items.flatten ++ [breakCode]) := by
  refine ⟨items, fun item hmem => ⟨hitems item hmem, ?_⟩, rfl⟩
  obtain ⟨initial, rest, heq, hne⟩ := item_first (hitems item hmem)
  exact ⟨initial, rest, heq, hne, rfl⟩

theorem headed_of_item (h : Item (levels + 1) p) : Headed Head (Body (Item levels)) p := by
  cases h with
  | simple hmajor hhead =>
    refine ⟨_, p, [], hhead, ?_, (append_nil p).symm⟩
    rcases hmajor with rfl | rfl | rfl
    all_goals rfl
  | string hmajor hbytes =>
    obtain ⟨head, body, hhead, rfl⟩ := hbytes
    refine ⟨_, head, body, hhead, ?_, rfl⟩
    rcases hmajor with rfl | rfl
    all_goals rfl
  | @chunked _ major head chunks hmajor hhead hchunks hitems =>
    refine ⟨_, head, chunks.flatten ++ [breakCode], hhead, ?_, append_assoc _ _ _⟩
    have hbody : UntilStop breakCode (isChunk major) (Item levels)
        (chunks.flatten ++ [breakCode]) := by
      refine ⟨chunks, fun chunk hmem => ⟨hitems chunk hmem, ?_⟩, rfl⟩
      obtain ⟨initial, rest, rfl, hne⟩ := item_first (hitems chunk hmem)
      obtain ⟨first, more, heq, hchunk⟩ := definiteString_first (hchunks _ hmem)
      obtain ⟨rfl, rfl⟩ := cons.inj heq
      exact ⟨initial, rest, rfl, hne, hchunk⟩
    rcases hmajor with rfl | rfl
    all_goals exact hbody
  | @array _ head items hhead hitems =>
    exact ⟨_, head, items.flatten, hhead, ⟨items, rfl, hitems, rfl⟩, rfl⟩
  | @map _ count head items hhead hcount hitems =>
    exact ⟨_, head, items.flatten, hhead, ⟨items, hcount, hitems, rfl⟩, rfl⟩
  | @indefiniteArray _ head items hhead hitems =>
    exact ⟨_, head, _, hhead, untilStop_of_items hitems, append_assoc _ _ _⟩
  | @indefiniteMap _ head pairs hhead hkeys hvalues =>
    refine ⟨_, head, _, hhead, ⟨pairs.map fun pair => pair.1 ++ pair.2, fun part hmem => ?_, rfl⟩,
      append_assoc _ _ _⟩
    obtain ⟨pair, hpair, rfl⟩ := mem_map.mp hmem
    obtain ⟨initial, rest, heq, hne⟩ := item_first (hkeys pair hpair)
    exact ⟨⟨pair.1, pair.2, hkeys pair hpair, hvalues pair hpair, rfl⟩, initial, rest ++ pair.2, by
      rw [heq, cons_append], hne, rfl⟩
  | @tag _ number head item hhead hitem => exact ⟨_, head, item, hhead, hitem, rfl⟩

/-- Parts that are pairs of items come from a list of pairs. -/
theorem exists_pairs {parts : List Bytes}
    (hparts : ∀ part ∈ parts, Seq (Item levels) (Item levels) part) :
    ∃ pairs : List (Bytes × Bytes), (∀ pair ∈ pairs, Item levels pair.1) ∧
      (∀ pair ∈ pairs, Item levels pair.2) ∧
      parts = pairs.map fun pair => pair.1 ++ pair.2 := by
  induction parts with
  | nil => exact ⟨[], fun _ h => (by cases h), fun _ h => (by cases h), rfl⟩
  | cons part parts ih =>
    obtain ⟨key, value, hkey, hvalue, rfl⟩ := hparts part mem_cons_self
    obtain ⟨pairs, hkeys, hvalues, rfl⟩ := ih (forall_mem_cons.mp hparts).2
    refine ⟨(key, value) :: pairs, fun pair hmem => ?_, fun pair hmem => ?_, rfl⟩
    · rcases mem_cons.mp hmem with rfl | hold
      · exact hkey
      · exact hkeys pair hold
    rcases mem_cons.mp hmem with rfl | hold
    · exact hvalue
    · exact hvalues pair hold

/-- A chunked string from its parts. -/
theorem chunked_of_untilStop {body : Bytes} (hmajor : major = 2 ∨ major = 3)
    (hhead : Head (major, none) head)
    (hbody : UntilStop breakCode (isChunk major) (Item levels) body) :
    Item (levels + 1) (head ++ body) := by
  obtain ⟨chunks, hchunks, rfl⟩ := hbody
  rw [← append_assoc]
  refine .chunked hmajor hhead (fun chunk hmem => ?_) fun chunk hmem => (hchunks chunk hmem).1
  obtain ⟨hitem, initial, rest, rfl, -, hchunk⟩ := hchunks chunk hmem
  exact definiteString_of_item hmajor hchunk hitem

theorem item_of_headed (h : Headed Head (Body (Item levels)) p) : Item (levels + 1) p := by
  obtain ⟨⟨major, arg⟩, head, body, hhead, hbody, rfl⟩ := h
  cases arg with
  | some value =>
    rcases major with _ | _ | _ | _ | _ | _ | _ | _ | major
    · obtain rfl : body = [] := hbody
      rw [append_nil]
      exact .simple (.inl rfl) hhead
    · obtain rfl : body = [] := hbody
      rw [append_nil]
      exact .simple (.inr (.inl rfl)) hhead
    · obtain rfl : body.length = value := hbody
      exact .string (.inl rfl) ⟨head, body, hhead, rfl⟩
    · obtain rfl : body.length = value := hbody
      exact .string (.inr rfl) ⟨head, body, hhead, rfl⟩
    · obtain ⟨items, rfl, hitems, rfl⟩ : Times (Item levels) value body := hbody
      exact .array hhead hitems
    · obtain ⟨items, hcount, hitems, rfl⟩ : Times (Item levels) (value * 2) body := hbody
      exact .map hhead hcount hitems
    · exact .tag hhead hbody
    · obtain rfl : body = [] := hbody
      rw [append_nil]
      exact .simple (.inr (.inr rfl)) hhead
    · exact hbody.elim
  | none =>
    rcases major with _ | _ | _ | _ | _ | _ | _ | _ | major
    · exact hbody.elim
    · exact hbody.elim
    · exact chunked_of_untilStop (.inl rfl) hhead hbody
    · exact chunked_of_untilStop (.inr rfl) hhead hbody
    · obtain ⟨items, hitems, rfl⟩ : UntilStop breakCode (fun _ => true) (Item levels) body := hbody
      rw [← append_assoc]
      exact .indefiniteArray hhead fun item hmem => (hitems item hmem).1
    · obtain ⟨parts, hparts, rfl⟩ :
          UntilStop breakCode (fun _ => true) (Seq (Item levels) (Item levels)) body := hbody
      obtain ⟨pairs, hkeys, hvalues, rfl⟩ := exists_pairs fun part hmem => (hparts part hmem).1
      rw [← append_assoc]
      exact .indefiniteMap hhead hkeys hvalues
    · exact hbody.elim
    · exact hbody.elim
    · exact hbody.elim

/-- The scan of a level recognizes the items of that level. -/
theorem scanItem_recognizes (levels : Nat) : Recognizes usizeLimit (scanItem levels)
    (Item levels) := by
  induction levels with
  | zero =>
    refine ⟨fun hok => (by cases hok), fun hitem => (by cases hitem), fun _ => le_add_left 1 _,
      fun _ hok => ?_, fun _ _ => rfl⟩
    cases hok
  | succ levels ih =>
    exact (Recognizes.headed readHead_reads (scanBody_recognizes ih item_nonempty)).congr fun p =>
      ⟨item_of_headed, headed_of_item⟩

/-! ## Rows of items -/

theorem item_succ (h : Item levels p) : Item (levels + 1) p := by
  induction h with
  | simple hmajor hhead => exact .simple hmajor hhead
  | string hmajor hbytes => exact .string hmajor hbytes
  | chunked hmajor hhead hchunks _ ih => exact .chunked hmajor hhead hchunks ih
  | array hhead _ ih => exact .array hhead ih
  | map hhead hcount _ ih => exact .map hhead hcount ih
  | indefiniteArray hhead _ ih => exact .indefiniteArray hhead ih
  | indefiniteMap hhead _ _ ihkeys ihvalues => exact .indefiniteMap hhead ihkeys ihvalues
  | tag hhead _ ih => exact .tag hhead ih

theorem item_mono {levels' : Nat} (hle : levels ≤ levels') (h : Item levels p) :
    Item levels' p := by
  induction hle with
  | refl => exact h
  | step _ ih => exact item_succ ih

theorem head_length {head : Nat × Option Nat} (h : Head head p) : p.length ≤ 9 := by
  cases h with
  | direct initial hinfo => exact Nat.le_add_left 1 8
  | extended initial arg hmin hmax hlength =>
    have hwidth : 2 ^ (infoOf initial - 24) ≤ 2 ^ 3 := Nat.pow_le_pow_right (by decide) (by omega)
    rw [length_cons]
    omega
  | indefinite initial hinfo => exact le_add_left 1 8

/-- The input says which head it starts with. -/
theorem head_inj {head head' : Nat × Option Nat} {x x' r r' : Bytes} (h : Head head x)
    (h' : Head head' x') (heq : x ++ r = x' ++ r') : head = head' ∧ x = x' := by
  have hlimit : 9 < usizeLimit := by decide
  have hlength := head_length h
  have hlength' := head_length h'
  have hread := readHead_reads.complete (c := ⟨0, x ++ r⟩) h rfl (by simp only; omega)
  have hread' := readHead_reads.complete (c := ⟨0, x ++ r⟩) h' heq (by simp only; omega)
  have hsame := Except.ok.inj (hread.symm.trans hread')
  have hposition : 0 + x.length = 0 + x'.length := congrArg (·.2.position) hsame
  exact ⟨congrArg Prod.fst hsame, (append_inj heq (by omega)).1⟩

theorem body_prefixFree (h : PrefixFree phrase) (head : Nat × Option Nat) :
    PrefixFree (Body phrase head) := by
  obtain ⟨major, length⟩ := head
  cases length with
  | some value =>
    rcases major with _ | _ | _ | _ | _ | _ | _ | _ | major
    · exact .empty
    · exact .empty
    · exact .ofLength value
    · exact .ofLength value
    · exact h.times value
    · exact h.times (value * 2)
    · exact h
    · exact .empty
    · exact .none
  | none =>
    rcases major with _ | _ | _ | _ | _ | _ | _ | _ | major
    · exact .none
    · exact .none
    · exact h.untilStop
    · exact h.untilStop
    · exact h.untilStop
    · exact (h.seq h).untilStop
    · exact .none
    · exact .none
    · exact .none

theorem item_prefixFree (levels : Nat) : PrefixFree (Item levels) := by
  induction levels with
  | zero => exact fun _ _ _ _ h => by cases h
  | succ levels ih => exact (PrefixFree.headed head_inj (body_prefixFree ih)).congr fun p =>
    headed_of_item

/-- An item, however deep. -/
def IsItem (p : Bytes) : Prop := ∃ levels, Item levels p

theorem isItem_prefixFree : PrefixFree IsItem := by
  rintro p q x y ⟨levels, hp⟩ ⟨levels', hq⟩ heq
  exact item_prefixFree (max levels levels') (item_mono (le_max_left _ _) hp)
    (item_mono (le_max_right _ _) hq) heq

theorem isItem_nonempty (p : Bytes) (h : IsItem p) : p ≠ [] :=
  h.elim fun _ hitem => item_nonempty p hitem

/-! ## The result -/

/-- A header: one item that is not too long. -/
def IsHeader (p : Bytes) : Prop := Item (maxDepth + 1) p ∧ p.length ≤ maxHeaderBytes

theorem scanBytes_of_isHeader (h : IsHeader p) (tail : Bytes) :
    (scanBytes (p ++ tail)).outcome = .ok ⟨p.length, tail⟩ := by
  have hlimit : 0 + p.length < usizeLimit := by
    have hshort := h.2
    have hlimits : maxHeaderBytes < usizeLimit := by decide
    omega
  have hok := (scanItem_recognizes (maxDepth + 1)).complete (c := ⟨0, p ++ tail⟩) h.1 rfl hlimit
  rwa [zero_add] at hok

theorem scanHeader_complete_iff :
    scanHeader bytes = .complete n ↔ n ≤ bytes.length ∧ IsHeader (bytes.take n) := by
  constructor
  · intro h
    rw [scanHeader] at h
    split at h
    · next c hok =>
        split_ifs at h with hshort
        obtain rfl := Header.complete.inj h
        obtain ⟨p, hp, hrest, hposition, -⟩ := (scanItem_recognizes (maxDepth + 1)).sound hok
        have hlength : c.position = p.length := hposition.trans (zero_add _)
        have hbytes : bytes = p ++ c.rest := hrest
        rw [hlength] at hshort ⊢
        rw [hbytes, take_left, length_append]
        exact ⟨le_add_right _ _, hp, hshort⟩
    · split_ifs at h
    · cases h
  · rintro ⟨hle, hheader⟩
    have hok := scanBytes_of_isHeader hheader (bytes.drop n)
    have hlength : (bytes.take n).length = n := length_take_of_le hle
    rw [take_append_drop, hlength] at hok
    have hshort : n ≤ maxHeaderBytes := hlength ▸ hheader.2
    simp only [scanHeader, hok, if_pos hshort]

theorem scanHeader_append (h : scanHeader bytes = .complete n) (ext : Bytes) :
    scanHeader (bytes ++ ext) = .complete n := by
  obtain ⟨hle, hheader⟩ := scanHeader_complete_iff.mp h
  refine scanHeader_complete_iff.mpr ⟨?_, ?_⟩
  · rw [length_append]
    omega
  · rwa [take_append_of_le_length hle]

/-- A proper start of a header asks for more. -/
theorem scanHeader_needMore {ext : Bytes} (h : IsHeader (bytes ++ ext)) (hext : ext ≠ []) :
    scanHeader bytes = .needMore := by
  have hwhole := scanBytes_of_isHeader h []
  rw [append_nil] at hwhole
  have hpos := length_pos_iff.mpr hext
  have hlength := h.2
  rw [length_append] at hlength hwhole
  rw [scanHeader]
  split
  · next c hok =>
      have hgrown := (scanItem_recognizes (maxDepth + 1)).extend_ok ext hok
      have hsame := congrArg Cursor.rest (Except.ok.inj (hgrown.symm.trans hwhole))
      have hnil : ext = [] := (append_eq_nil_iff.mp hsame).2
      exact absurd hnil hext
  · rw [if_pos (by omega)]
  · next hbad => cases ((scanItem_recognizes (maxDepth + 1)).extend_bad ext hbad).symm.trans hwhole

theorem scanHeader_invalid (h : scanHeader bytes = .invalid) (ext : Bytes) :
    scanHeader (bytes ++ ext) = .invalid := by
  cases hgrown : scanHeader (bytes ++ ext) with
  | invalid => rfl
  | complete n =>
    -- The end that was found lies beyond what could be seen before.
    obtain ⟨hle, hheader⟩ := scanHeader_complete_iff.mp hgrown
    rcases lt_or_ge bytes.length n with hbeyond | hwithin
    · have hsplit : (bytes ++ ext).take n = bytes ++ ext.take (n - bytes.length) := by
        rw [List.take_append, List.take_of_length_le (le_of_lt hbeyond)]
      have hne : ext.take (n - bytes.length) ≠ [] := by
        intro hnil
        have hlength := congrArg length hsplit
        rw [hnil, append_nil, length_take_of_le hle] at hlength
        omega
      cases (scanHeader_needMore (hsplit ▸ hheader) hne).symm.trans h
    · rw [take_append_of_le_length hwithin] at hheader
      cases (scanHeader_complete_iff.mpr ⟨hwithin, hheader⟩).symm.trans h
  | needMore =>
    rw [scanHeader] at h hgrown
    split at h
    · next c hok =>
        have hlater := (scanItem_recognizes (maxDepth + 1)).extend_ok ext hok
        rw [show (scanBytes (bytes ++ ext)).outcome = _ from hlater] at hgrown
        dsimp only at hgrown
        split_ifs at hgrown
    · split_ifs at h with hshort
      split at hgrown
      · split_ifs at hgrown
      · split_ifs at hgrown with hshort'
        rw [length_append] at hshort'
        omega
      · cases hgrown
    · next hbad =>
        have hlater := (scanItem_recognizes (maxDepth + 1)).extend_bad ext hbad
        rw [show (scanBytes (bytes ++ ext)).outcome = _ from hlater] at hgrown
        cases hgrown

/-- The number of calls is bounded by the input, whatever the counts in it say. -/
theorem scanBytes_calls (bytes : Bytes) : (scanBytes bytes).calls ≤ bytes.length + 1 := by
  cases hout : (scanBytes bytes).outcome with
  | error e => exact (scanItem_recognizes (maxDepth + 1)).bounded hout
  | ok c =>
    obtain ⟨p, -, hrest, -, hcalls⟩ := (scanItem_recognizes (maxDepth + 1)).sound hout
    have hlength : bytes.length = p.length + c.rest.length := by
      rw [show bytes = p ++ c.rest from hrest, length_append]
    have : (scanBytes bytes).calls ≤ p.length := hcalls
    omega

/-- The end of the header is exact, is found as soon as it is there, and stays. -/
structure Delimits (bytes : Bytes) : Prop where
  complete : ∀ n, scanHeader bytes = .complete n ↔ n ≤ bytes.length ∧ IsHeader (bytes.take n)
  needMore : ∀ ext, ext ≠ [] → IsHeader (bytes ++ ext) → scanHeader bytes = .needMore
  grown : ∀ body, IsHeader bytes → ∀ n,
    scanHeader ((bytes ++ body).take n) = if n < bytes.length then
      .needMore else .complete bytes.length
  invalid : scanHeader bytes = .invalid → ∀ ext, scanHeader (bytes ++ ext) = .invalid
  calls : (scanBytes bytes).calls ≤ bytes.length + 1

theorem scanHeader_delimits (bytes : Bytes) : Delimits bytes where
  complete := fun _ => scanHeader_complete_iff
  needMore := fun _ hext h => scanHeader_needMore h hext
  grown := by
    intro body h n
    split_ifs with hn
    · have hsplit : bytes.take n ++ bytes.drop n = bytes := take_append_drop n bytes
      rw [take_append_of_le_length (le_of_lt hn)]
      refine scanHeader_needMore (hsplit.symm ▸ h) fun hnil => ?_
      rw [drop_eq_nil_iff] at hnil
      omega
    refine scanHeader_complete_iff.mpr ⟨?_, ?_⟩
    · rw [length_take, length_append]
      omega
    · rwa [take_take, Nat.min_eq_left (Nat.le_of_not_lt hn), take_left]
  invalid := fun h ext => scanHeader_invalid h ext
  calls := scanBytes_calls bytes

/-- A map of one entry, and an array that declares more elements than there are bytes. -/
example : scanHeader [0xa1, 0x61, 0x6d, 0x82, 1, 2, 7] = .complete 6 := by decide
example : (scanBytes [0x9b, 0xff, 0xff, 0xff, 0xff, 0xff, 0xff, 0xff, 0xff, 1, 2]).calls = 4 := by
  decide

end QuicLite.Stream
