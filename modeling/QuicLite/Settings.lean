import Mathlib.Data.Char
import Mathlib.Data.List.DropRight
import Mathlib.Data.List.Lex
import Mathlib.Data.List.Sort
import QuicLite.Lib.Table

/-!
# File settings

`FileSettings` keeps the common settings in a text of `key=value` lines, which every call reads
again and `set_str` writes anew. Reading trims keys and values, so a value that begins or ends with
white space comes back changed; every other value comes back as it was.
-/

namespace QuicLite.Settings

open List

variable {key value : Text} {entry : Sigma fun _ : Text => Text}

abbrev Text := List Char

/-! ## Text -/

/-- The Unicode property `White_Space`, which `str::trim` uses. -/
def isWhitespace (c : Char) : Bool :=
  (9 ≤ c.toNat && c.toNat ≤ 13) || (0x2000 ≤ c.toNat && c.toNat ≤ 0x200a) ||
    [0x20, 0x85, 0xa0, 0x1680, 0x2028, 0x2029, 0x202f, 0x205f, 0x3000].contains c.toNat

def trim (text : Text) : Text :=
  (text.rdropWhile isWhitespace).dropWhile isWhitespace

/-- `str::lines`. The carriage return of a CRLF ending stays on the line: the reader trims it
off. -/
def lines : Text → List Text
  | [] => []
  | c :: rest =>
    if c = '\n' then [] :: lines rest
    else match lines rest with
      | [] => [[c]]
      | line :: others => (c :: line) :: others

/-- `line.split_once('=')` -/
def splitOnce (line : Text) : Option (Text × Text) :=
  match line.dropWhile (· ≠ '=') with
  | [] => none
  | _ :: value => some (line.takeWhile (· ≠ '='), value)

theorem trim_trim (text : Text) : trim (trim text) = trim text := by
  have hend : (trim text).rdropWhile isWhitespace = trim text := by
    rw [rdropWhile_eq_self_iff]
    intro hne
    have hsuffix : trim text <:+ text.rdropWhile isWhitespace := dropWhile_suffix _
    rw [hsuffix.getLast hne]
    exact rdropWhile_last_not _ _ _
  rw [trim, hend]
  exact dropWhile_idempotent ..

theorem lines_append {line : Text} (h : '\n' ∉ line) (rest : Text) :
    lines (line ++ '\n' :: rest) = line :: lines rest := by
  induction line with
  | nil => simp [lines]
  | cons c line ih =>
    rw [mem_cons, not_or] at h
    rw [cons_append, lines, if_neg (Ne.symm h.1), ih h.2]

/-! ## The settings file -/

def COMMON_SETTING_KEYS : List Text :=
  [['m', 'o', 'd', 'e'], ['n', 'a', 'm', 'e'], ['d', 'o', 'm', 'a', 'i', 'n'],
    ['s', 't', 'a', '_', 's', 's', 'i', 'd'], ['s', 't', 'a', '_', 's', 'e', 'r', 'v', 'e', 'r',
    '_', 'l', 'l'], ['s', 't', 'a', '_', 's', 'e', 'r', 'v', 'e', 'r', '_', 'p', 'o', 'r', 't']]

/-- The key is common and the value has no line break. -/
def Accepted (key value : Text) : Prop :=
  key ∈ COMMON_SETTING_KEYS ∧ '\n' ∉ value ∧ '\r' ∉ value

instance (key value : Text) : Decidable (Accepted key value) :=
  inferInstanceAs (Decidable (_ ∧ _))

abbrev Values := AList fun _ : Text => Text

def readLine (values : Values) (line : Text) : Values :=
  if trim line = [] ∨ (trim line).head? = some '#' then values
  else match splitOnce (trim line) with
    | none => values
    | some (key, value) =>
      if Accepted (trim key) (trim value) then values.insert (trim key) (trim value) else values

/-- `read_values`. A missing file has no values. -/
def readValues : Option Text → Values
  | none => ∅
  | some source => (lines source).foldl readLine ∅

def line (entry : Sigma fun _ : Text => Text) : Text :=
  entry.1 ++ '=' :: entry.2

def header : Text :=
  ['#', ' ', 'D', 'M', 'e', 's', 'h', ' ', 'c', 'o', 'm', 'm', 'o', 'n', ' ', 's', 'e', 't', 't',
    'i', 'n', 'g', 's']

/-- The content that `set_str` writes: a `BTreeMap` is read in the order of its keys. -/
def content (values : Values) : Text :=
  (header :: (values.entries.insertionSort fun a b => a.1 ≤ b.1).map line).flatMap (· ++ ['\n'])

def getStr (file : Option Text) (key : Text) : Except String (Option Text) :=
  if key ∉ COMMON_SETTING_KEYS then .error "unknown setting" else .ok ((readValues file).lookup key)

def setStr (file : Option Text) (key value : Text) : Except String Text :=
  if ¬ Accepted key value then .error "invalid setting"
  else .ok (content ((readValues file).insert key value))

def listFrom (file : Option Text) :
    List Text → List (Text × Text) → Except String (List (Text × Text))
  | [], values => .ok values
  | key :: keys, values => do
    match ← getStr file key with
    | some value => listFrom file keys (values ++ [(key, value)])
    | none => listFrom file keys values

/-- `SettingsHandler::list` -/
def list (file : Option Text) : Except String (List (Text × Text)) :=
  listFrom file COMMON_SETTING_KEYS []

/-- The file after a call of `set_str`. -/
def set (file : Option Text) (call : Text × Text) : Option Text :=
  match setStr file call.1 call.2 with
  | .ok text => some text
  | .error _ => file

/-! ## Reading what was written -/

theorem trim_line (h : entry.1 ∈ COMMON_SETTING_KEYS) :
    trim (line entry) = entry.1 ++ '=' :: entry.2.rdropWhile isWhitespace := by
  have hend : (line entry).rdropWhile isWhitespace = entry.1 ++ '=' ::
      entry.2.rdropWhile isWhitespace := by
    unfold line rdropWhile
    rw [reverse_append, reverse_cons, append_assoc, dropWhile_append]
    split
    · next hnil => simp [isEmpty_iff.mp hnil, show isWhitespace '=' = false from rfl]
    · simp
  rw [trim, hend]
  have hkeys : ∀ key ∈ COMMON_SETTING_KEYS, ∀ rest, (key ++ rest).dropWhile isWhitespace = key ++
      rest := by
    simp [COMMON_SETTING_KEYS, isWhitespace]
  exact hkeys _ h _

theorem readLine_line (values : Values) (h : Accepted entry.1 entry.2) :
    readLine values (line entry) = values.insert entry.1 (trim entry.2) := by
  have hsplit : ∀ key ∈ COMMON_SETTING_KEYS, ∀ value,
      splitOnce (key ++ '=' :: value) = some (key, value) ∧
        ¬ (key ++ '=' :: value = [] ∨ (key ++ '=' :: value).head? = some '#') := by
    simp [COMMON_SETTING_KEYS, splitOnce]
  have htrim : ∀ key ∈ COMMON_SETTING_KEYS, trim key = key := by decide
  obtain ⟨hsome, hhead⟩ := hsplit _ h.1 (entry.2.rdropWhile isWhitespace)
  have hvalue : trim (entry.2.rdropWhile isWhitespace) = trim entry.2 := by
    rw [trim, rdropWhile_idempotent, trim]
  have hsub : ∀ c, c ∉ entry.2 → c ∉ trim entry.2 := by
    intro c hc hmem
    exact hc (( rdropWhile_prefix ..).subset ((dropWhile_suffix _).subset hmem))
  have haccepted : Accepted entry.1 (trim entry.2) := ⟨h.1, hsub _ h.2.1, hsub _ h.2.2⟩
  rw [readLine, trim_line h.1]
  simp only [if_neg hhead, hsome, htrim _ h.1, hvalue, if_pos haccepted]

theorem lookup_lines {entries : List (Sigma fun _ : Text => Text)} (hk : entries.NodupKeys)
    (ha : ∀ entry ∈ entries, Accepted entry.1 entry.2) (values : Values) (key : Text) :
    ((entries.map line).foldl readLine values).lookup key = ((entries.dlookup key).map trim).or
      (values.lookup key) := by
  induction entries generalizing values with
  | nil => simp
  | cons entry entries ih =>
    rw [nodupKeys_cons] at hk
    rw [forall_mem_cons] at ha
    rw [map_cons, foldl_cons, readLine_line values ha.1, ih hk.2 ha.2]
    by_cases hkey : key = entry.1
    · subst hkey
      rw [dlookup_eq_none.mpr hk.1, AList.lookup_insert, dlookup_cons_eq]
      rfl
    · rw [AList.lookup_insert_ne hkey, dlookup_cons_ne _ _ hkey]

theorem lines_content {texts : List Text} (h : ∀ text ∈ texts, '\n' ∉ text) :
    lines (texts.flatMap (· ++ ['\n'])) = texts := by
  induction texts with
  | nil => rfl
  | cons text texts ih =>
    rw [forall_mem_cons] at h
    rw [flatMap_cons, append_assoc, singleton_append, lines_append h.1, ih h.2]

theorem lookup_readValues_content {values : Values}
    (h : ∀ key value, values.lookup key = some value → Accepted key value) (key : Text) :
    (readValues (some (content values))).lookup key = (values.lookup key).map trim := by
  have hperm := perm_insertionSort (fun a b => a.1 ≤ b.1) values.entries
  have hnodup : (values.entries.insertionSort fun a b => a.1 ≤ b.1).NodupKeys :=
    (perm_nodupKeys hperm).mpr values.nodupKeys
  have haccepted : ∀ entry ∈ values.entries.insertionSort fun a b => a.1 ≤ b.1,
      Accepted entry.1 entry.2 := by
    intro entry hmem
    exact h _ _ (AList.mem_lookup_iff.mpr (hperm.mem_iff.mp hmem))
  have hbreaks : ∀ text ∈ header :: (values.entries.insertionSort fun a b => a.1 ≤ b.1).map line,
      '\n' ∉ text := by
    intro text hmem
    rw [mem_cons, mem_map] at hmem
    rcases hmem with rfl | ⟨entry, hentry, rfl⟩
    · decide
    have hkeys : ∀ key ∈ COMMON_SETTING_KEYS, '\n' ∉ key := by decide
    obtain ⟨hkey, hvalue, _⟩ := haccepted entry hentry
    simp [line, hkeys _ hkey, hvalue]
  rw [readValues, content, lines_content hbreaks, foldl_cons, show readLine ∅ header = ∅ from rfl,
    lookup_lines hnodup haccepted, perm_dlookup _ hnodup hperm]
  simp [AList.lookup]

variable (file : Option Text)

/-- What is read is accepted and trimmed. -/
theorem readValues_settled
    (h : (readValues file).lookup key = some value) : Accepted key value ∧ trim value = value := by
  cases file with
  | none => simp [readValues] at h
  | some source =>
  suffices hfold : ∀ (texts : List Text) (values : Values),
      (∀ key value, values.lookup key = some value → Accepted key value ∧ trim value = value) →
      ∀ key value, (texts.foldl readLine values).lookup key = some value →
        Accepted key value ∧ trim value = value from
    hfold _ ∅ (by simp) key value h
  intro texts
  induction texts with
  | nil => exact fun values hvalues => hvalues
  | cons text texts ih =>
    intro values hvalues
    refine ih _ ?_
    intro key value hread
    unfold readLine at hread
    split at hread
    · exact hvalues _ _ hread
    split at hread
    · exact hvalues _ _ hread
    split at hread
    · next haccepted =>
      rcases Table.lookup_insert_cases hread with ⟨rfl, rfl⟩ | ⟨_, hold⟩
      · exact ⟨haccepted, trim_trim _⟩
      · exact hvalues _ _ hold
    · exact hvalues _ _ hread

theorem lookup_set {file : Option Text} (h : Accepted key value) (other : Text) :
    (readValues (set file (key, value))).lookup other =
      if other = key then some (trim value) else (readValues file).lookup other := by
  have hset : set file (key, value) = some (content ((readValues file).insert key value)) := by
    simp [set, setStr, h]
  have haccepted : ∀ k v, ((readValues file).insert key value).lookup k = some v →
      Accepted k v := by
    intro k v hv
    rcases Table.lookup_insert_cases hv with ⟨rfl, rfl⟩ | ⟨_, hold⟩
    · exact h
    · exact (readValues_settled file hold).1
  rw [hset, lookup_readValues_content haccepted]
  split
  · next heq => rw [heq, AList.lookup_insert]; rfl
  next hne =>
  rw [AList.lookup_insert_ne hne]
  cases hv : (readValues file).lookup other with
  | none => rfl
  | some old => rw [Option.map_some, (readValues_settled file hv).2]

/-! ## Runs of calls -/

/-- What a map does at a successful `set_str`. -/
structure Stores (before : Option Text) (call : Text × Text) (after : Option Text) : Prop where
  stored : getStr after call.1 = .ok (some call.2)
  others : ∀ other, other ≠ call.1 → getStr after other = getStr before other
  listed : ∃ pairs, list after = .ok pairs ∧ pairs.Nodup ∧
    ∀ key value, (key, value) ∈ pairs ↔ getStr after key = .ok (some value)

/-- A call stores its value as a map does, or is refused and changes nothing. -/
def Behaves (file : Option Text) (call : Text × Text) : Prop :=
  (∃ text, setStr file call.1 call.2 = .ok text ∧ Stores file call (set file call)) ∨
    (∃ error, setStr file call.1 call.2 = .error error ∧ set file call = file)

theorem getStr_eq_ok {file : Option Text} {found : Option Text} : getStr file key = .ok found ↔
      key ∈ COMMON_SETTING_KEYS ∧ (readValues file).lookup key = found := by
  unfold getStr
  split <;> simp_all

theorem listFrom_eq {keys : List Text} (h : keys ⊆ COMMON_SETTING_KEYS)
    (values : List (Text × Text)) : listFrom file keys values =
      .ok (values ++ keys.filterMap fun key => ((readValues file).lookup key).map (key, ·)) := by
  induction keys generalizing values with
  | nil => simp [listFrom]
  | cons key keys ih =>
    rw [cons_subset] at h
    rw [listFrom, getStr_eq_ok.mpr ⟨h.1, rfl⟩]
    cases hv : (readValues file).lookup key with
    | none => exact (ih h.2 values).trans (by simp [hv])
    | some value => exact (ih h.2 (values ++ [(key, value)])).trans (by simp [hv])

theorem list_eq : list file = .ok (COMMON_SETTING_KEYS.filterMap fun key =>
      ((readValues file).lookup key).map (key, ·)) :=
  listFrom_eq file (.refl _) []

theorem list_spec : ∃ pairs, list file = .ok pairs ∧ pairs.Nodup ∧
    ∀ key value, (key, value) ∈ pairs ↔ getStr file key = .ok (some value) := by
  refine ⟨_, list_eq file, ?_, ?_⟩
  · refine .filterMap ?_ (by decide)
    intro a b pair ha hb
    simp at ha hb
    grind
  intro key value
  rw [getStr_eq_ok]
  simp

theorem behaves_iff (call : Text × Text) :
    Behaves file call ↔ (Accepted call.1 call.2 → trim call.2 = call.2) := by
  by_cases h : Accepted call.1 call.2
  · have hok : setStr file call.1 call.2 =
        .ok (content ((readValues file).insert call.1 call.2)) := by
      simp [setStr, h]
    have hget : getStr (set file call) call.1 = .ok (some (trim call.2)) := by
      rw [getStr_eq_ok, lookup_set h, if_pos rfl]
      exact ⟨h.1, rfl⟩
    constructor
    · rintro (⟨_, _, hstores⟩ | ⟨_, herror, _⟩) _
      · have hstored := hstores.stored
        rw [hget] at hstored
        exact Option.some.inj (Except.ok.inj hstored)
      · rw [hok] at herror
        cases herror
    intro htrim
    refine .inl ⟨_, hok, ?_, ?_, list_spec _⟩
    · rw [hget, htrim h]
    intro other hne
    unfold getStr
    rw [lookup_set h, if_neg hne]
  · have herror : setStr file call.1 call.2 = .error "invalid setting" := if_pos h
    refine iff_of_true (.inr ⟨_, herror, ?_⟩) fun haccepted => absurd haccepted h
    rw [set, herror]

/-- From any text, a sequence of calls behaves as on a map exactly when no accepted value begins or
ends with white space. -/
theorem calls_behave_iff (file : Option Text) (calls : List (Text × Text)) :
    (∀ before call after, calls = before ++ call :: after → Behaves (before.foldl set file) call) ↔
      ∀ call ∈ calls, Accepted call.1 call.2 → trim call.2 = call.2 := by
  constructor
  · intro h call hmem
    obtain ⟨before, after, hcalls⟩ := append_of_mem hmem
    exact (behaves_iff _ call).mp (h before call after hcalls)
  intro h before call after hcalls
  refine (behaves_iff _ call).mpr (h call ?_)
  rw [hcalls]
  exact mem_append_right _ mem_cons_self

/-- The name `" a"` comes back as `"a"`. -/
theorem leading_space_lost :
    ¬ ∀ (file : Option Text) (calls : List (Text × Text)) (before : List (Text × Text))
      (call : Text × Text) (after : List (Text × Text)), calls = before ++ call :: after →
        Behaves (before.foldl set file) call := by
  intro h
  have hbehaves := h none [(['n', 'a', 'm', 'e'], [' ', 'a'])] [] _ [] rfl
  rw [behaves_iff] at hbehaves
  exact absurd (hbehaves (by decide)) (by decide)

end QuicLite.Settings
