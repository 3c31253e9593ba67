import Mathlib.Data.List.Basic

/-!
# Recognizers

A recognizer walks over an input and reports where the phrase at its cursor ends, that the input may
be the start of a longer phrase, or that it is none. It also counts the calls that it makes.
`Recognizes` relates it to a set of phrases; it is kept by sequencing, by counted repetition and by
repetition up to a stop symbol.
-/

namespace Recognizer

open List Nat Except

variable {α : Type} {e : Scan} {β : Type}

inductive Scan where
  /-- The input ends too early. -/
  | more
  | bad

structure Cursor (α : Type) where
  position : Nat
  rest : List α

namespace Cursor

/-- The same cursor with more input behind it. -/
def extend (c : Cursor α) (ext : List α) : Cursor α := ⟨c.position, c.rest ++ ext⟩

/-- Past the first `n` symbols. -/
def skip (c : Cursor α) (n : Nat) : Cursor α := ⟨c.position + n, c.rest.drop n⟩

end Cursor

structure Step (α : Type) where
  calls : Nat
  outcome : Except Scan (Cursor α)

namespace Step

def ok (c : Cursor α) : Step α := ⟨0, .ok c⟩

def fail (e : Scan) : Step α := ⟨0, .error e⟩

/-- One call more. -/
def called (s : Step α) : Step α := ⟨s.calls + 1, s.outcome⟩

def andThen (s : Step α) (k : Cursor α → Step α) : Step α :=
  match s.outcome with
  | .error e => ⟨s.calls, .error e⟩
  | .ok c => ⟨s.calls + (k c).calls, (k c).outcome⟩

end Step

/-- `n` phrases in a row. -/
def times (item : Cursor α → Step α) : Nat → Cursor α → Step α
  | 0, c => .ok c
  | n + 1, c => (item c).andThen (times item n)

/-- Phrases up to a stop symbol, each with an admitted first symbol. -/
def untilStop [DecidableEq α] (stop : α) (admits : α → Bool) (item : Cursor α → Step α) :
    Nat → Cursor α → Step α
  | 0, _ => .fail .more
  | fuel + 1, c =>
    match c.rest with
    | [] => .fail .more
    | a :: rest =>
      if a = stop then .ok ⟨c.position + 1, rest⟩
      else if admits a then (item c).andThen (untilStop stop admits item fuel)
      else .fail .bad

/-- A header, and a body that depends on what the header says; this counts as one call. -/
def headed {β : Type} (header : Cursor α → Except Scan (β × Cursor α))
    (body : β → Cursor α → Step α) (c : Cursor α) : Step α :=
  match header c with
  | .error e => ⟨1, .error e⟩
  | .ok (b, c) => (body b c).called

/-! ## Phrases -/

/-- What a recognizer of a set of phrases does, for positions below a limit. -/
structure Recognizes (limit : Nat) (item : Cursor α → Step α) (phrase : List α → Prop) : Prop where
  sound : ∀ {c c'}, (item c).outcome = .ok c' →
    ∃ p, phrase p ∧ c.rest = p ++ c'.rest ∧ c'.position = c.position + p.length ∧
      (item c).calls ≤ p.length
  complete : ∀ {c p tail}, phrase p → c.rest = p ++ tail → c.position + p.length < limit →
    (item c).outcome = .ok ⟨c.position + p.length, tail⟩
  bounded : ∀ {c e}, (item c).outcome = .error e → (item c).calls ≤ c.rest.length + 1
  extend_ok : ∀ {c c'} (ext), (item c).outcome = .ok c' →
    (item (c.extend ext)).outcome = .ok (c'.extend ext)
  extend_bad : ∀ {c} (ext), (item c).outcome = .error .bad →
    (item (c.extend ext)).outcome = .error .bad

/-- What a reader of a header does. -/
structure Reads {β : Type} (limit : Nat) (header : Cursor α → Except Scan (β × Cursor α))
    (head : β → List α → Prop) :
    Prop where
  sound : ∀ {c b c'}, header c = .ok (b, c') →
    ∃ p, head b p ∧ p ≠ [] ∧ c.rest = p ++ c'.rest ∧ c'.position = c.position + p.length
  complete : ∀ {c b p tail}, head b p → c.rest = p ++ tail → c.position + p.length < limit →
    header c = .ok (b, ⟨c.position + p.length, tail⟩)
  extend_ok : ∀ {c b c'} (ext), header c = .ok (b, c') →
    header (c.extend ext) = .ok (b, c'.extend ext)
  extend_bad : ∀ {c} (ext), header c = .error .bad → header (c.extend ext) = .error .bad

/-- A header and a body that fits it. -/
def Headed {β : Type} (head : β → List α → Prop) (body : β → List α → Prop) (p : List α) : Prop :=
  ∃ b x y, head b x ∧ body b y ∧ p = x ++ y

/-- One phrase after another. -/
def Seq (first second : List α → Prop) (p : List α) : Prop := ∃ a b, first a ∧ second b ∧ p = a ++ b

/-- `n` phrases in a row. -/
def Times (phrase : List α → Prop) (n : Nat) (p : List α) : Prop :=
  ∃ parts : List (List α), parts.length = n ∧ (∀ part ∈ parts, phrase part) ∧ p = parts.flatten

/-- Any number of phrases with an admitted first symbol, and the stop symbol. -/
def UntilStop (stop : α) (admits : α → Bool) (phrase : List α → Prop) (p : List α) : Prop :=
  ∃ parts : List (List α),
    (∀ part ∈ parts, phrase part ∧ ∃ a rest, part = a :: rest ∧ a ≠ stop ∧ admits a = true) ∧
      p = parts.flatten ++ [stop]

namespace UntilStop

variable {stop : α} {admits : α → Bool} {phrase : List α → Prop}

theorem nil : UntilStop stop admits phrase [stop] := ⟨[], fun _ h => (by cases h), rfl⟩

theorem cons {a : α} {p q : List α} (hphrase : phrase (a :: p)) (hne : a ≠ stop)
    (hadmits : admits a = true) (hrest : UntilStop stop admits phrase q) :
    UntilStop stop admits phrase (a :: p ++ q) := by
  obtain ⟨parts, hparts, rfl⟩ := hrest
  refine ⟨(a :: p) :: parts, fun part hmem => ?_, by simp⟩
  rcases mem_cons.mp hmem with rfl | hold
  · exact ⟨hphrase, a, p, rfl, hne, hadmits⟩
  · exact hparts part hold

end UntilStop

namespace Step

variable {s : Step α}

theorem andThen_ok {c : Cursor α} (h : s.outcome = .ok c) (k : Cursor α → Step α) :
    s.andThen k = ⟨s.calls + (k c).calls, (k c).outcome⟩ := by
  rw [andThen, h]

theorem andThen_error (h : s.outcome = .error e) (k : Cursor α → Step α) :
    s.andThen k = ⟨s.calls, .error e⟩ := by
  rw [andThen, h]

/-- A sequence fails in its first part, or in the second where the first ended. -/
theorem andThen_cases (s : Step α) (k : Cursor α → Step α) :
    (∃ e, s.outcome = .error e ∧ s.andThen k = ⟨s.calls, .error e⟩) ∨
      ∃ c, s.outcome = .ok c ∧ s.andThen k = ⟨s.calls + (k c).calls, (k c).outcome⟩ := by
  cases h : s.outcome with
  | error e => exact .inl ⟨e, rfl, andThen_error h k⟩
  | ok c => exact .inr ⟨c, rfl, andThen_ok h k⟩

end Step

namespace Recognizes

variable {limit : Nat} {item next : Cursor α → Step α} {phrase after : List α → Prop}

open List

theorem seq (h : Recognizes limit item phrase) (hnext : Recognizes limit next after) :
    Recognizes limit (fun c => (item c).andThen next) (Seq phrase after) where
  sound := by
    intro c c' hok
    rcases Step.andThen_cases (item c) next with ⟨e, -, heq⟩ | ⟨mid, hmid, heq⟩
    · rw [heq] at hok
      cases hok
    rw [heq] at hok
    obtain ⟨a, ha, hrest, hposition, hcalls⟩ := h.sound hmid
    obtain ⟨b, hb, hrest', hposition', hcalls'⟩ := hnext.sound hok
    refine ⟨a ++ b, ⟨a, b, ha, hb, rfl⟩, ?_, ?_, ?_⟩
    · rw [hrest, hrest', append_assoc]
    · rw [hposition', hposition, length_append, Nat.add_assoc]
    · rw [heq, length_append]
      exact Nat.add_le_add hcalls hcalls'
  complete := by
    rintro c p tail ⟨a, b, ha, hb, rfl⟩ hrest hlimit
    rw [length_append] at hlimit ⊢
    have hmid := h.complete ha (hrest.trans (append_assoc _ _ _)) (by omega)
    rw [Step.andThen_ok hmid]
    have hend := hnext.complete (c := ⟨c.position + a.length, b ++ tail⟩) hb rfl (by
      show c.position + a.length + b.length < limit
      omega)
    rw [hend, Nat.add_assoc]
  bounded := by
    intro c e herror
    rcases Step.andThen_cases (item c) next with ⟨e', hfirst, heq⟩ | ⟨mid, hmid, heq⟩
    · rw [heq]
      exact h.bounded hfirst
    rw [heq] at herror ⊢
    obtain ⟨a, -, hrest, -, hcalls⟩ := h.sound hmid
    have hsecond := hnext.bounded herror
    have hlength : c.rest.length = a.length + mid.rest.length := by rw [hrest, length_append]
    show (item c).calls + (next mid).calls ≤ c.rest.length + 1
    omega
  extend_ok := by
    intro c c' ext hok
    rcases Step.andThen_cases (item c) next with ⟨e, -, heq⟩ | ⟨mid, hmid, heq⟩
    · rw [heq] at hok
      cases hok
    rw [heq] at hok
    rw [Step.andThen_ok (h.extend_ok ext hmid)]
    exact hnext.extend_ok ext hok
  extend_bad := by
    intro c ext hbad
    rcases Step.andThen_cases (item c) next with ⟨e, hfirst, heq⟩ | ⟨mid, hmid, heq⟩
    · rw [heq] at hbad
      obtain rfl := error.inj hbad
      rw [Step.andThen_error (h.extend_bad ext hfirst)]
    rw [heq] at hbad
    rw [Step.andThen_ok (h.extend_ok ext hmid)]
    exact hnext.extend_bad ext hbad

theorem headed {header : Cursor α → Except Scan (β × Cursor α)} {head : β → List α → Prop}
    {body : β → Cursor α → Step α} {rest : β → List α → Prop} (h : Reads limit header head)
    (hbody : ∀ b, Recognizes limit (body b) (rest b)) : Recognizes limit (headed header body)
    (Headed head rest) where
  sound := by
    intro c c' hok
    rw [Recognizer.headed] at hok ⊢
    cases hheader : header c with
    | error e =>
      rw [hheader] at hok
      cases hok
    | ok found =>
    obtain ⟨b, mid⟩ := found
    rw [hheader] at hok
    obtain ⟨x, hx, hne, hrest, hposition⟩ := h.sound hheader
    obtain ⟨y, hy, hrest', hposition', hcalls⟩ := (hbody b).sound hok
    refine ⟨x ++ y, ⟨b, x, y, hx, hy, rfl⟩, ?_, ?_, ?_⟩
    · rw [hrest, hrest', append_assoc]
    · rw [hposition', hposition, length_append, Nat.add_assoc]
    have hpos := length_pos_iff.mpr hne
    rw [length_append]
    show (body b mid).calls + 1 ≤ x.length + y.length
    omega
  complete := by
    rintro c p tail ⟨b, x, y, hx, hy, rfl⟩ hrest hlimit
    rw [length_append] at hlimit ⊢
    have hmid := h.complete hx (hrest.trans (append_assoc _ _ _)) (by omega)
    have hend := (hbody b).complete (c := ⟨c.position + x.length, y ++ tail⟩) hy rfl
      (show c.position + x.length + y.length < limit by omega)
    rw [Recognizer.headed, hmid]
    exact hend.trans (by rw [Nat.add_assoc])
  bounded := by
    intro c e herror
    rw [Recognizer.headed] at herror ⊢
    cases hheader : header c with
    | error e' => exact le_add_left 1 _
    | ok found =>
    obtain ⟨b, mid⟩ := found
    rw [hheader] at herror
    obtain ⟨x, -, hne, hrest, -⟩ := h.sound hheader
    have hpos := length_pos_iff.mpr hne
    have hcalls := (hbody b).bounded herror
    have hlength : c.rest.length = x.length + mid.rest.length := by rw [hrest, length_append]
    show (body b mid).calls + 1 ≤ c.rest.length + 1
    omega
  extend_ok := by
    intro c c' ext hok
    rw [Recognizer.headed] at hok ⊢
    cases hheader : header c with
    | error e =>
      rw [hheader] at hok
      cases hok
    | ok found =>
      obtain ⟨b, mid⟩ := found
      rw [hheader] at hok
      rw [h.extend_ok ext hheader]
      exact (hbody b).extend_ok ext hok
  extend_bad := by
    intro c ext hbad
    rw [Recognizer.headed] at hbad ⊢
    cases hheader : header c with
    | error e =>
      rw [hheader] at hbad
      obtain rfl := error.inj hbad
      rw [h.extend_bad ext hheader]
    | ok found =>
      obtain ⟨b, mid⟩ := found
      rw [hheader] at hbad
      rw [h.extend_ok ext hheader]
      exact (hbody b).extend_bad ext hbad

theorem none : Recognizes limit (fun _ => Step.fail (α := α) .bad) fun _ => False where
  sound := fun h => by cases h
  complete := fun h => h.elim
  bounded := fun _ => zero_le _
  extend_ok := fun _ h => by cases h
  extend_bad := fun _ _ => rfl

theorem empty : Recognizes limit (Step.ok (α := α)) (· = []) where
  sound := by
    rintro c c' ⟨⟩
    exact ⟨[], rfl, rfl, rfl, Nat.le_refl _⟩
  complete := by
    rintro c p tail rfl hrest -
    exact congrArg _ (congrArg (Cursor.mk c.position) hrest)
  bounded := fun h => by cases h
  extend_ok := by
    rintro c c' ext ⟨⟩
    rfl
  extend_bad := fun _ h => by cases h

theorem congr (h : Recognizes limit item phrase) (hphrase : ∀ p, phrase p ↔ after p) :
    Recognizes limit item after where
  sound := fun hok => (h.sound hok).imp fun p hp => ⟨(hphrase p).mp hp.1, hp.2⟩
  complete := fun hp => h.complete ((hphrase _).mpr hp)
  bounded := h.bounded
  extend_ok := h.extend_ok
  extend_bad := h.extend_bad

theorem times (h : Recognizes limit item phrase) (n : Nat) : Recognizes limit (times item n)
    (Times phrase n) := by
  induction n with
  | zero =>
    refine empty.congr fun p => ⟨?_, ?_⟩
    · rintro rfl
      exact ⟨[], rfl, fun part hmem => (by cases hmem), rfl⟩
    rintro ⟨parts, hlength, -, rfl⟩
    rw [eq_nil_of_length_eq_zero hlength]
    rfl
  | succ n ih =>
    refine (h.seq ih).congr fun p => ⟨?_, ?_⟩
    · rintro ⟨a, b, ha, ⟨parts, hlength, hparts, rfl⟩, rfl⟩
      refine ⟨a :: parts, congrArg _ hlength, fun part hmem => ?_, rfl⟩
      rcases mem_cons.mp hmem with rfl | hold
      · exact ha
      · exact hparts part hold
    rintro ⟨parts, hlength, hparts, rfl⟩
    obtain ⟨a, rest, rfl⟩ := exists_cons_of_length_eq_add_one hlength
    refine ⟨a, rest.flatten, hparts a mem_cons_self, ⟨rest, ?_, fun part hmem => ?_, rfl⟩, rfl⟩
    · exact succ.inj hlength
    · exact hparts part (mem_cons_of_mem _ hmem)

/-! ## Repetition up to a stop symbol -/

section UntilStop

variable [DecidableEq α] {stop : α} {admits : α → Bool} {c : Cursor α} {fuel : Nat}

theorem untilStop_cons {a : α} {rest : List α} (hrest : c.rest = a :: rest) :
    untilStop stop admits item (fuel + 1) c = if a = stop then .ok ⟨c.position + 1, rest⟩
      else if admits a then (item c).andThen (untilStop stop admits item fuel)
      else .fail .bad := by
  rw [untilStop, hrest]

theorem untilStop_nil (hrest : c.rest = []) : untilStop stop admits item fuel c = .fail .more := by
  cases fuel with
  | zero => rfl
  | succ fuel => rw [untilStop, hrest]

section

variable (h : Recognizes limit item phrase)
include h

theorem untilStop_sound (hnonempty : ∀ p, phrase p → p ≠ [])
    {c' : Cursor α} (hok : (untilStop stop admits item fuel c).outcome = .ok c') :
    ∃ p, UntilStop stop admits phrase p ∧ c.rest = p ++ c'.rest ∧ c'.position = c.position +
      p.length ∧
      (untilStop stop admits item fuel c).calls ≤ p.length := by
  induction fuel generalizing c with
  | zero => cases hok
  | succ fuel ih =>
    cases hrest : c.rest with
    | nil =>
      rw [untilStop_nil hrest] at hok
      cases hok
    | cons a rest =>
    rw [untilStop_cons hrest] at hok ⊢
    split_ifs at hok ⊢ with hstop hadmits
    · cases hok
      exact ⟨[stop], .nil, by rw [hstop]; rfl, rfl, zero_le _⟩
    · rcases Step.andThen_cases (item c) (untilStop stop admits item fuel) with ⟨e, -, heq⟩ |
        ⟨mid, hmid, heq⟩
      · rw [heq] at hok
        cases hok
      rw [heq] at hok ⊢
      obtain ⟨p, hp, hfirst, hposition, hcalls⟩ := h.sound hmid
      obtain ⟨q, hq, hsecond, hposition', hcalls'⟩ := ih hok
      obtain ⟨b, p, rfl⟩ := exists_cons_of_ne_nil (hnonempty p hp)
      obtain rfl : a = b := by
        rw [hrest] at hfirst
        exact (cons.inj hfirst).1
      refine ⟨a :: p ++ q, .cons hp hstop hadmits hq, ?_, ?_, ?_⟩
      · rw [← hrest, hfirst, hsecond, append_assoc]
      · rw [hposition', hposition, length_append, Nat.add_assoc]
      · rw [length_append]
        exact Nat.add_le_add hcalls hcalls'
    · cases hok

theorem untilStop_bounded (herror : (untilStop stop admits item fuel c).outcome = .error e) :
    (untilStop stop admits item fuel c).calls ≤ c.rest.length + 1 := by
  induction fuel generalizing c with
  | zero => exact zero_le _
  | succ fuel ih =>
    cases hrest : c.rest with
    | nil =>
      rw [untilStop_nil hrest]
      exact zero_le _
    | cons a rest =>
    rw [untilStop_cons hrest] at herror ⊢
    split_ifs at herror ⊢ with hstop hadmits
    · cases herror
    · rcases Step.andThen_cases (item c) (untilStop stop admits item fuel) with ⟨e', hfirst,
        heq⟩ | ⟨mid, hmid, heq⟩
      · rw [heq, ← hrest]
        exact h.bounded hfirst
      rw [heq] at herror ⊢
      obtain ⟨p, -, hfirst, -, hcalls⟩ := h.sound hmid
      have hsecond := ih herror
      have hlength : (a :: rest).length = p.length + mid.rest.length := by
        rw [← hrest, hfirst, length_append]
      show (item c).calls + (untilStop stop admits item fuel mid).calls ≤ (a :: rest).length + 1
      omega
    · exact zero_le _

theorem untilStop_complete {p tail : List α}
    (hp : UntilStop stop admits phrase p) (hrest : c.rest = p ++ tail)
    (hlimit : c.position + p.length < limit) (hfuel : c.rest.length < fuel) :
    (untilStop stop admits item fuel c).outcome = .ok ⟨c.position + p.length, tail⟩ := by
  obtain ⟨parts, hparts, rfl⟩ := hp
  induction parts generalizing c fuel with
  | nil =>
    obtain ⟨fuel, rfl⟩ := Nat.exists_eq_succ_of_ne_zero (Nat.ne_zero_of_lt hfuel)
    rw [untilStop_cons (show c.rest = stop :: tail from hrest), if_pos rfl]
    rfl
  | cons part parts ih =>
    obtain ⟨fuel, rfl⟩ := Nat.exists_eq_succ_of_ne_zero (Nat.ne_zero_of_lt hfuel)
    obtain ⟨hpart, a, rest, rfl, hne, hadmits⟩ := hparts part mem_cons_self
    have hsplit : c.rest = (a :: rest) ++ (parts.flatten ++ [stop] ++ tail) := by
      rw [hrest]
      simp
    rw [flatten_cons, append_assoc, length_append] at hlimit ⊢
    have hmid := h.complete hpart hsplit (by omega)
    rw [untilStop_cons (hsplit.trans (cons_append ..)), if_neg hne, if_pos hadmits,
      Step.andThen_ok hmid]
    have hlength : c.rest.length = (rest.length + 1) +
        (parts.flatten ++ [stop] ++ tail).length := by
      rw [hsplit, length_append, length_cons]
    have hend := ih (c := ⟨c.position + (a :: rest).length, parts.flatten ++ [stop] ++ tail⟩)
      (show (parts.flatten ++ [stop] ++ tail).length < fuel by omega)
      (fun part hmem => hparts part (mem_cons_of_mem _ hmem)) rfl
      (show c.position + (a :: rest).length + (parts.flatten ++ [stop]).length < limit by omega)
    rw [hend, Nat.add_assoc]

/-- More input changes neither an end that was found nor a failure. -/
theorem untilStop_extend (hnonempty : ∀ p, phrase p → p ≠ []) {fuel' : Nat}
    (ext : List α) (hfuel : c.rest.length < fuel) (hfuel' : (c.extend ext).rest.length < fuel') :
    (∀ c', (untilStop stop admits item fuel c).outcome = .ok c' →
        (untilStop stop admits item fuel' (c.extend ext)).outcome = .ok (c'.extend ext)) ∧
      ((untilStop stop admits item fuel c).outcome = .error .bad →
        (untilStop stop admits item fuel' (c.extend ext)).outcome = .error .bad) := by
  induction fuel generalizing c fuel' with
  | zero => exact absurd hfuel (Nat.not_lt_zero _)
  | succ fuel ih =>
    obtain ⟨fuel', rfl⟩ := Nat.exists_eq_succ_of_ne_zero (Nat.ne_zero_of_lt hfuel')
    cases hrest : c.rest with
    | nil =>
      rw [untilStop_nil hrest]
      exact ⟨fun c' hok => (by cases hok), fun hbad => by cases hbad⟩
    | cons a rest =>
    have hrest' : (c.extend ext).rest = a :: (rest ++ ext) := by
      rw [Cursor.extend, hrest, cons_append]
    rw [untilStop_cons hrest, untilStop_cons hrest']
    split_ifs with hstop hadmits
    · refine ⟨fun c' hok => ?_, fun hbad => by cases hbad⟩
      cases hok
      rfl
    · rcases Step.andThen_cases (item c) (untilStop stop admits item fuel) with ⟨e, hfirst, heq⟩ |
        ⟨mid, hmid, heq⟩
      · rw [heq]
        refine ⟨fun c' hok => (by cases hok), fun hbad => ?_⟩
        obtain rfl := error.inj hbad
        rw [Step.andThen_error (h.extend_bad ext hfirst)]
      rw [heq, Step.andThen_ok (h.extend_ok ext hmid)]
      obtain ⟨p, hp, hsplit, -, -⟩ := h.sound hmid
      have hpos := length_pos_iff.mpr (hnonempty p hp)
      have hlength : c.rest.length = p.length + mid.rest.length := by rw [hsplit, length_append]
      refine ih (by omega) ?_
      rw [Cursor.extend, length_append] at hfuel' ⊢
      omega
    · exact ⟨fun c' hok => (by cases hok), fun _ => rfl⟩

end

/-- The fuel of the whole rest is enough. -/
theorem untilStop (h : Recognizes limit item phrase) (hnonempty : ∀ p, phrase p → p ≠ []) :
    Recognizes limit (fun c => untilStop stop admits item (c.rest.length + 1) c)
    (UntilStop stop admits phrase) where
  sound := untilStop_sound h hnonempty
  complete := fun hp hrest hlimit => untilStop_complete h hp hrest hlimit (lt_succ_self _)
  bounded := untilStop_bounded h
  extend_ok := fun ext hok =>
    (untilStop_extend h hnonempty ext (lt_succ_self _) (lt_succ_self _)).1 _ hok
  extend_bad := fun ext hbad =>
    (untilStop_extend h hnonempty ext (lt_succ_self _) (lt_succ_self _)).2 hbad

end UntilStop

end Recognizes

/-! ## Phrases that are no start of one another -/

/-- Where two phrases start the same input they are the same. -/
def PrefixFree (phrase : List α → Prop) : Prop :=
  ∀ ⦃p q x y : List α⦄, phrase p → phrase q → p ++ x = q ++ y → p = q

namespace PrefixFree

variable {phrase after : List α → Prop}

theorem none : PrefixFree fun _ : List α => False := fun _ _ _ _ h => h.elim

theorem ofLength (n : Nat) : PrefixFree fun p : List α => p.length = n :=
  fun _ _ _ _ hp hq h => (append_inj h (hp.trans hq.symm)).1

theorem empty : PrefixFree (· = ([] : List α)) := fun _ _ _ _ hp hq _ => hp.trans hq.symm

theorem seq (h : PrefixFree phrase) (hafter : PrefixFree after) :
    PrefixFree (Seq phrase after) := by
  rintro p q x y ⟨a, b, ha, hb, rfl⟩ ⟨a', b', ha', hb', rfl⟩ heq
  rw [append_assoc, append_assoc] at heq
  obtain rfl := h ha ha' heq
  rw [hafter hb hb' (append_cancel_left heq)]

theorem times (h : PrefixFree phrase) (n : Nat) : PrefixFree (Times phrase n) := by
  rintro p q x y ⟨parts, hlength, hparts, rfl⟩ ⟨parts', hlength', hparts', rfl⟩ heq
  induction n generalizing parts parts' with
  | zero => rw [eq_nil_of_length_eq_zero hlength, eq_nil_of_length_eq_zero hlength']
  | succ n ih =>
    obtain ⟨part, parts, rfl⟩ := exists_cons_of_length_eq_add_one hlength
    obtain ⟨part', parts', rfl⟩ := exists_cons_of_length_eq_add_one hlength'
    simp only [flatten_cons, append_assoc] at heq ⊢
    obtain rfl := h (hparts part mem_cons_self) (hparts' part' mem_cons_self) heq
    rw [ih parts (succ.inj hlength) (forall_mem_cons.mp hparts).2 parts' (succ.inj hlength')
      (forall_mem_cons.mp hparts').2 (append_cancel_left heq)]

theorem untilStop {stop : α} {admits : α → Bool} (h : PrefixFree phrase) :
    PrefixFree (UntilStop stop admits phrase) := by
  rintro p q x y ⟨parts, hparts, rfl⟩ ⟨parts', hparts', rfl⟩ heq
  induction parts generalizing parts' with
  | nil =>
    cases parts' with
    | nil => rfl
    | cons part' parts' =>
      obtain ⟨-, a, rest, rfl, hne, -⟩ := hparts' part' mem_cons_self
      exact absurd (cons.inj heq).1.symm hne
  | cons part parts ih =>
    obtain ⟨hphrase, a, rest, hcons, hne, -⟩ := hparts part mem_cons_self
    cases parts' with
    | nil =>
      subst hcons
      exact absurd (cons.inj heq).1 hne
    | cons part' parts' =>
      simp only [flatten_cons, append_assoc] at heq ih ⊢
      obtain rfl := h hphrase (hparts' part' mem_cons_self).1 heq
      rw [ih (forall_mem_cons.mp hparts).2 parts' (forall_mem_cons.mp hparts').2
        (append_cancel_left heq)]

/-- A head that can be told from the input, and after it what it announces. -/
theorem headed {head : β → List α → Prop} {body : β → List α → Prop}
    (hhead : ∀ {b b' x x' r r'}, head b x → head b' x' → x ++ r = x' ++ r' → b = b' ∧ x = x')
    (hbody : ∀ b, PrefixFree (body b)) : PrefixFree (Headed head body) := by
  rintro p q x y ⟨b, s, t, hs, ht, rfl⟩ ⟨b', s', t', hs', ht', rfl⟩ heq
  rw [append_assoc, append_assoc] at heq
  obtain ⟨rfl, rfl⟩ := hhead hs hs' heq
  rw [hbody b ht ht' (append_cancel_left heq)]

theorem congr (h : PrefixFree phrase) (hphrase : ∀ p, after p → phrase p) : PrefixFree after :=
  fun _ _ _ _ hp hq heq => h (hphrase _ hp) (hphrase _ hq) heq

/-- An input is a row of phrases in one way only. -/
theorem flatten_inj (h : PrefixFree phrase) (hnonempty : ∀ p, phrase p → p ≠ [])
    {parts parts' : List (List α)} (hparts : ∀ p ∈ parts, phrase p)
    (hparts' : ∀ p ∈ parts', phrase p) (heq : parts.flatten = parts'.flatten) :
    parts = parts' := by
  induction parts generalizing parts' with
  | nil =>
    cases parts' with
    | nil => rfl
    | cons part' parts' =>
      have hempty := (append_eq_nil_iff.mp heq.symm).1
      exact absurd hempty (hnonempty part' (hparts' part' mem_cons_self))
  | cons part parts ih =>
    cases parts' with
    | nil =>
      have hempty := (append_eq_nil_iff.mp heq).1
      exact absurd hempty (hnonempty part (hparts part mem_cons_self))
    | cons part' parts' =>
      obtain rfl := h (hparts part mem_cons_self) (hparts' part' mem_cons_self) heq
      rw [ih (forall_mem_cons.mp hparts).2 (forall_mem_cons.mp hparts').2 (append_cancel_left heq)]

end PrefixFree

end Recognizer
