import Mathlib.Data.List.Basic

/-!
# Writing into a slice

An encoder is a sequence of steps, each of which appends to what is written so far or fails: because
the slice is full, or because a value cannot be written at all. `Writes` says what such a step
appends, for which values, and that it complains about the slice only when what it appends does not
fit. Steps compose.
-/

namespace Writer

variable {α ε : Type} {full : ε} {capacity : Nat}

/-- The step appends `bs`, provided that `valid` holds and that it fits. -/
structure Writes (full : ε) (capacity : Nat) (step : List α → Except ε (List α)) (bs : List α)
    (valid : Prop) : Prop where
  sound : ∀ {out result : List α}, out.length ≤ capacity → step out = .ok result →
    valid ∧ result = out ++ bs ∧ result.length ≤ capacity
  complete : ∀ (out : List α), valid → out.length + bs.length ≤ capacity →
    step out = .ok (out ++ bs)
  room : ∀ (out : List α), out.length + bs.length ≤ capacity → step out ≠ .error full

namespace Writes

variable {step step₁ step₂ : List α → Except ε (List α)} {bs bs₁ bs₂ : List α}
    {valid valid₁ valid₂ : Prop}

theorem nothing (full : ε) (capacity : Nat) :
    Writes full capacity (fun out : List α => .ok out) [] True where
  sound := by
    rintro out result hout h
    cases h
    exact ⟨trivial, (List.append_nil _).symm, hout⟩
  complete := by simp
  room := by simp

/-- A step that fails for a reason of its own writes nothing, ever. -/
theorem fails {e : ε} (he : e ≠ full) (bs : List α) (capacity : Nat) :
    Writes full capacity (fun _ => .error e) bs False where
  sound := by simp
  complete := by simp
  room := by simp [he]

theorem bind (h₁ : Writes full capacity step₁ bs₁ valid₁)
    (h₂ : Writes full capacity step₂ bs₂ valid₂) :
    Writes full capacity (fun out => step₁ out >>= step₂) (bs₁ ++ bs₂) (valid₁ ∧ valid₂) where
  sound := by
    intro out result hout h
    cases hfirst : step₁ out with
    | error e => simp [hfirst, Bind.bind, Except.bind] at h
    | ok between =>
      simp only [hfirst] at h
      obtain ⟨hvalid₁, rfl, hbetween⟩ := h₁.sound hout hfirst
      obtain ⟨hvalid₂, rfl, hresult⟩ := h₂.sound hbetween h
      exact ⟨⟨hvalid₁, hvalid₂⟩, List.append_assoc _ _ _, hresult⟩
  complete := by
    rintro out ⟨hvalid₁, hvalid₂⟩ hfits
    rw [List.length_append] at hfits
    have hsecond := h₂.complete (out ++ bs₁) hvalid₂ (by rw [List.length_append]; omega)
    simp only [h₁.complete out hvalid₁ (by omega : out.length + bs₁.length ≤ capacity), Bind.bind,
      Except.bind, hsecond, List.append_assoc]
  room := by
    intro out hfits
    rw [List.length_append] at hfits
    have hroom := h₁.room out (by omega : out.length + bs₁.length ≤ capacity)
    cases hfirst : step₁ out with
    | error e =>
      rw [hfirst] at hroom
      simpa [Bind.bind, Except.bind] using hroom
    | ok between =>
      obtain ⟨-, rfl, -⟩ := h₁.sound (by omega) hfirst
      simpa [Bind.bind, Except.bind] using h₂.room (out ++ bs₁) (by rw [List.length_append]; omega)

theorem congr (h : Writes full capacity step bs valid) (hvalid : valid ↔ valid₁) (hbs : bs = bs₁) :
    Writes full capacity step bs₁ valid₁ where
  sound := fun hout hstep => by
    obtain ⟨hv, hresult, hlength⟩ := h.sound hout hstep
    exact ⟨hvalid.mp hv, hbs ▸ hresult, hlength⟩
  complete := fun out hv hfits => hbs ▸ h.complete out (hvalid.mpr hv) (hbs ▸ hfits)
  room := fun out hfits => h.room out (hbs ▸ hfits)

/-- What a whole encoder writes into an empty slice. -/
theorem eq_ok_iff (h : Writes full capacity step bs valid) (result : List α) :
    step [] = .ok result ↔ valid ∧ bs.length ≤ capacity ∧ result = bs := by
  constructor
  · intro hstep
    obtain ⟨hv, rfl, hlength⟩ := h.sound (Nat.zero_le _) hstep
    exact ⟨hv, by simpa using hlength, by simp⟩
  · rintro ⟨hv, hlength, rfl⟩
    simpa using h.complete [] hv (by simpa using hlength)

end Writes

end Writer
