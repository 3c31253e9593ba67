import Mathlib.Data.List.Basic

/-!
# Attributes

A stream of attributes, each an identifier, a length of two bytes in little-endian order and a body.
The reader takes the complete attributes from the front and stops at the first that is cut off.
-/

namespace Attributes

open List UInt8

/-- The two low bytes of a number, the lowest first. -/
def le16 (n : Nat) : List UInt8 := [ofNat n, ofNat (n / 256)]

@[simp] theorem length_le16 (n : Nat) : (le16 n).length = 2 := rfl

def ofLe16 (low high : UInt8) : Nat := low.toNat + 256 * high.toNat

theorem ofLe16_le16 {n : Nat} (h : n < 65536) : ofLe16 (ofNat n) (ofNat (n / 256)) = n := by
  unfold ofLe16
  rw [toNat_ofNat', toNat_ofNat']
  omega

structure Attribute where
  id : UInt8
  body : List UInt8

def Attribute.encode (a : Attribute) : List UInt8 := a.id :: (le16 a.body.length ++ a.body)

/-- At most `fuel` attributes. -/
def scan : Nat → List UInt8 → List Attribute
  | fuel + 1, id :: low :: high :: rest =>
    if ofLe16 low high ≤ rest.length then
      ⟨id, rest.take (ofLe16 low high)⟩ :: scan fuel (rest.drop (ofLe16 low high))
    else []
  | _, _ => []

def attributes (bs : List UInt8) : List Attribute := scan bs.length bs

/-- Every attribute takes bytes, so that there is always enough fuel. -/
theorem scan_eq {fuel : Nat} {bs : List UInt8} (h : bs.length ≤ fuel) :
    scan fuel bs = attributes bs := by
  have henough : ∀ {fuel more : Nat} {bs : List UInt8}, bs.length ≤ fuel → bs.length ≤ more →
      scan fuel bs = scan more bs := by
    intro fuel
    induction fuel with
    | zero =>
      intro more bs hfuel _
      rw [length_eq_zero_iff.mp (Nat.le_zero.mp hfuel)]
      cases more <;> rfl
    | succ fuel ih =>
      intro more bs hfuel hmore
      rcases bs with _ | ⟨id, _ | ⟨low, _ | ⟨high, rest⟩⟩⟩
      · cases more <;> rfl
      · cases more <;> rfl
      · cases more <;> rfl
      cases more with
      | zero => simp at hmore
      | succ more =>
        simp only [length_cons] at hfuel hmore
        have hrest : scan fuel (rest.drop (ofLe16 low high)) =
            scan more (rest.drop (ofLe16 low high)) :=
          ih (by rw [length_drop]; omega) (by rw [length_drop]; omega)
        rw [scan, scan, hrest]
  exact henough h (Nat.le_refl _)

/-- A complete attribute is taken from the front. -/
theorem attributes_encode {a : Attribute} (h : a.body.length < 65536) (rest : List UInt8) :
    attributes (a.encode ++ rest) = a :: attributes rest := by
  have hbytes : a.encode ++ rest = a.id :: ofNat a.body.length :: ofNat (a.body.length / 256) ::
      (a.body ++ rest) := rfl
  rw [hbytes, attributes, length_cons, scan, ofLe16_le16 h, if_pos (by simp), take_left, drop_left]
  rw [scan_eq (by simp; omega)]

/-- What was written is read, whatever follows. -/
theorem attributes_flatMap {as : List Attribute} (h : ∀ a ∈ as, a.body.length < 65536) :
    attributes (as.flatMap Attribute.encode) = as := by
  induction as with
  | nil => rfl
  | cons a as ih =>
    rw [flatMap_cons, attributes_encode (h a mem_cons_self), ih (forall_mem_cons.mp h).2]

end Attributes
