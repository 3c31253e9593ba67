/-!
# The profile store

One profile and its generation, edited under a lock. A call of the store is one step here: that
concurrent calls behave like this is shown where the accesses are told apart.
-/

namespace QuicLite.Profile

variable {generation : UInt32}

/-- The generation after a commit, never zero. -/
def nextGeneration (generation : UInt32) : UInt32 := max (generation + 1) 1

theorem toNat_nextGeneration (h : generation ≠ 0xffffffff) :
    (nextGeneration generation).toNat = generation.toNat + 1 := by
  have hne : generation.toNat ≠ 4294967295 := fun heq => h (UInt32.toNat_inj.mp heq)
  have hlt := generation.toNat_lt
  have hadd : (generation + 1).toNat = generation.toNat + 1 := by
    rw [UInt32.toNat_add, show (1 : UInt32).toNat = 1 from rfl, Nat.mod_eq_of_lt (by omega)]
  show (if generation + 1 ≤ 1 then (1 : UInt32) else generation + 1).toNat = _
  split
  · next hle =>
      have hone := UInt32.le_iff_toNat_le.mp hle
      rw [show (1 : UInt32).toNat = 1 from rfl] at hone
      rw [show (1 : UInt32).toNat = 1 from rfl]
      omega
  · exact hadd

theorem lt_nextGeneration (h : generation ≠ 0xffffffff) :
    generation < nextGeneration generation := by
  rw [UInt32.lt_iff_toNat_lt, toNat_nextGeneration h]
  exact Nat.lt_succ_self _

structure ProfileStore (P : Type) where
  profile : P
  generation : UInt32

namespace ProfileStore

variable {P R : Type} [DecidableEq P] {self : ProfileStore P} {operation : P → P × R × Bool}

def new (profile : P) : ProfileStore P := ⟨profile, 0⟩

/-- Whether an operation edits or invalidates the stored profile. -/
def changes (self : ProfileStore P) (operation : P → P × R × Bool) : Bool :=
  decide ((operation self.profile).1 ≠ self.profile) || (operation self.profile).2.2

/-- The result of the operation, the generation then, and whether it committed. -/
def editWithInvalidation (self : ProfileStore P) (operation : P → P × R × Bool) :
    ProfileStore P × R × UInt32 × Bool :=
  let (profile, result, _) := operation self.profile
  if self.changes operation then
    (⟨profile, nextGeneration self.generation⟩, result, nextGeneration self.generation, true)
  else (self, result, self.generation, false)

theorem edit_of_changes (h : self.changes operation = true) : self.editWithInvalidation operation =
      (⟨(operation self.profile).1, nextGeneration self.generation⟩,
      (operation self.profile).2.1, nextGeneration self.generation, true) :=
  if_pos h

theorem edit_of_not_changes (h : ¬ self.changes operation = true) :
    self.editWithInvalidation operation =
      (self, (operation self.profile).2.1, self.generation, false) :=
  if_neg h

end ProfileStore

end QuicLite.Profile
