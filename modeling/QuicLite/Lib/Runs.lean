import Mathlib.Data.List.Basic

/-!
# Runs of a state machine

A machine is a function from a state and an operation to the next state. A run is a list of
operations; `Along` says that every operation of the run meets a condition on the state it is
applied in. The one induction over runs is `Along.invariant`.
-/

namespace Runs

open List

variable {σ α : Type} {s : σ} {P : σ → Prop} {β : Type}

/-- The state after a list of operations. -/
def exec (step : σ → α → σ) (s : σ) (ops : List α) : σ := ops.foldl step s

variable (step : σ → α → σ)

@[simp] theorem exec_nil (s : σ) : exec step s [] = s := rfl

@[simp] theorem exec_cons (s : σ) (a : α) (ops : List α) :
    exec step s (a :: ops) = exec step (step s a) ops := rfl

theorem exec_append (s : σ) (ops more : List α) :
    exec step s (ops ++ more) = exec step (exec step s ops) more := foldl_append

/-- What holds at the start and survives every step holds at the end. -/
theorem invariant {step : σ → α → σ} (hstep : ∀ s a, P s → P (step s a)) (hs : P s)
    (ops : List α) : P (exec step s ops) := by
  induction ops generalizing s with
  | nil => exact hs
  | cons a ops ih => exact ih (hstep s a hs)

/-- What the operations of a run emit, each in the state it finds. -/
def trace {β : Type} (step : σ → α → σ) (emit : σ → α → List β) : σ → List α → List β
  | _, [] => []
  | s, a :: ops => emit s a ++ trace step emit (step s a) ops

theorem trace_append (emit : σ → α → List β) (s : σ) (ops more : List α) :
    trace step emit s (ops ++ more) = trace step emit s ops ++ trace step emit (exec step s ops)
      more := by
  induction ops generalizing s with
  | nil => rfl
  | cons a ops ih => rw [cons_append, trace, trace, ih, exec_cons, append_assoc]

/-- Every operation of the run meets `ok` in the state it finds. -/
def Along (step : σ → α → σ) (ok : σ → α → Prop) : σ → List α → Prop
  | _, [] => True
  | s, a :: ops => ok s a ∧ Along step ok (step s a) ops

namespace Along

variable {step : σ → α → σ} {ok : σ → α → Prop} {ops : List α}

instance decidable [∀ s a, Decidable (ok s a)] :
    ∀ (s : σ) (ops : List α), Decidable (Along step ok s ops)
  | _, [] => isTrue trivial
  | s, a :: ops => @instDecidableAnd _ _ _ (decidable (step s a) ops)

/-- What holds at the start and survives every step that meets the condition holds at the end. -/
theorem invariant (hstep : ∀ s a, P s → ok s a → P (step s a)) (hs : P s)
    (hrun : Along step ok s ops) : P (exec step s ops) := by
  induction ops generalizing s with
  | nil => exact hs
  | cons a ops ih => exact ih (hstep s a hs hrun.1) hrun.2

/-- The same for what holds of a state together with everything emitted on the way to it. -/
theorem invariant_trace {emit : σ → α → List β} {P : σ → List β → Prop}
    (hstep : ∀ s log a, P s log → ok s a → P (step s a) (log ++ emit s a)) {log : List β}
    (hs : P s log) (hrun : Along step ok s ops) : P (exec step s ops)
    (log ++ trace step emit s ops) := by
  induction ops generalizing s log with
  | nil => simpa [trace] using hs
  | cons a ops ih =>
    have := ih (hstep s log a hs hrun.1) hrun.2
    rwa [append_assoc] at this

/-- A run meets the condition when both of its parts do. -/
theorem append {more : List α} :
    Along step ok s (ops ++ more) ↔ Along step ok s ops ∧ Along step ok (exec step s ops) more := by
  induction ops generalizing s with
  | nil => exact (true_and _).symm.to_iff
  | cons a ops ih => rw [cons_append, Along, Along, ih, exec_cons, and_assoc]

/-- A condition that does not depend on the state holds of every operation of the run. -/
theorem of_mem {Q : α → Prop} (hok : ∀ s a, ok s a → Q a)
    (hrun : Along step ok s ops) {a : α} (ha : a ∈ ops) : Q a := by
  induction ops generalizing s with
  | nil => cases ha
  | cons b ops ih =>
    rcases mem_cons.mp ha with rfl | ha
    · exact hok s a hrun.1
    · exact ih hrun.2 ha

/-- A condition that implies another passes it on along the run. -/
theorem mono {weaker : σ → α → Prop} (hok : ∀ s a, ok s a → weaker s a)
    (hrun : Along step ok s ops) :
    Along step weaker s ops := by
  induction ops generalizing s with
  | nil => trivial
  | cons a ops ih => exact ⟨hok s a hrun.1, ih hrun.2⟩

/-- A condition that every operation meets in every state holds along the run. -/
theorem of_forall (h : ∀ a ∈ ops, ∀ s, ok s a) : Along step ok s ops := by
  induction ops generalizing s with
  | nil => trivial
  | cons a ops ih => exact ⟨h a mem_cons_self s, ih fun b hb => h b (mem_cons_of_mem a hb)⟩

end Along

end Runs
