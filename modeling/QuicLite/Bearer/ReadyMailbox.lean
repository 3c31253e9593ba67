import Mathlib.Data.Finset.Card
import QuicLite.Lib.Runs

/-!
# The readiness mailbox

Bearers tell the node that they can send again through a row of slots, as many as there are bearers.
A `send_ready` puts its bearer into the first slot that is empty, or stops at a slot that has it
already; a `pop_ready` takes the first bearer that it finds. Any number of tasks are at it, and each
access to a slot is one step.

A bearer reaches the level of the slot it is in, and of every slot that a call for it looks at. No
more than `n - h` bearers reach level `h`, since a call moves up past a bearer only (`Inv.spread`),
as long as no bearer is in two places, or there is room for it in both. Then no call gets to the end
of the row, where the assertion is.
-/

namespace QuicLite.ReadyMailbox

open Function Finset

/-- Where a task is. -/
inductive Pc (B : Type) where
  | idle
  | sending (bearer : B) (index : Nat)
  | popping (index : Nat)

/-- `popped` is what the calls of `pop_ready` returned, and to which task. -/
structure Mailbox (B ι : Type) where
  ready : Nat → Option B
  pc : ι → Pc B
  aborted : Bool
  popped : List (ι × Option B)

inductive Op (B ι : Type) where
  | sendReady (task : ι) (bearer : B)
  | popReady (task : ι)
  | advance (task : ι)

namespace Mailbox

variable {B ι : Type} [DecidableEq ι] {bearer : B} {index : Nat}

def start : Mailbox B ι := ⟨fun _ => none, fun _ => .idle, false, []⟩

def goto (s : Mailbox B ι) (task : ι) (pc : Pc B) : Mailbox B ι :=
  { s with pc := update s.pc task pc }

/-- A task that is idle starts a call. -/
def enter (s : Mailbox B ι) (task : ι) (pc : Pc B) : Mailbox B ι :=
  match s.pc task with
  | .idle => s.goto task pc
  | _ => s

section

variable [DecidableEq B]

/-- The next access of a task: a compare-exchange of `send_ready`, or a swap of `pop_ready`. -/
def advance (n : Nat) (s : Mailbox B ι) (task : ι) : Mailbox B ι :=
  match s.pc task with
  | .idle => s
  | .sending bearer index =>
    if index < n then
      match s.ready index with
      | none => { s with ready := update s.ready index (some bearer) }.goto task .idle
      | some known =>
        if known = bearer then s.goto task .idle else s.goto task (.sending bearer (index + 1))
    -- `assert!(published, ..)`
    else { s with aborted := true }.goto task .idle
  | .popping index =>
    if index < n then
      match s.ready index with
      | none => s.goto task (.popping (index + 1))
      | some bearer =>
        { s with
          ready := update s.ready index none
          popped := s.popped ++ [(task, some bearer)] }.goto task .idle
    else { s with popped := s.popped ++ [(task, none)] }.goto task .idle

def step (n : Nat) (s : Mailbox B ι) : Op B ι → Mailbox B ι
  | .sendReady task bearer => s.enter task (.sending bearer 0)
  | .popReady task => s.enter task (.popping 0)
  | .advance task => s.advance n task

end

/-! ## Levels -/

/-- The bearer is in a slot at this level or above, or a call for it has got there. -/
def Reaches (s : Mailbox B ι) (bearer : B) (level : Nat) : Prop :=
  (∃ index, level ≤ index ∧ s.ready index = some bearer) ∨ ∃ task index,
    level ≤ index ∧ s.pc task = .sending bearer index

open Classical in
/-- The bearers that reach a level. -/
noncomputable def above (bearers : Finset B) (s : Mailbox B ι) (level : Nat) : Finset B :=
  bearers.filter (s.Reaches · level)

/-- Calls are for these bearers; an empty slot is claimed for a bearer that no slot has; and a call
moves past another bearer when no call for that one has got further, or when the slots behind this
one are enough for the caller's bearer and all that are further down. -/
def Safe [DecidableEq B] (n : Nat) (bearers : Finset B) (s : Mailbox B ι) : Op B ι → Prop
  | .sendReady _ bearer => bearer ∈ bearers
  | .popReady _ => True
  | .advance task => ∀ bearer index, s.pc task = .sending bearer index →
      (s.ready index = none → ∀ other, s.ready other ≠ some bearer) ∧
        ∀ known, s.ready index = some known → known ≠ bearer →
          (∀ rival upto, s.pc rival = .sending known upto → upto ≤ index) ∨
            (insert bearer (s.above bearers (index + 1))).card ≤ n - (index + 1)

structure Inv (n : Nat) (bearers : Finset B) (s : Mailbox B ι) : Prop where
  slot : ∀ index bearer, s.ready index = some bearer → bearer ∈ bearers
  call : ∀ task bearer index, s.pc task = .sending bearer index → bearer ∈ bearers
  unique : ∀ index other bearer, s.ready index = some bearer → s.ready other = some bearer →
    index = other
  spread : ∀ level, (s.above bearers level).card ≤ n - level
  running : s.aborted = false

variable {n : Nat} {bearers : Finset B} {s s' : Mailbox B ι} {task : ι}

omit [DecidableEq ι] in
theorem mem_above {level : Nat} :
    bearer ∈ s.above bearers level ↔ bearer ∈ bearers ∧ s.Reaches bearer level := by
  simp [above]

omit [DecidableEq ι] in
/-- Nobody has got further than before, but to the lowest level. -/
theorem Inv.spread_of_reaches (h : Inv n bearers s) (hcard : bearers.card ≤ n)
    (hreaches : ∀ bearer ∈ bearers, ∀ level, s'.Reaches bearer (level + 1) →
      s.Reaches bearer (level + 1)) (level : Nat) :
    (s'.above bearers level).card ≤ n - level := by
  cases level with
  | zero => exact (card_le_card fun _ hmem => (mem_above.mp hmem).1).trans hcard
  | succ level =>
    refine (card_le_card fun bearer hmem => ?_).trans (h.spread (level + 1))
    obtain ⟨hbearer, hnow⟩ := mem_above.mp hmem
    exact mem_above.mpr ⟨hbearer, hreaches bearer hbearer level hnow⟩

omit [DecidableEq ι] in
theorem inv_start (n : Nat) (bearers : Finset B) : Inv n bearers (start : Mailbox B ι) := by
  refine ⟨?_, ?_, ?_, ?_, rfl⟩
  all_goals simp [start, above, Reaches]

section

variable (h : Inv n bearers s)
include h

/-- A call begins, or ends without having changed a slot. -/
theorem Inv.goto (hcard : bearers.card ≤ n) {pc : Pc B}
    (hpc : ∀ bearer index, pc = .sending bearer index → bearer ∈ bearers ∧ index = 0) :
    Inv n bearers (s.goto task pc) where
  slot := h.slot
  call := by
    have := h.call
    simp only [Mailbox.goto]
    grind
  unique := h.unique
  spread := by
    apply h.spread_of_reaches hcard
    simp only [Reaches, Mailbox.goto]
    grind
  running := h.running

omit [DecidableEq ι] in
/-- A call that has looked at every slot would be one bearer too many. -/
theorem Inv.in_row (hpc : s.pc task = .sending bearer index) : index < n := by
  have hmem : bearer ∈ s.above bearers index :=
    mem_above.mpr ⟨h.call task bearer index hpc, .inr ⟨task, index, le_rfl, hpc⟩⟩
  have hpos := card_pos.mpr ⟨bearer, hmem⟩
  have := h.spread index
  omega

theorem Inv.pass [DecidableEq B] {known : B} (hpc : s.pc task = .sending bearer index)
    (hready : s.ready index = some known) (hother : known ≠ bearer)
    (hpass : (∀ rival upto, s.pc rival = .sending known upto → upto ≤ index) ∨
      (insert bearer (s.above bearers (index + 1))).card ≤ n - (index + 1)) :
    Inv n bearers (s.goto task (.sending bearer (index + 1))) where
  slot := h.slot
  call := by
    have := h.call
    simp only [Mailbox.goto]
    grind
  unique := h.unique
  spread level := by
    have hreach : ∀ found, (s.goto task (.sending bearer (index + 1))).Reaches found level →
        s.Reaches found level ∨ found = bearer ∧ level = index + 1 := by
      simp only [Reaches, Mailbox.goto]
      grind
    by_cases hlevel : level = index + 1
    · subst hlevel
      rcases hpass.symm with hroom | hrival
      · refine (card_le_card fun found hfound => ?_).trans hroom
        obtain ⟨hmem, hreaches⟩ := mem_above.mp hfound
        rw [mem_insert, mem_above]
        exact (hreach found hreaches).elim (fun hold => .inr ⟨hmem, hold⟩) fun hnow => .inl hnow.1
      -- Everyone at this level was at the level below, where the bearer it moves past stays.
      have hsub : (s.goto task (.sending bearer (index + 1))).above bearers (index + 1) ⊆
          (s.above bearers index).erase known := by
        intro found hfound
        obtain ⟨hmem, hreaches⟩ := mem_above.mp hfound
        rw [mem_erase, mem_above]
        have hunique := h.unique
        have hold := hreach found hreaches
        unfold Reaches at hold ⊢
        grind
      have hknown : known ∈ s.above bearers index :=
        mem_above.mpr ⟨h.slot index known hready, .inl ⟨index, le_rfl, hready⟩⟩
      have hcard := card_le_card hsub
      rw [card_erase_of_mem hknown] at hcard
      have := h.spread index
      omega
    · refine (card_le_card fun found hfound => ?_).trans (h.spread level)
      obtain ⟨hmem, hreaches⟩ := mem_above.mp hfound
      exact mem_above.mpr ⟨hmem, (hreach found hreaches).resolve_right (hlevel ·.2)⟩
  running := h.running

/-- A slot changes: it is emptied, or filled with the bearer of a call that looks at it. -/
theorem Inv.set (hcard : bearers.card ≤ n) {value : Option B} {popped : List (ι × Option B)}
    (hvalue : ∀ bearer, value = some bearer → s.pc task = .sending bearer index ∧ ∀ other,
      s.ready other ≠ some bearer) : Inv n bearers ({ s with
      ready := update s.ready index value, popped := popped }.goto task .idle) where
  slot := by
    have := h.slot
    have := h.call
    simp only [Mailbox.goto]
    grind
  call := by
    have := h.call
    simp only [Mailbox.goto]
    grind
  unique := by
    have := h.unique
    simp only [Mailbox.goto]
    grind
  spread := by
    apply h.spread_of_reaches hcard
    simp only [Reaches, Mailbox.goto]
    grind
  running := h.running

end

section

variable [DecidableEq B]

theorem Inv.step (h : Inv n bearers s) (hcard : bearers.card ≤ n) {op : Op B ι}
    (hsafe : s.Safe n bearers op) :
    Inv n bearers (s.step n op) := by
  have henter : ∀ (task : ι) (pc : Pc B),
      (∀ bearer index, pc = .sending bearer index → bearer ∈ bearers ∧ index = 0) →
      Inv n bearers (s.enter task pc) := by
    intro task pc hpc
    unfold enter
    split
    · exact h.goto hcard hpc
    · exact h
  cases op with
  | sendReady task bearer =>
    apply henter
    rintro _ _ ⟨⟩
    exact ⟨hsafe, rfl⟩
  | popReady task =>
    apply henter
    rintro _ _ ⟨⟩
  | advance task =>
    show Inv n bearers (s.advance n task)
    unfold advance
    split
    · exact h
    · next bearer index hpc =>
        obtain ⟨hclaim, hpass⟩ := hsafe bearer index hpc
        rw [if_pos (h.in_row hpc)]
        split
        · next hempty =>
            refine h.set hcard fun other hother => ?_
            obtain rfl := Option.some.inj hother
            exact ⟨hpc, hclaim hempty⟩
        next known hknown =>
          split
          · exact h.goto hcard (by simp)
          · next hother => exact h.pass hpc hknown hother (hpass known hknown hother)
    · next index hpc =>
        have hidle : Inv n bearers (s.goto task .idle) := h.goto hcard (by simp)
        split
        · split
          · exact h.goto hcard (by simp)
          · exact h.set hcard (by simp)
        · exact ⟨hidle.slot, hidle.call, hidle.unique, hidle.spread, hidle.running⟩

/-! ## Draining -/

/-- The bearer was popped, or it is in a slot that the task has not looked at in vain. -/
def Waits (n : Nat) (s : Mailbox B ι) (bearer : B) (task : ι) : Prop :=
  (∃ other, (other, some bearer) ∈ s.popped) ∨
    (task, none) ∉ s.popped ∧ ∃ index < n, s.ready index = some bearer ∧ ∀ upto,
      s.pc task = .popping upto → upto ≤ index

theorem Waits.step (h : s.Waits n bearer task) (op : Op B ι) :
    (s.step n op).Waits n bearer task := by
  have henter : ∀ (caller : ι) (pc : Pc B), (∀ upto, pc = .popping upto → upto = 0) →
      (s.enter caller pc).Waits n bearer task := by
    intro caller pc hpc
    unfold enter
    split
    · unfold Waits at *
      simp only [Mailbox.goto]
      grind
    · exact h
  cases op with
  | sendReady caller bearer => exact henter caller _ (by simp)
  | popReady caller => exact henter caller _ (by simp)
  | advance caller =>
  show (s.advance n caller).Waits n bearer task
  unfold advance
  cases hpc : s.pc caller with
  | idle => exact h
  | sending sent index =>
    unfold Waits at *
    cases hready : s.ready index with
    | none =>
      simp only [hready, Mailbox.goto]
      split <;> simp only [update_apply] <;> grind
    | some known =>
      simp only [hready, Mailbox.goto]
      by_cases hknown : known = sent
      · rw [if_pos hknown]
        split <;> simp only <;> grind
      · rw [if_neg hknown]
        split <;> simp only <;> grind
  | popping index =>
    unfold Waits at *
    cases hready : s.ready index with
    | none =>
      simp only [hready, Mailbox.goto]
      split <;> simp only <;> grind
    | some known =>
      simp only [hready, Mailbox.goto]
      split <;> simp only [update_apply] <;> grind

/-- A call of `send_ready` that returns has seen to it that its bearer is in a slot. -/
theorem advance_sent (hpc : s.pc task = .sending bearer index)
    (hreturned : (s.advance n task).pc task = .idle)
    (hrunning : (s.advance n task).aborted = false) :
    ∃ slot < n, (s.advance n task).ready slot = some bearer := by
  have hin : index < n := by
    by_contra hbeyond
    simp [advance, hpc, hbeyond, Mailbox.goto] at hrunning
  simp only [advance, hpc, if_pos hin] at hreturned ⊢
  cases hready : s.ready index with
  | none => exact ⟨index, hin, by simp [Mailbox.goto]⟩
  | some known =>
    by_cases hknown : known = bearer
    · exact ⟨index, hin, by simp [hready, Mailbox.goto, hknown]⟩
    · simp [hready, Mailbox.goto, hknown] at hreturned

/-- In every run in which no bearer is put into a second slot and no call is overtaken, no assertion
fires, a bearer is in one slot at most, and one that a call of `send_ready` announced is popped
before a later `pop_ready` finds nothing. -/
theorem readiness_never_lost (hcard : bearers.card ≤ n) {ops : List (Op B ι)}
    (hrun : Runs.Along (step n) (Safe n bearers) start ops) :
    let s := Runs.exec (step n) start ops
    s.aborted = false ∧
    (∀ index other bearer, s.ready index = some bearer → s.ready other = some bearer →
      index = other) ∧
    (∀ task bearer index, s.pc task = .sending bearer index → s.Safe n bearers (.advance task) →
      (s.advance n task).pc task = .idle →
        ∃ slot < n, (s.advance n task).ready slot = some bearer) ∧
    ∀ bearer, ∀ index < n, s.ready index = some bearer →
      ∀ task, (∀ upto, s.pc task = .popping upto → upto = 0) →
      ∀ later, let t := Runs.exec (step n) { s with popped := [] } later
        (task, none) ∈ t.popped → ∃ other, (other, some bearer) ∈ t.popped := by
  intro s
  have hinv : Inv n bearers s :=
    hrun.invariant (fun _ _ h hsafe => h.step hcard hsafe) (inv_start n bearers)
  refine ⟨hinv.running, hinv.unique, fun task bearer index hpc hsafe hreturned => ?_, ?_⟩
  · exact advance_sent hpc hreturned (hinv.step hcard hsafe).running
  intro bearer index hindex hready task hpc later t hdrained
  have hstart : ({ s with popped := [] } : Mailbox B ι).Waits n bearer task :=
    .inr ⟨List.not_mem_nil, index, hindex, hready, fun upto hupto =>
      (hpc upto hupto) ▸ Nat.zero_le index⟩
  have hwaits : t.Waits n bearer task :=
    Runs.invariant (P := fun s : Mailbox B ι => s.Waits n bearer task) (fun _ op h => h.step op)
      hstart later
  exact hwaits.resolve_right fun hleft => hleft.1 hdrained

/-- One task that makes one call after another, with so many accesses each. -/
def calls (ops : List (Op Nat Unit × Nat)) : List (Op Nat Unit) :=
  ops.flatMap fun op => op.1 :: List.replicate op.2 (.advance ())

/-- Two bearers announce themselves. -/
theorem readiness_never_lost_two :
    let s := Runs.exec (step 2) start (calls [(.sendReady () 1, 1), (.sendReady () 2, 2)])
    ∀ later, let t := Runs.exec (step 2) { s with popped := [] } later
      ((), none) ∈ t.popped → ∃ other, (other, some 2) ∈ t.popped := by
  have hrun : Runs.Along (step 2) (Safe 2 {1, 2}) start
      (calls [(.sendReady () 1, 1), (.sendReady () 2, 2)]) := by
    simp [calls, Runs.Along, Safe, step, enter, advance, start, Mailbox.goto, update_apply]
  refine (readiness_never_lost (by decide) hrun).2.2.2 2 1 (by decide) rfl () fun upto hupto => ?_
  cases (hupto : Pc.idle = _)

/-- The first bearer is popped, the second announces itself again and takes its slot too. Then the
first finds none. -/
theorem duplicate_aborts :
    let s := Runs.exec (step 2) start
      (calls [(.sendReady () 1, 1), (.sendReady () 2, 2), (.popReady (), 1), (.sendReady () 2, 1)])
    s.ready 0 = some 2 ∧ s.ready 1 = some 2 ∧
      (Runs.exec (step 2) s (calls [(.sendReady () 1, 3)])).aborted = true :=
  ⟨rfl, rfl, rfl⟩

end

end Mailbox

end QuicLite.ReadyMailbox
