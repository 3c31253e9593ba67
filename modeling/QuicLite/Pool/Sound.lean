import QuicLite.Pool.Invariant

/-!
# Slots stay usable across resizing

Consequences of the invariant, over whole runs: slots below the capacity can be acquired, slots
above it lose their buffers with the next resize, nothing that is held is freed, nothing is freed
twice, and nothing leaks. The run in which a growth is disturbed stands at the end.
-/

namespace QuicLite

open List Option Function Nat

namespace HeapPool

variable {buffer : Nat}

section Preservation

variable {size : PoolSize} {s : State} {s' : State} {current target next : Nat}

/-! ## Buffers of live slots stay -/

/-- The owner holds nothing and has published nothing. -/
def Owner.entry : Owner → Bool
  | .idle | .countLeases .. | .countWriters .. | .countWriterBuffer .. | .choose .. | .reserve ..
    | .shrinkLock ..
  | .returned .. => true
  | _ => false

/-- A call of the owner was entered or left. -/
structure Enters (s s' : State) : Prop where
  rest : s' = { s with owner := s'.owner, budget := s'.budget }
  entry : s'.owner.entry = true

variable (s)

theorem resize_enters (target : Nat) : Enters s (s.resize size target) := by
  unfold State.resize
  split_ifs <;> exact ⟨rfl, rfl⟩

theorem resizeNext_enters (next admitted : Nat) : Enters s (s.resizeNext size next admitted) := by
  unfold State.resizeNext
  split_ifs
  · exact ⟨rfl, rfl⟩
  · have henter : Enters { s with budget := some (next + 1, admitted) } (.resize size _ next) :=
      resize_enters _ next
    exact ⟨by rw [henter.rest], henter.entry⟩

theorem resizeWithBudget_enters (target availableBytes reserveBytes : Nat) :
    Enters s (s.resizeWithBudget size target availableBytes reserveBytes) := by
  unfold State.resizeWithBudget
  split_ifs
  · exact ⟨rfl, rfl⟩
  · exact resize_enters s target
  · exact resizeNext_enters s _ _

theorem maintainFree_enters (inUse : Nat) (request : FreeRequest) :
    Enters s (s.maintainFree size inUse request) := by
  unfold State.maintainFree
  simp only
  split_ifs
  · exact resize_enters s _
  · exact ⟨rfl, rfl⟩
  · exact resizeWithBudget_enters s _ _ _

theorem call_enters (c : Call) : Enters s (s.call size c) := by
  cases c with
  | resize => exact resize_enters s ..
  | resizeWithBudget target availableBytes reserveBytes => exact resizeWithBudget_enters s _ _ _
  | maintainFree request =>
    simp only [State.call]
    split_ifs <;> exact ⟨rfl, rfl⟩

variable {s}

variable {slot : Nat}

/-- A step empties at most the slot its agent has marked, and fills at most one that had no
buffer. -/
theorem Inv.buffers_step (h : Inv size s) (action : Action)
    (hlive : s.leases slot ≠ 0 ∨ s.writers slot ≠ 0) :
    (step size s action).buffers slot = s.buffers slot := by
  obtain ⟨hmarked, hword⟩ := h.word_of_live hlive
  obtain ⟨hsome, -⟩ := hword.of_live hlive
  cases action with
  | call c =>
    simp only [step]
    split
    · rw [(call_enters s c).rest]
    · rfl
  | begin id op =>
    simp only [step]
    split
    · cases op <;> simp only [State.begin] <;> split_ifs <;> rfl
    · rfl
  | task id =>
    simp only [step]
    cases htask : s.tasks id with
    | retire other stage =>
      cases stage with
      | mark =>
        simp only [State.taskStep, htask]
        rfl
      | swap =>
        have hlock := (h.task_guards htask rfl).1
        have hne : slot ≠ other := by
          rintro rfl
          apply hmarked
          rw [critical_of_task hlock, htask]
          rfl
        simp only [State.taskStep, htask, State.swapOut, State.setTask, update_of_ne hne]
    | _ =>
      simp only [State.taskStep, htask]
      repeat' split
      all_goals rfl
  | owner allocated =>
    simp only [step]
    have hok := h.owner
    cases howner : s.owner with
    | retire current target other loop stage =>
      cases stage with
      | mark =>
        simp only [State.ownerStep, howner]
        rfl
      | swap =>
        have hlock := (h.owner_guards howner rfl).1
        have hne : slot ≠ other := by
          rintro rfl
          apply hmarked
          rw [critical_of_owner hlock, howner]
          rfl
        simp only [State.ownerStep, howner, State.swapOut, State.setOwner, update_of_ne hne]
    | publishBuffer current target other buffer pending =>
      rw [howner] at hok
      have hne : slot ≠ other := by
        rintro rfl
        rw [(hok.2.2.2.empty slot mem_cons_self).2.2] at hsome
        cases hsome
      simp only [State.ownerStep, howner, State.setOwner, update_of_ne hne]
    | choose count request =>
      simp only [State.ownerStep, howner]
      rw [(maintainFree_enters s count request).rest]
    | returned current result =>
      simp only [State.ownerStep, howner]
      split
      · rw [(resizeNext_enters s _ _).rest]
      · rfl
    | _ =>
      simp only [State.ownerStep, howner]
      repeat' split
      all_goals rfl

theorem Inv.freed_not_live (h : Inv size s) {action : Action} (hundisturbed : Undisturbed s action)
    (hbuffer : s.buffers slot = some buffer) (hfreed : buffer ∈ (step size s action).freed) :
    s.leases slot = 0 ∧ s.writers slot = 0 := by
  by_contra hlive
  have hlive : s.leases slot ≠ 0 ∨ s.writers slot ≠ 0 := by omega
  have hafter := step_inv h hundisturbed
  have hkept := (h.buffers_step action hlive).trans hbuffer
  have hslot : slot < size.maxSlots := by
    by_contra hout
    rw [h.outside slot (Nat.le_of_not_lt hout)] at hbuffer
    cases hbuffer
  have htable : buffer ∈ table size (step size s action).buffers :=
    mem_filterMap.mpr ⟨slot, mem_range.mpr hslot, hkept⟩
  have hnodup := hafter.ledger.nodup_iff.mpr nodup_range
  exact disjoint_of_nodup_append hnodup (mem_append_left _ htable) hfreed

/-! ## Slots above the capacity -/

/-- The resize that holds the guard reaches beyond the slot. -/
def Owner.beyond (slot : Nat) : Owner → Bool
  | .publish _ target _ | .publishBuffer _ target _ _ _ | .publishReference _ target _ _
    | .publishDrop _ target _ _
  | .storeCapacity _ target | .sweep _ target _ | .reclaim _ target _ | .reclaimBuffer _ target _
  | .retire _ target _ _ _ => decide (slot < target)
  | _ => false

/-- The reclaiming loop is past the slot. -/
def Owner.passed (slot : Nat) : Owner → Bool
  | .reclaim _ _ next | .reclaimBuffer _ _ next
    | .retire _ _ next .reclaim _ => decide (slot < next)
  | .unlock _ => true
  | _ => false

/-- What is known of a slot without handles while no resize has completed: one that reaches beyond
it has the guard, or it is still above the capacity, without handles, and without a buffer once the
loop is past it. -/
def Awaits (slot : Nat) (s : State) : Prop :=
  (s.owner.beyond slot = true ∨ (∃ current, s.owner = .unlock current) ∧ slot < s.capacity) ∨
    s.capacity ≤ slot ∧ s.leases slot = 0 ∧ s.writers slot = 0 ∧
      (s.owner.passed slot = true → s.buffers slot = none)

/-- Steps of others keep it: they take no slot above the capacity, and give nobody a buffer. -/
theorem Awaits.of_others (h : Awaits slot s) (howner : s'.owner = s.owner)
    (hcapacity : s'.capacity = s.capacity)
    (hbuffers : s'.buffers slot = s.buffers slot ∨ s'.buffers slot = none)
    (hhandles : s.capacity ≤ slot → s.leases slot = 0 → s.writers slot = 0 →
      s'.leases slot = 0 ∧ s'.writers slot = 0) : Awaits slot s' := by
  unfold Awaits
  rw [howner, hcapacity]
  refine h.imp_right ?_
  rintro ⟨habove, hleases, hwriters, hpassed⟩
  obtain ⟨hleases', hwriters'⟩ := hhandles habove hleases hwriters
  refine ⟨habove, hleases', hwriters', fun hp => ?_⟩
  rcases hbuffers with hsame | hnone
  · rw [hsame]
    exact hpassed hp
  · exact hnone

theorem Owner.not_beyond_of_entry {owner : Owner} (h : owner.entry = true) (slot : Nat) :
    owner.beyond slot = false ∧ owner.passed slot = false := by
  cases owner <;> first | exact ⟨rfl, rfl⟩ | cases h

theorem Awaits.enters (h : Awaits slot s) (hentry : s.owner.entry = true)
    (henters : Enters s s') : Awaits slot s' := by
  rcases h with (h | ⟨⟨_, h⟩, -⟩) | ⟨habove, hleases, hwriters, -⟩
  · rw [(Owner.not_beyond_of_entry hentry slot).1] at h
    cases h
  · rw [h] at hentry
    cases hentry
  rw [henters.rest]
  refine .inr ⟨habove, hleases, hwriters, fun hp => ?_⟩
  rw [(Owner.not_beyond_of_entry henters.entry slot).2] at hp
  cases hp

theorem Awaits.begin (h : Awaits slot s) (id : Nat) (op : TaskOp) :
    Awaits slot (s.begin size id op) := by
  cases op with
  | acquireWriter headroom reserved =>
    simp only [State.begin]
    split_ifs <;> exact h
  | commit other =>
    simp only [State.begin]
    split_ifs with hwriter
    · exact h
    refine h.of_others rfl rfl (.inl rfl) fun _ hleases hwriters => ?_
    have hne : slot ≠ other := by
      rintro rfl
      exact hwriter hwriters
    exact ⟨(update_of_ne hne ..).trans hleases, (update_of_ne hne ..).trans hwriters⟩
  | dropWriter other =>
    simp only [State.begin]
    split_ifs with hwriter
    · exact h
    refine h.of_others rfl rfl (.inl rfl) fun _ hleases hwriters => ⟨hleases, ?_⟩
    have hne : slot ≠ other := by
      rintro rfl
      exact hwriter hwriters
    exact (update_of_ne hne ..).trans hwriters
  | clone other =>
    simp only [State.begin]
    split_ifs with hlease
    · exact h
    · refine h.of_others rfl rfl (.inl rfl) fun _ hleases hwriters => ⟨?_, hwriters⟩
      have hne : slot ≠ other := by
        rintro rfl
        exact hlease hleases
      exact (update_of_ne hne ..).trans hleases
    · exact h.of_others rfl rfl (.inl rfl) fun _ hleases hwriters => ⟨hleases, hwriters⟩
  | dropLease other =>
    simp only [State.begin]
    split_ifs with hlease
    · exact h
    all_goals
      refine h.of_others rfl rfl (.inl rfl) fun _ hleases hwriters => ⟨?_, hwriters⟩
      have hne : slot ≠ other := by
        rintro rfl
        exact hlease hleases
      exact (update_of_ne hne ..).trans hleases

theorem Awaits.taskStep (hinv : Inv size s) (h : Awaits slot s) (id : Nat) :
    Awaits slot (s.taskStep id) := by
  have hok := hinv.tasks id
  cases htask : s.tasks id with
  | claim reserved other =>
    rw [htask] at hok
    simp only [State.taskStep, htask]
    refine h.of_others rfl rfl (.inl rfl) fun habove hleases hwriters => ⟨hleases, ?_⟩
    have hlt := hok.1
    exact (update_of_ne (show slot ≠ other by omega) ..).trans hwriters
  | retire other stage =>
    cases stage with
    | mark =>
      simp only [State.taskStep, htask]
      exact h.of_others rfl rfl (.inl rfl) fun _ hleases hwriters => ⟨hleases, hwriters⟩
    | swap =>
      simp only [State.taskStep, htask]
      refine h.of_others rfl rfl ?_ fun _ hleases hwriters => ⟨hleases, hwriters⟩
      simp only [State.setTask, State.swapOut, update_apply]
      split_ifs
      · exact .inr rfl
      · exact .inl rfl
  | _ =>
    simp only [State.taskStep, htask]
    repeat' split
    all_goals exact h.of_others rfl rfl (.inl rfl) fun _ hleases hwriters => ⟨hleases, hwriters⟩

section

variable {s' : State} (h : Awaits slot s) {old : Owner} (howner : s.owner = old)
  (hunlock : ∀ current, old ≠ .unlock current) (hcapacity : s'.capacity = s.capacity)
  (hleases : s'.leases = s.leases) (hwriters : s'.writers = s.writers)
include h howner hunlock hcapacity hleases hwriters

/-- A move of the owner that leaves capacity and handles alone. -/
theorem Awaits.move (hbeyond : old.beyond slot = true →
      s'.owner.beyond slot = true ∨ (∃ current, s'.owner = .unlock current) ∧ slot < s.capacity)
    (hbuffers : s.leases slot = 0 → s.writers slot = 0 →
      (old.passed slot = true → s.buffers slot = none) →
      s'.owner.passed slot = true → s'.buffers slot = none) :
    Awaits slot s' := by
  subst howner
  unfold Awaits
  rw [hcapacity, hleases, hwriters]
  rcases h with (h | ⟨⟨current, h⟩, -⟩) | ⟨habove, hl, hw, hpassed⟩
  · exact .inl (hbeyond h)
  · exact absurd h (hunlock current)
  · exact .inr ⟨habove, hl, hw, hbuffers hl hw hpassed⟩

theorem Awaits.early
    (hbeyond : old.beyond slot = true → s'.owner.beyond slot = true)
    (hpassed : s'.owner.passed slot = false) :
    Awaits slot s' := by
  refine h.move howner hunlock hcapacity hleases hwriters (fun hb =>
    .inl (hbeyond hb)) fun _ _ _ hp => ?_
  rw [hpassed] at hp
  cases hp

end

theorem Awaits.reclaimStep (hinv : Inv size s) (h : Awaits slot s)
    (howner : s.owner = .reclaim current target next) (allocated : Bool) :
    Awaits slot (s.ownerStep size allocated) := by
  obtain ⟨hlock, hcritical : s.critical = .rest⟩ := hinv.owner_guards howner rfl
  have hok := hinv.owner
  rw [howner] at hok
  simp only [State.ownerStep, howner]
  split_ifs with hnext hzero
  · refine h.move howner (by simp) rfl rfl rfl .inl ?_
    exact fun _ _ hpassed => hpassed
  · refine h.move howner (by simp) rfl rfl rfl .inl ?_
    intro hleases hwriters hpassed hp
    rcases Nat.lt_succ_iff_lt_or_eq.mp (of_decide_eq_true hp) with hlt | rfl
    · exact hpassed (decide_eq_true hlt)
    -- the word is not zero and there are no handles: there is no buffer
    have hword := (hinv.slots slot).word (by rw [hcritical]; simp)
    rw [hleases, hwriters] at hword
    show s.buffers slot = none
    cases hbuffer : s.buffers slot with
    | none => rfl
    | some buffer =>
      rw [hbuffer] at hword
      rcases hword with ⟨-, -, hone⟩ | ⟨hsame, -⟩
      · cases hone
      · exact absurd hsame hzero
  · refine h.move howner (by simp) rfl rfl rfl ?_ ?_
    · intro hbeyond
      exact .inr ⟨⟨current, rfl⟩, hok.1 ▸ of_decide_eq_true hbeyond⟩
    intro _ _ hpassed _
    rcases lt_or_ge slot next with hlt | hge
    · exact hpassed (decide_eq_true hlt)
    · exact hinv.outside slot (by omega)

theorem Awaits.retireStep {loop : RetireLoop} {stage : RetireStage}
    (h : Awaits slot s) (howner : s.owner = .retire current target next loop stage)
    (allocated : Bool) :
    Awaits slot (s.ownerStep size allocated) := by
  cases stage with
  | mark =>
    simp only [State.ownerStep, howner]
    refine h.move howner (by simp) rfl rfl rfl .inl ?_
    cases loop with
    | sweep =>
      rintro _ _ _ ⟨⟩
    | reclaim => exact fun _ _ hpassed => hpassed
  | swap =>
    simp only [State.ownerStep, howner]
    cases loop with
    | sweep => exact h.early howner (by simp) rfl rfl rfl id rfl
    | reclaim =>
      refine h.move howner (by simp) rfl rfl rfl .inl ?_
      intro _ _ hpassed hp
      simp only [State.setOwner, State.swapOut, Function.update_apply]
      rcases Nat.lt_succ_iff_lt_or_eq.mp (of_decide_eq_true hp) with hlt | rfl
      · rw [hpassed (decide_eq_true hlt), ite_self]
      · rw [if_pos rfl]

theorem Awaits.ownerStep (hinv : Inv size s) (h : Awaits slot s) (allocated : Bool)
    (hresized : (s.ownerStep size allocated).resized = s.resized) :
    Awaits slot (s.ownerStep size allocated) := by
  have hok := hinv.owner
  cases howner : s.owner with
  | idle =>
    simp only [State.ownerStep, howner]
    exact h
  | countLeases other count request =>
    simp only [State.ownerStep, howner]
    split_ifs <;> exact h.enters (by rw [howner]; rfl) ⟨rfl, rfl⟩
  | countWriters other count request =>
    simp only [State.ownerStep, howner]
    split_ifs <;> exact h.enters (by rw [howner]; rfl) ⟨rfl, rfl⟩
  | countWriterBuffer other count request =>
    simp only [State.ownerStep, howner]
    exact h.enters (by rw [howner]; rfl) ⟨rfl, rfl⟩
  | choose count request =>
    simp only [State.ownerStep, howner]
    exact h.enters (by rw [howner]; rfl) (maintainFree_enters s count request)
  | returned current result =>
    simp only [State.ownerStep, howner]
    split
    · exact h.enters (by rw [howner]; rfl) (resizeNext_enters s _ _)
    · exact h.enters (by rw [howner]; rfl) ⟨rfl, rfl⟩
  | unlock current =>
    simp [State.ownerStep, howner, State.setOwner] at hresized
  | reserve | scan | allocate | shrinkLock | growLock =>
    simp only [State.ownerStep, howner]
    repeat' split
    all_goals
      first
      | exact h
      | exact h.early howner (by simp) rfl rfl rfl (by simp [Owner.beyond]) rfl
  | abandon current pending =>
    simp only [State.ownerStep, howner]
    split <;> exact h.early howner (by simp) rfl rfl rfl (by simp [Owner.beyond]) rfl
  | publish current target pending =>
    simp only [State.ownerStep, howner]
    repeat' split
    all_goals exact h.early howner (by simp) rfl rfl rfl id rfl
  | publishBuffer current target other buffer pending =>
    simp only [State.ownerStep, howner]
    exact h.early howner (by simp) rfl rfl rfl id rfl
  | publishReference current target other pending =>
    simp only [State.ownerStep, howner]
    exact h.early howner (by simp) rfl rfl rfl id rfl
  | publishDrop current target buffer pending =>
    rw [howner] at hok
    exact hok.elim
  | storeCapacity current target =>
    simp only [State.ownerStep, howner]
    rcases h with (h | ⟨⟨_, h⟩, -⟩) | ⟨-, hleases, hwriters, -⟩
    · rw [howner] at h
      refine .inl (.inl ?_)
      split_ifs <;> exact h
    · rw [howner] at h
      cases h
    rcases lt_or_ge slot target with hlt | hge
    · refine .inl (.inl ?_)
      split_ifs <;> exact decide_eq_true hlt
    refine .inr ⟨hge, hleases, hwriters, fun hp => ?_⟩
    split_ifs at hp
    · exact absurd (of_decide_eq_true hp) (not_lt.mpr hge)
    · cases hp
  | sweep current target next =>
    simp only [State.ownerStep, howner]
    split_ifs
    · exact h.early howner (by simp) rfl rfl rfl id rfl
    · exact h.early howner (by simp) rfl rfl rfl id rfl
    rcases lt_or_ge slot target with hlt | hge
    · exact .inl (.inl (decide_eq_true hlt))
    · exact h.early howner (by simp) rfl rfl rfl id
        (decide_eq_false (not_lt.mpr hge))
  | reclaim current target next => exact h.reclaimStep hinv howner allocated
  | reclaimBuffer current target next =>
    simp only [State.ownerStep, howner]
    split_ifs with hsome
    · refine h.move howner (by simp) rfl rfl rfl .inl ?_
      exact fun _ _ hpassed => hpassed
    refine h.move howner (by simp) rfl rfl rfl .inl ?_
    intro _ _ hpassed hp
    rcases Nat.lt_succ_iff_lt_or_eq.mp (of_decide_eq_true hp) with hlt | rfl
    · exact hpassed (decide_eq_true hlt)
    · exact Option.not_isSome_iff_eq_none.mp hsome
  | retire current target next loop stage => exact h.retireStep howner allocated

theorem Awaits.step (hinv : Inv size s) (h : Awaits slot s) (action : Action)
    (hresized : (step size s action).resized = s.resized) : Awaits slot (step size s action) := by
  cases action with
  | call c =>
    simp only [HeapPool.step]
    split
    · rename_i hidle
      exact h.enters (by rw [hidle]; rfl) (call_enters s c)
    · exact h
  | owner allocated => exact h.ownerStep hinv allocated hresized
  | begin id op =>
    simp only [HeapPool.step]
    split
    · exact h.begin id op
    · exact h
  | task => exact h.taskStep hinv ..

/-- Only the end of a resize counts one. -/
theorem resized_step (size : PoolSize) (s : State) (action : Action) :
    (step size s action).resized = s.resized ∨ (∃ current, s.owner = .unlock current) ∧
      (step size s action).resized = s.resized + 1 ∧ (step size s action).capacity = s.capacity ∧
        (step size s action).buffers = s.buffers := by
  cases action with
  | call c =>
    simp only [step]
    split
    · left
      rw [(call_enters s c).rest]
    · exact .inl rfl
  | begin id op =>
    left
    simp only [step]
    split
    · cases op <;> simp only [State.begin] <;> split_ifs <;> rfl
    · rfl
  | task id =>
    left
    simp only [step]
    cases htask : s.tasks id with
    | retire other stage => cases stage <;> simp only [State.taskStep, htask] <;> rfl
    | _ =>
      simp only [State.taskStep]
      repeat' split
      all_goals rfl
  | owner allocated =>
    simp only [step]
    cases howner : s.owner with
    | unlock current =>
      right
      simp only [State.ownerStep, howner]
      exact ⟨⟨current, rfl⟩, rfl, rfl, rfl⟩
    | choose count request =>
      left
      simp only [State.ownerStep, howner]
      rw [(maintainFree_enters s count request).rest]
    | returned current result =>
      left
      simp only [State.ownerStep, howner]
      split
      · rw [(resizeNext_enters s _ _).rest]
      · rfl
    | retire current target other loop stage =>
      left
      cases stage <;> simp only [State.ownerStep, howner] <;> rfl
    | _ =>
      left
      simp only [State.ownerStep, howner]
      repeat' split
      all_goals rfl

theorem awaits_of_run {s : State} (hinv : Inv size s) (h : Awaits slot s) {later : List Action}
    (hrun : Runs.Along (step size) Undisturbed s later) :
    Inv size (Runs.exec (step size) s later) ∧ s.resized ≤ (Runs.exec (step size) s later).resized ∧
      ((Runs.exec (step size) s later).resized = s.resized →
        Awaits slot (Runs.exec (step size) s later)) := by
  refine Runs.Along.invariant (P := fun t => Inv size t ∧ s.resized ≤ t.resized ∧
    (t.resized = s.resized → Awaits slot t))
    ?_ ⟨hinv, le_refl _, fun _ => h⟩ hrun
  rintro t action ⟨hinv, hle, hawaits⟩ hundisturbed
  refine ⟨step_inv hinv hundisturbed, ?_, fun heq => ?_⟩
  · rcases resized_step size t action with hsame | ⟨-, hmore, -⟩ <;> omega
  have hsame : (step size t action).resized = t.resized := by
    rcases resized_step size t action with hsame | ⟨-, hmore, -⟩ <;> omega
  exact (hawaits (hsame ▸ heq)).step hinv action hsame

end Preservation

/-! ## The pool -/

/-- What holds of every state of a pool. -/
structure PoolSound (size : PoolSize) (s : State) : Prop where
  /-- A slot below the capacity has a buffer, and its word says who has it. -/
  usable : Quiescent s → s.lock = none ∧ ∀ slot, slot < s.capacity → (s.buffers slot).isSome ∧
      (s.leases slot = 0 → s.writers slot = 0 → s.references slot = 0) ∧
      (s.writers slot ≠ 0 → s.references slot = writerMark ∧ s.writers slot = 1 ∧
        s.leases slot = 0) ∧
      (s.leases slot ≠ 0 → s.references slot = s.leases slot ∧ s.writers slot = 0)
  /-- A slot above it has handles, or loses its buffer with the next resize that completes and
  leaves it there. -/
  reclaimed : Quiescent s → ∀ slot, s.capacity ≤ slot → (s.leases slot ≠ 0 ∨ s.writers slot ≠ 0) ∨
    ∀ later action, Runs.Along (step size) Undisturbed s later →
      (Runs.exec (step size) s later).resized = s.resized →
      (step size (Runs.exec (step size) s later) action).resized = s.resized + 1 →
      (step size (Runs.exec (step size) s later) action).capacity ≤ slot →
      (step size (Runs.exec (step size) s later) action).buffers slot = none
  /-- The buffer of a slot with handles is not freed. -/
  live : ∀ slot, s.leases slot ≠ 0 ∨ s.writers slot ≠ 0 → ∃ buffer, s.buffers slot = some buffer ∧
    buffer ∉ s.freed
  /-- What a step frees belonged to no such slot. -/
  frees : ∀ action, Undisturbed s action → ∀ slot buffer, s.buffers slot = some buffer →
    buffer ∈ (step size s action).freed → s.leases slot = 0 ∧ s.writers slot = 0
  once : s.freed.Nodup
  /-- A resize that fails leaves the capacity it found; every buffer ever allocated is in the table
  or freed. -/
  failed : ∀ current error, s.owner = .returned current (.error error) →
    s.capacity = current ∧ (table size s.buffers ++ s.freed).Perm (range s.nextBuffer)
  /-- A writer is taken from a free slot while more than the reserved number are free. -/
  acquires : ∀ id reserved slot, s.tasks id = .claim reserved slot →
    slot < s.capacity ∧ s.references slot = 0 ∧ (s.buffers slot).isSome ∧ s.leases slot = 0 ∧
      s.writers slot = 0 ∧
      reserved < free s.references s.capacity

namespace Inv

variable {size : PoolSize} {s : State}

theorem lock_of_quiescent (h : Inv size s) (hquiet : Quiescent s) : s.lock = none := by
  rcases hlock : s.lock with _ | agent
  · rfl
  have hholds := (h.guard agent).mpr hlock
  cases agent with
  | owner =>
    rw [State.holds, hquiet.1] at hholds
    cases hholds
  | task id =>
    rw [State.holds, hquiet.2 id] at hholds
    cases hholds

theorem buffer_not_freed (h : Inv size s) {slot : Nat} (hbuffer : s.buffers slot = some buffer) :
    buffer ∉ s.freed := by
  intro hfreed
  have hslot : slot < size.maxSlots := by
    by_contra hout
    rw [h.outside slot (Nat.le_of_not_lt hout)] at hbuffer
    cases hbuffer
  have htable : buffer ∈ table size s.buffers :=
    mem_filterMap.mpr ⟨slot, mem_range.mpr hslot, hbuffer⟩
  have hnodup := h.ledger.nodup_iff.mpr nodup_range
  exact disjoint_of_nodup_append hnodup (mem_append_left _ htable) hfreed

theorem sound (h : Inv size s) : PoolSound size s where
  usable := by
    intro hquiet
    have hlock := h.lock_of_quiescent hquiet
    refine ⟨hlock, fun slot hslot => ?_⟩
    have hword := (h.slots slot).word (by simp [State.critical, hlock])
    obtain ⟨buffer, hbuffer⟩ := isSome_iff_exists.mp (h.backed slot hslot)
    rw [hbuffer] at hword ⊢
    refine ⟨rfl, fun hleases hwriters => ?_, fun hwriter => ?_, fun hlease => ?_⟩
    · rcases hword with ⟨-, -, hone⟩ | ⟨hsame, -⟩
      · omega
      · exact hsame.trans hleases
    · rcases hword with ⟨hmark, hleases, hone⟩ | ⟨-, -, hnone⟩
      · exact ⟨hmark, hone, hleases⟩
      · exact absurd hnone hwriter
    · obtain ⟨hsame, -, hnone⟩ := hword.of_lease hlease
      exact ⟨hsame, hnone⟩
  reclaimed := by
    intro hquiet slot habove
    by_cases hlive : s.leases slot ≠ 0 ∨ s.writers slot ≠ 0
    · exact .inl hlive
    right
    intro later action hrun hsame hnext hbelow
    have hstart : Awaits slot s := by
      refine .inr ⟨habove, by omega, by omega, ?_⟩
      rw [hquiet.1]
      rintro ⟨⟩
    obtain ⟨-, -, hawaits⟩ := awaits_of_run h hstart hrun
    rcases resized_step size (Runs.exec (step size) s later) action with hstill |
      ⟨⟨current, hunlock⟩, -, hcap, hbuf⟩
    · omega
    rw [hbuf]
    rcases hawaits hsame with (hbeyond | ⟨-, hlt⟩) | ⟨-, -, -, hpassed⟩
    · rw [hunlock] at hbeyond
      cases hbeyond
    · omega
    apply hpassed
    rw [hunlock]
    rfl
  live := by
    intro slot hlive
    obtain ⟨hsome, -⟩ := (h.word_of_live hlive).2.of_live hlive
    obtain ⟨buffer, hbuffer⟩ := isSome_iff_exists.mp hsome
    exact ⟨buffer, hbuffer, h.buffer_not_freed hbuffer⟩
  frees := fun action hundisturbed slot buffer => h.freed_not_live hundisturbed
  once := by
    have hnodup := h.ledger.nodup_iff.mpr nodup_range
    exact (nodup_append.mp hnodup).2.1
  failed := by
    intro current error howner
    have hok := h.owner
    have hledger := h.ledger
    rw [howner] at hok hledger
    refine ⟨hok, ?_⟩
    simpa [Owner.pending] using hledger
  acquires := by
    intro id reserved slot htask
    have hlock := (h.task_guards htask rfl).1
    have hok := h.tasks id
    rw [htask] at hok
    obtain ⟨hzero, hsome, hleases, hwriters⟩ :=
      h.word_of_zero (by rw [critical_of_task hlock, htask]; rfl)
    exact ⟨hok.1, hzero, hsome, hleases, hwriters, hok.2⟩

end Inv

/-- In every state that an undisturbed run reaches, whatever the interleaving. -/
theorem pool_sound_of_run (size : PoolSize) (actions : List Action)
    (hrun : Runs.Along (step size) Undisturbed new actions) :
    PoolSound size (Runs.exec (step size) new actions) := by
  have hinv : Inv size (Runs.exec (step size) new actions) :=
    Runs.Along.invariant (P := Inv size) (fun _ _ h hundisturbed => step_inv h hundisturbed)
      (new_inv size) hrun
  exact hinv.sound

/-! ## A growth that is disturbed -/

/-- A pool of one slot. -/
def oneSlot : PoolSize := ⟨1, 64, by decide⟩

def ownerSteps (count : Nat) : List Action := replicate count (.owner true)

def taskSteps (count : Nat) : List Action := replicate count (.task 0)

/-- The slot is leased, retired with its lease alive, and about to be grown again: growth finds its
buffer and allocates none. -/
def leasedThenGrown : List Action :=
  .call (.resize 1) :: ownerSteps 13 ++ .begin 0 (.acquireWriter 0 0) :: taskSteps 7 ++
    .begin 0 (.commit 0) :: .call (.resize 0) :: ownerSteps 8 ++ .call (.resize 1) :: ownerSteps 3

theorem leasedThenGrown_sound : Runs.Along (step oneSlot) Undisturbed new leasedThenGrown ∧
    PoolSound oneSlot (Runs.exec (step oneSlot) new leasedThenGrown) :=
  ⟨by decide +kernel, pool_sound_of_run oneSlot leasedThenGrown (by decide +kernel)⟩

/-- The lease is dropped before growth has the guard: the slot is below the capacity and has no
buffer, though nothing is in progress. -/
theorem dead_slot_after_growth :
    ¬∀ actions, PoolSound oneSlot (Runs.exec (step oneSlot) new actions) := by
  intro h
  have hsound := h (leasedThenGrown ++ .begin 0 (.dropLease 0) :: taskSteps 7 ++ ownerSteps 8)
  obtain ⟨-, husable⟩ := hsound.usable ⟨by decide +kernel, by
    intro id
    cases id with
    | zero => decide +kernel
    | succ id => rfl⟩
  have hbuffer := (husable 0 (by decide +kernel)).1
  revert hbuffer
  decide +kernel

end HeapPool

end QuicLite
