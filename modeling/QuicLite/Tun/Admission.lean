import QuicLite.Tun.Manager

/-!
# What the flow table admits

Three things depend on the order of the steps. The limit is compared with a count that is taken
shard by shard, before the lock under which the flow is entered. The SYN of a flow is queued by its
task, while the flow can be looked up from its entry on. Both work out in runs in which no caller
enters a flow between the count and the entry of another (`Limited`), and no packet is looked up
between the entry of its flow and the queueing of the SYN (`Ordered`). Two other runs show that they
do not work out in general.
-/

namespace QuicLite.Tun.Manager

open Packet List Option Function Nat State

/-! ## The limit -/

/-- Between the first shard that a caller counts and its entry. -/
def Pc.admitting : Pc → Bool
  | .len _ _ _ | .insert _ => true
  | _ => false

section Limit

variable {ι : Type} {config : TcpProxyConfig} {s s' : State ι}

/-- A caller that counts has missed nothing that is in the shards behind it. -/
structure Limited (config : TcpProxyConfig) (s : State ι) : Prop where
  limit : s.table.entries ≤ config.maxFlows
  counting : ∀ i job shard sum, s.callers i = .len job shard sum →
    shard < flowTableShards ∧ ∑ k ∈ Finset.range shard, s.table.count k ≤ sum
  admitted : ∀ i job, s.callers i = .insert job → s.table.entries < config.maxFlows

theorem Limited.of_shrink (h : Limited config s) (hcallers : s'.callers = s.callers)
    (hcount : ∀ n, ∑ k ∈ Finset.range n, s'.table.count k ≤ ∑ k ∈ Finset.range n, s.table.count k) :
    Limited config s' := by
  refine ⟨le_trans (hcount _) h.limit, fun i job shard sum hi => ?_, fun i job hi => ?_⟩
  · rw [hcallers] at hi
    obtain ⟨hshard, hsum⟩ := h.counting i job shard sum hi
    exact ⟨hshard, le_trans (hcount shard) hsum⟩
  · rw [hcallers] at hi
    exact lt_of_le_of_lt (hcount _) (h.admitted i job hi)

theorem limited_new : Limited config (new : State ι) := by
  refine ⟨?_, fun i job shard sum hi => (by cases hi), fun i job hi => (by cases hi)⟩
  show ∑ shard ∈ Finset.range flowTableShards, (0 : Nat) ≤ _
  exact zero_le _

variable [DecidableEq ι]

/-- What holds of a caller after one of them moved held of it before, or it is the one that
moved. -/
theorem update_cases {callers : ι → Pc} {i j : ι} {pc : Pc} {P : Pc → Prop}
    (h : P (update callers i pc j)) :
    (j = i ∧ P pc) ∨ (j ≠ i ∧ P (callers j)) := by
  by_cases heq : j = i
  · rw [heq, update_self] at h
    exact .inl ⟨heq, h⟩
  · rw [update_of_ne heq] at h
    exact .inr ⟨heq, h⟩

section

variable (h : Limited config s)
include h

section

variable (htable : s'.table = s.table)
include htable

theorem Limited.moved {i : ι} {pc : Pc} (hcallers : s'.callers = update s.callers i pc)
    (hcounting : ∀ job shard sum, pc = .len job shard sum →
      shard < flowTableShards ∧ ∑ k ∈ Finset.range shard, s.table.count k ≤ sum)
    (hadmitted : ∀ job, pc = .insert job → s.table.entries < config.maxFlows) :
    Limited config s' := by
  refine ⟨htable ▸ h.limit, fun j job shard sum hj => ?_, fun j job hj => ?_⟩
  · rw [hcallers] at hj
    rw [htable]
    rcases update_cases (P := fun pc => pc = .len job shard sum) hj with ⟨-, hpc⟩ | ⟨-, hold⟩
    · exact hcounting job shard sum hpc
    · exact h.counting j job shard sum hold
  rw [hcallers] at hj
  rw [htable]
  rcases update_cases (P := fun pc => pc = .insert job) hj with ⟨-, hpc⟩ | ⟨-, hold⟩
  · exact hadmitted job hpc
  · exact h.admitted j job hold

/-- A caller that neither counts nor enters has nothing to keep. -/
theorem Limited.away {i : ι} {pc : Pc}
    (hcallers : s'.callers = update s.callers i pc) (hpc : pc.admitting = false) :
    Limited config s' := by
  refine h.moved htable hcallers (fun job shard sum heq => ?_) fun job heq => ?_
  · rw [heq] at hpc
    cases hpc
  · rw [heq] at hpc
    cases hpc

/-- A caller starts with nothing counted. -/
theorem Limited.begin {i : ι} {job : Job}
    (hcallers : s'.callers = update s.callers i (.len job 0 0)) : Limited config s' := by
  refine h.moved htable hcallers (fun job shard sum heq => ?_) fun job heq => by cases heq
  cases heq
  exact ⟨by decide, le_refl _⟩

end

theorem Limited.trySend (i : ι) (given : Given) (flow : Nat) :
    Limited config (s.trySend config i given flow) := by
  rw [State.trySend]
  cases s.flows flow with
  | none => exact h
  | some task =>
    show Limited config (if _ then _ else _)
    split
    · exact h.away rfl rfl rfl
    split
    · exact h.away rfl rfl rfl
    · exact h.away rfl rfl rfl

theorem Limited.visit {i : ι} {job : Job} {shard sum : Nat}
    (hi : s.callers i = .len job shard sum) : Limited config (s.visit config i job shard sum) := by
  obtain ⟨hshard, hsum⟩ := h.counting i job shard sum hi
  have hnext : ∑ k ∈ Finset.range (shard + 1), s.table.count k ≤ sum + s.table.count shard := by
    rw [Finset.sum_range_succ]
    exact Nat.add_le_add_right hsum _
  show Limited config (if _ then _ else _)
  split
  · rename_i hmore
    refine h.moved rfl rfl (fun job' shard' sum' heq => ?_) fun job' heq => by cases heq
    cases heq
    exact ⟨hmore, hnext⟩
  split
  · exact h.away rfl rfl rfl
  rename_i hroom
  refine h.moved rfl rfl (fun job' shard' sum' heq => by cases heq) fun job' _ => ?_
  have hall : shard + 1 = flowTableShards := by omega
  rw [hall] at hnext
  exact Nat.lt_of_le_of_lt hnext (Nat.lt_of_not_le hroom)

/-- The entry of a caller that was alone in counting and entering. -/
theorem Limited.enter {i : ι} {job : Job} (hi : s.callers i = .insert job)
    (halone : ∀ j, j ≠ i → (s.callers j).admitting = false) : Limited config (s.enter i job) := by
  have hroom := h.admitted i job hi
  rw [State.enter]
  split
  · exact h.away rfl rfl rfl
  rename_i hnone
  have hentries : (s.table.insert job.key s.next).entries = s.table.entries + 1 :=
    FlowTable.entries_insert (not_isSome_iff_eq_none.mp hnone)
  refine ⟨?_, fun j job' shard sum hj => ?_, fun j job' hj => ?_⟩
  · show (s.table.insert job.key s.next).entries ≤ _
    rw [hentries]
    exact hroom
  -- The other callers are not counting, and this one is done.
  · rcases update_cases (P := fun pc => pc = .len job' shard sum) hj with ⟨-, hpc⟩ | ⟨hij, hold⟩
    · cases hpc
    have := halone j hij
    rw [hold] at this
    cases this
  rcases update_cases (P := fun pc => pc = .insert job') hj with ⟨-, hpc⟩ | ⟨hij, hold⟩
  · cases hpc
  have := halone j hij
  rw [hold] at this
  cases this

theorem Limited.advance (i : ι)
    (halone : ∀ job, s.callers i = .insert job → ∀ j, j ≠ i → (s.callers j).admitting = false) :
    Limited config (s.advance config i) := by
  rw [State.advance]
  cases hi : s.callers i with
  | idle => exact h
  | lookup given =>
    dsimp only
    cases s.table.get (keyOf given.pkt) with
    | some flow => exact h.away rfl rfl rfl
    | none =>
      show Limited config (if _ then _ else _)
      split
      · exact h.begin rfl rfl
      · exact h.away rfl rfl rfl
  | trySend => exact h.trySend i ..
  | send => exact h.trySend i ..
  | len job shard sum => exact h.visit hi
  | insert job => exact h.enter hi (halone job hi)

end

end Limit

/-! ## The order of the packets -/

/-- The packet that a caller hands over. -/
def Pc.given : Pc → Option Given
  | .idle => none
  | .lookup given | .trySend given _ | .send given _ => some given
  | .len job _ _ | .insert job => job.given

/-- The flow that a caller has found. -/
def Pc.target : Pc → Option Nat
  | .trySend _ flow | .send _ flow => some flow
  | _ => none

namespace FlowTask

/-- The SYN of the flow, where it has one, is in its queue or behind it. -/
def Ready (task : FlowTask) : Prop :=
  task.syn = none ∨ task.phase ≠ .spawned ∧ task.phase ≠ .started

/-- What holds of a flow: what it was sent stands in the order of the calls, and its SYN comes
first. -/
structure Orderly (returned : List Nat) (task : FlowTask) : Prop where
  earlier : ∀ given ∈ task.received ++ task.queue, given.earlier ⊆ returned
  order : (task.received ++ task.queue).Pairwise fun a b => b.call ∉ a.earlier
  syn : ∀ given, task.syn = some given → given.earlier ⊆ returned ∧ isSyn given.pkt = true ∧
    oneVersion task.key = true
  unqueued : ∀ given, task.syn = some given → task.phase = .spawned ∨ task.phase = .started →
    task.received = [] ∧ task.queue = []
  queued : ∀ given, task.syn = some given → task.phase = .waiting →
    task.received = [] ∧ task.queue.head? = some given
  read : ∀ given, task.syn = some given → task.phase = .serving ∨ task.phase = .returned ∨
    task.phase = .ended →
    task.received.head? = some given ∧ task.routed = true

variable {config : TcpProxyConfig} {returned returned' : List Nat} {task task' : FlowTask}
    {given : Given}

section

variable (h : Orderly returned task)
include h

theorem Orderly.mono (hmore : returned ⊆ returned') : Orderly returned' task where
  earlier given hgiven := fun _ hc => hmore (h.earlier given hgiven hc)
  order := h.order
  syn given hgiven := ⟨fun _ hc => hmore ((h.syn given hgiven).1 hc), (h.syn given hgiven).2⟩
  unqueued := h.unqueued
  queued := h.queued
  read := h.read

/-- A packet of a call that is still running goes behind all others. -/
theorem Orderly.push (hready : task.Ready) (hcall : given.call ∉ returned)
    (hearlier : given.earlier ⊆ returned) :
    Orderly returned { task with queue := task.queue ++ [given] } where
  earlier other hother := by
    show other.earlier ⊆ returned
    rw [← append_assoc] at hother
    rcases mem_append.mp hother with hother | hother
    · exact h.earlier other hother
    · rw [mem_singleton.mp hother]
      exact hearlier
  order := by
    show (task.received ++ (task.queue ++ [given])).Pairwise _
    rw [← append_assoc, pairwise_append]
    refine ⟨h.order, pairwise_singleton _ _, fun a ha b hb hcalled => ?_⟩
    rw [mem_singleton.mp hb] at hcalled
    exact hcall (h.earlier a ha hcalled)
  syn := h.syn
  unqueued other hother hphase := by
    rcases hready with hnone | ⟨hspawned, hstarted⟩
    · rw [show task.syn = some other from hother] at hnone
      cases hnone
    · exact absurd hphase (not_or.mpr ⟨hspawned, hstarted⟩)
  queued other hother hphase := by
    obtain ⟨hreceived, hhead⟩ := h.queued other hother hphase
    refine ⟨hreceived, ?_⟩
    show (task.queue ++ [given]).head? = some other
    rw [head?_append, hhead]
    rfl
  read := h.read

/-- A task past its first packet keeps what it was sent, and the SYN in front. -/
theorem Orderly.serves (hkey : task'.key = task.key) (hsyn : task'.syn = task.syn)
    (hlist : task'.received ++ task'.queue = task.received ++ task.queue)
    (hphase : task'.phase = .serving ∨ task'.phase = .returned ∨ task'.phase = .ended)
    (hread : ∀ given, task.syn = some given → task'.received.head? = some given ∧
      task'.routed = true) : Orderly returned task' where
  earlier given hgiven := h.earlier given (hlist ▸ hgiven)
  order := by
    rw [hlist]
    exact h.order
  syn given hgiven := by
    rw [hkey]
    exact h.syn given (hsyn ▸ hgiven)
  unqueued _ _ hearly := by
    rcases hphase with hphase | hphase | hphase <;> rw [hphase] at hearly <;> simp at hearly
  queued _ _ hwaiting := by
    rcases hphase with hphase | hphase | hphase <;> rw [hphase] at hwaiting <;> cases hwaiting
  read given hgiven _ := hread given (hsyn ▸ hgiven)

theorem Orderly.finish : Orderly returned (if task.phase = .serving then { task with
      phase := .returned } else task) := by
  split
  · rename_i hserving
    exact h.serves rfl rfl rfl (.inr (.inl rfl)) fun given hgiven =>
      h.read given hgiven (.inl hserving)
  · exact h

end

/-- The first packet a flow of a guest reads is its SYN, so that the policy is asked. -/
theorem Orderly.first (h : Orderly returned task) (hphase : task.phase = .waiting)
    {queue : List Given} (hqueue : task.queue = given :: queue) : Orderly returned ({ task with
      queue := queue, received := task.received ++ [given] }.first given) := by
  have hlist : task.received ++ [given] ++ queue = task.received ++ task.queue := by
    rw [append_assoc, singleton_append, hqueue]
  have hfirst : ∀ syn, task.syn = some syn → task.received = [] ∧ given = syn := by
    intro syn hsyn
    obtain ⟨hreceived, hhead⟩ := h.queued syn hsyn hphase
    rw [hqueue] at hhead
    exact ⟨hreceived, some.inj hhead⟩
  unfold FlowTask.first
  split
  · refine h.serves rfl rfl hlist (.inl rfl) fun syn hsyn => ?_
    obtain ⟨hreceived, rfl⟩ := hfirst syn hsyn
    refine ⟨?_, rfl⟩
    show (task.received ++ [given]).head? = some given
    rw [hreceived]
    rfl
  rename_i hrefused
  refine h.serves rfl rfl hlist (.inr (.inl rfl)) fun syn hsyn => ?_
  -- Only the task of an inbound flow turns its first packet away.
  obtain ⟨-, rfl⟩ := hfirst syn hsyn
  obtain ⟨-, hsynOk, hversion⟩ := h.syn given hsyn
  exact absurd (show (isSyn given.pkt && oneVersion task.key) = true by simp [hsynOk, hversion])
    hrefused

/-- The task queues its SYN into an empty queue, which has room for it. -/
theorem Orderly.queueSyn (h : Orderly returned task) (hphase : task.phase = .started) :
    Orderly returned { task with
      phase := .waiting
      queue :=
        if task.queue.length < config.perFlowQueueCapacity then task.queue ++ task.syn.toList
          else task.queue } := by
  cases hsyn : task.syn with
  | none =>
    have hqueue : (if task.queue.length < config.perFlowQueueCapacity then
        task.queue ++ none.toList else task.queue) =
        task.queue := by
      rw [toList_none, append_nil, ite_self]
    rw [hqueue]
    exact {
      earlier := h.earlier
      order := h.order
      syn := fun _ hgiven => by cases hgiven
      unqueued := fun _ hgiven => by cases hgiven
      queued := fun _ hgiven => by cases hgiven
      read := fun _ hgiven => by cases hgiven }
  | some given =>
    obtain ⟨hreceived, hempty⟩ := h.unqueued given hsyn (.inr hphase)
    have hqueue : (if task.queue.length < config.perFlowQueueCapacity then
        task.queue ++ (some given).toList
        else task.queue) = [given] := by
      rw [hempty]
      exact if_pos config.capacity_pos
    rw [hqueue]
    exact {
      earlier := fun other hother => by
        rw [hreceived, nil_append, mem_singleton] at hother
        rw [hother]
        exact (h.syn given hsyn).1
      order := by
        show (task.received ++ [given]).Pairwise _
        rw [hreceived]
        exact pairwise_singleton _ _
      syn := fun other hother => h.syn other (hsyn.trans hother)
      unqueued := fun _ _ hphase => by rcases hphase with hphase | hphase <;> cases hphase
      queued := fun other hother _ => by
        cases hother
        exact ⟨hreceived, rfl⟩
      read := fun _ _ hphase => by rcases hphase with hphase | hphase | hphase <;> cases hphase }

theorem Orderly.run (h : Orderly returned task) : Orderly returned (task.run config) := by
  unfold FlowTask.run
  cases hphase : task.phase with
  | spawned =>
    cases hsyn : task.syn with
    | none =>
      exact {
        earlier := h.earlier
        order := h.order
        syn := fun _ hgiven => by cases hgiven
        unqueued := fun _ hgiven => by cases hgiven
        queued := fun _ hgiven => by cases hgiven
        read := fun _ hgiven => by cases hgiven }
    | some given =>
      exact {
        earlier := h.earlier
        order := h.order
        syn := fun other hother => h.syn other (hsyn.trans hother)
        unqueued := fun other hother _ => h.unqueued other (hsyn.trans hother) (.inl hphase)
        queued := fun _ _ hphase => by cases hphase
        read := fun _ _ hphase => by rcases hphase with hphase | hphase | hphase <;> cases hphase }
  | started => exact h.queueSyn hphase
  | waiting =>
    cases hqueue : task.queue with
    | nil => exact h
    | cons given queue => exact h.first hphase hqueue
  | serving =>
    cases hqueue : task.queue with
    | nil => exact h
    | cons given queue =>
    have hlist : task.received ++ [given] ++ queue = task.received ++ task.queue := by
      rw [append_assoc, singleton_append, hqueue]
    refine h.serves rfl rfl hlist (.inl rfl) fun syn hsyn => ?_
    obtain ⟨hhead, hrouted⟩ := h.read syn hsyn (.inl hphase)
    refine ⟨?_, hrouted⟩
    show (task.received ++ [given]).head? = some syn
    rw [head?_append, hhead]
    rfl
  | returned => exact h
  | ended => exact h

/-- A flow that is ready stays so. -/
theorem Ready.run (h : task.Ready) : (task.run config).Ready := by
  unfold FlowTask.run
  rcases h with hnone | ⟨hspawned, hstarted⟩
  · left
    cases task.phase with
    | waiting =>
      cases task.queue with
      | nil => exact hnone
      | cons given queue =>
        show FlowTask.syn (.first _ _) = none
        unfold FlowTask.first
        split <;> exact hnone
    | serving => cases task.queue <;> exact hnone
    | _ => exact hnone
  · cases hphase : task.phase with
    | spawned => exact absurd hphase hspawned
    | started => exact absurd hphase hstarted
    | waiting =>
      right
      cases task.queue with
      | nil => exact ⟨hspawned, hstarted⟩
      | cons given queue =>
        show FlowTask.phase (.first _ _) ≠ _ ∧ FlowTask.phase (.first _ _) ≠ _
        rw [FlowTask.first_phase]
        split <;> simp
    | serving =>
      right
      cases task.queue with
      | nil => exact ⟨hspawned, hstarted⟩
      | cons given queue => simp
    | returned => exact .inr ⟨hspawned, hstarted⟩
    | ended => exact .inr ⟨hspawned, hstarted⟩

theorem Ready.finish (h : task.Ready) :
    (if task.phase = .serving then { task with phase := .returned } else task).Ready := by
  split
  · exact h.imp id fun _ => ⟨by simp, by simp⟩
  · exact h

/-- The task of a flow that a caller enters. -/
theorem orderly_spawned {job : Job} (h : ∀ given, job.given = some given →
      given.earlier ⊆ returned ∧ isSyn given.pkt = true ∧ oneVersion job.key = true) :
    Orderly returned ⟨job.key, job.given, .spawned, [], [], false⟩ where
  earlier _ hgiven := by cases hgiven
  order := .nil
  syn := h
  unqueued _ _ _ := ⟨rfl, rfl⟩
  queued _ _ hphase := by cases hphase
  read _ _ hphase := by rcases hphase with hphase | hphase | hphase <;> cases hphase

end FlowTask

/-- What a caller wants to enter. -/
def Pc.job : Pc → Option Job
  | .len job _ _ | .insert job => some job
  | _ => none

section Order

variable {ι : Type} {config : TcpProxyConfig} {s s' : State ι} {flow : Nat}

/-- Every call that is running is apart from the others and has not returned, callers have only
found flows whose SYN is queued, and the flows are in order. -/
structure Ordered (s : State ι) : Prop where
  given : ∀ i given, (s.callers i).given = some given →
    given.call < s.calls ∧ given.call ∉ s.returned ∧
    given.earlier ⊆ s.returned ∧ oneVersion (keyOf given.pkt) = true
  apart : ∀ i j a b, (s.callers i).given = some a → (s.callers j).given = some b →
    a.call = b.call → i = j
  syn : ∀ i job given, (s.callers i).job = some job → job.given = some given →
    isSyn given.pkt = true
  below : ∀ call ∈ s.returned, call < s.calls
  target : ∀ i flow, (s.callers i).target = some flow → ∃ task, s.flows flow = some task ∧
    task.Ready
  flows : ∀ flow task, s.flows flow = some task → task.Orderly s.returned

theorem ordered_new : Ordered (new : State ι) where
  given _ _ h := by cases h
  apart _ _ _ _ h := by cases h
  syn _ _ _ h := by cases h
  below _ h := by cases h
  target _ _ h := by cases h
  flows _ _ h := by cases h

theorem Ordered.modifyFlow (h : Ordered s) {f : FlowTask → FlowTask}
    (hf : ∀ task, s.flows flow = some task →
      (f task).Orderly s.returned ∧ (task.Ready → (f task).Ready)) :
    Ordered (s.modifyFlow flow f) := by
  refine ⟨h.given, h.apart, h.syn, h.below, fun i other hi => ?_, fun other task hother => ?_⟩
  · obtain ⟨task, htask, hready⟩ := h.target i other hi
    show ∃ task, update s.flows flow ((s.flows flow).map f) other = some task ∧ _
    by_cases heq : other = flow
    · subst heq
      rw [update_self, htask]
      exact ⟨f task, rfl, (hf task htask).2 hready⟩
    · rw [update_of_ne heq]
      exact ⟨task, htask, hready⟩
  have hother : update s.flows flow ((s.flows flow).map f) other = some task := hother
  by_cases heq : other = flow
  · subst heq
    rw [update_self] at hother
    obtain ⟨task', htask', rfl⟩ := map_eq_some_iff.mp hother
    exact (hf task' htask').1
  · rw [update_of_ne heq] at hother
    exact h.flows other task hother

/-- Only the table changes. -/
theorem Ordered.of_eq (h : Ordered s) (hcallers : s'.callers = s.callers)
    (hcalls : s'.calls = s.calls) (hreturned : s'.returned = s.returned)
    (hflows : s'.flows = s.flows) : Ordered s' := by
  refine ⟨?_, ?_, ?_, ?_, ?_, ?_⟩
  · rw [hcallers, hcalls, hreturned]
    exact h.given
  · rw [hcallers]
    exact h.apart
  · rw [hcallers]
    exact h.syn
  · rw [hcalls, hreturned]
    exact h.below
  · rw [hcallers, hflows]
    exact h.target
  · rw [hflows, hreturned]
    exact h.flows

theorem Ordered.spawn (h : Ordered s) (hfresh : s.flows s.next = none) {i : ι} {job : Job}
    (hi : s.callers i = .insert job) : Ordered { s with
      table := s.table.insert job.key s.next
      flows := update s.flows s.next (some ⟨job.key, job.given, .spawned, [], [], false⟩)
      next := s.next + 1 } := by
  refine ⟨h.given, h.apart, h.syn, h.below, fun j flow hj => ?_, fun flow task hflow => ?_⟩
  · obtain ⟨task, htask, hready⟩ := h.target j flow hj
    refine ⟨task, ?_, hready⟩
    show update s.flows s.next _ flow = some task
    rw [update_of_ne ?_]
    · exact htask
    rintro rfl
    rw [hfresh] at htask
    cases htask
  have hflow : update s.flows s.next (some ⟨job.key, job.given, .spawned, [], [], false⟩) flow =
      some task :=
    hflow
  by_cases heq : flow = s.next
  · subst heq
    rw [update_self] at hflow
    cases hflow
    refine FlowTask.orderly_spawned fun given hgiven => ?_
    have hcaller : (s.callers i).given = some given := by rw [hi]; exact hgiven
    obtain ⟨-, -, hearlier, hversion⟩ := h.given i given hcaller
    refine ⟨hearlier, h.syn i job given (by rw [hi]; rfl) hgiven, ?_⟩
    cases job with
    | syn given' =>
      cases hgiven
      exact hversion
    | inbound src dst => cases hgiven
  · rw [update_of_ne heq] at hflow
    exact h.flows flow task hflow

theorem Ordered.remove (h : Ordered s) (flow : Nat) : Ordered (s.remove flow) := by
  rw [State.remove]
  cases hflow : s.flows flow with
  | none => exact h
  | some task =>
  show Ordered (if _ then _ else _)
  split
  · rename_i hphase
    refine .of_eq (h.modifyFlow fun task' htask' => ?_) rfl rfl rfl rfl
    rw [hflow] at htask'
    cases htask'
    have hordered := h.flows flow task hflow
    refine ⟨hordered.serves rfl rfl rfl (.inr (.inr rfl)) fun given hgiven =>
      ?_, fun hready => ?_⟩
    · exact hordered.read given hgiven (.inr (.inl hphase))
    · exact hready.imp id fun _ => ⟨by simp, by simp⟩
  · exact h

variable [DecidableEq ι]

section

variable (h : Ordered s)
include h

theorem Ordered.goto {i : ι} {pc : Pc} (hgiven : pc.given = (s.callers i).given)
    (hsyn : ∀ job given, pc.job = some job → job.given = some given → isSyn given.pkt = true)
    (htarget : ∀ flow, pc.target = some flow → ∃ task, s.flows flow = some task ∧ task.Ready) :
    Ordered (s.goto i pc) := by
  have hsame : ∀ j, (update s.callers i pc j).given = (s.callers j).given := by
    intro j
    by_cases hj : j = i
    · rw [hj, update_self, hgiven]
    · rw [update_of_ne hj]
  refine ⟨fun j given hj => h.given j given ((hsame j).symm.trans hj),
    fun j k a b hj hk => h.apart j k a b ((hsame j).symm.trans hj) ((hsame k).symm.trans hk),
    fun j job given hj => ?_, h.below, fun j flow hj => ?_, h.flows⟩
  · rcases update_cases (P := fun pc => pc.job = some job) hj with ⟨-, hpc⟩ | ⟨-, hold⟩
    · exact hsyn job given hpc
    · exact h.syn j job given hold
  rcases update_cases (P := fun pc => pc.target = some flow) hj with ⟨-, hpc⟩ | ⟨-, hold⟩
  · exact htarget flow hpc
  · exact h.target j flow hold

theorem Ordered.giveBack {i : ι} {given : Option Given} (hgiven : (s.callers i).given = given) :
    Ordered (s.giveBack i given) := by
  have hmore : s.returned ⊆ (given.map Given.call).toList ++ s.returned :=
    fun _ hc => mem_append_right _ hc
  have hother : ∀ j a, (update s.callers i .idle j).given = some a →
      j ≠ i ∧ (s.callers j).given = some a := by
    intro j a hj
    rcases update_cases (P := fun pc => pc.given = some a) hj with ⟨-, hpc⟩ | hold
    · cases hpc
    · exact hold
  refine ⟨fun j a hj => ?_, fun j k a b hj hk => ?_, fun j job a hj => ?_, fun call hcall =>
    ?_, fun j flow hj => ?_, fun flow task hflow => (h.flows flow task hflow).mono hmore⟩
  · obtain ⟨hne, hj⟩ := hother j a hj
    obtain ⟨hlt, hrunning, hearlier, hversion⟩ := h.given j a hj
    refine ⟨hlt, fun hmem => ?_, fun _ hc => hmore (hearlier hc), hversion⟩
    rcases mem_append.mp hmem with hmem | hmem
    · obtain ⟨b, hb, hcall⟩ := map_eq_some_iff.mp (mem_toList.mp hmem)
      exact hne (h.apart j i a b hj (hgiven.trans hb) hcall.symm)
    · exact hrunning hmem
  · exact h.apart j k a b (hother j a hj).2 (hother k b hk).2
  · rcases update_cases (P := fun pc => pc.job = some job) hj with ⟨-, hpc⟩ | ⟨-, hold⟩
    · cases hpc
    · exact h.syn j job a hold
  · rcases mem_append.mp hcall with hmem | hmem
    · obtain ⟨b, hb, rfl⟩ := map_eq_some_iff.mp (mem_toList.mp hmem)
      exact (h.given i b (hgiven.trans hb)).1
    · exact h.below call hmem
  · rcases update_cases (P := fun pc => pc.target = some flow) hj with ⟨-, hpc⟩ | ⟨-, hold⟩
    · cases hpc
    · exact h.target j flow hold

theorem Ordered.trySend {i : ι} {given : Given} (hgiven : (s.callers i).given = some given)
    (htarget : (s.callers i).target = some flow) : Ordered (s.trySend config i given flow) := by
  obtain ⟨task, htask, hready⟩ := h.target i flow htarget
  obtain ⟨-, hrunning, hearlier, -⟩ := h.given i given hgiven
  rw [State.trySend, htask]
  show Ordered (if _ then _ else _)
  split
  · exact h.giveBack hgiven
  split
  · refine .giveBack (h.modifyFlow fun task' htask' => ?_) hgiven
    rw [htask] at htask'
    cases htask'
    exact ⟨(h.flows flow task htask).push hready hrunning hearlier, id⟩
  refine h.goto hgiven.symm (fun job given hjob => by cases hjob) fun other hother => ?_
  cases hother
  exact ⟨task, htask, hready⟩

theorem Ordered.visit {i : ι} {job : Job} {shard sum : Nat}
    (hi : s.callers i = .len job shard sum) :
    Ordered (s.visit config i job shard sum) := by
  have hgiven : job.given = (s.callers i).given := by rw [hi]; rfl
  have hsyn : ∀ job' given, some job = some job' → job'.given = some given →
      isSyn given.pkt = true := by
    rintro job' given ⟨⟩
    exact h.syn i job given (by rw [hi]; rfl)
  show Ordered (if _ then _ else _)
  split
  · exact h.goto hgiven hsyn fun _ htarget => by cases htarget
  split
  · exact h.giveBack hgiven.symm
  · exact h.goto hgiven hsyn fun _ htarget => by cases htarget

theorem Ordered.advance (howned : Owned s) (i : ι)
    (hready : ∀ given flow task, s.callers i = .lookup given →
      s.table.get (keyOf given.pkt) = some flow →
      s.flows flow = some task → task.Ready) : Ordered (s.advance config i) := by
  rw [State.advance]
  cases hi : s.callers i with
  | idle => exact h
  | lookup given =>
    have hgiven : (s.callers i).given = some given := by rw [hi]; rfl
    dsimp only
    cases hget : s.table.get (keyOf given.pkt) with
    | some flow =>
      obtain ⟨task, htask, -, -⟩ := (howned.own (keyOf given.pkt) flow).mp hget
      refine h.goto hgiven.symm (fun job given hjob => by cases hjob) fun other hother => ?_
      cases hother
      exact ⟨task, htask, hready given flow task hi hget htask⟩
    | none =>
      show Ordered (if _ then _ else _)
      split
      · rename_i hsyn
        refine h.goto hgiven.symm (fun job other hjob hother =>
          ?_) fun _ htarget => by cases htarget
        cases hjob
        cases hother
        exact hsyn
      · exact h.giveBack hgiven
  | trySend given flow => exact h.trySend (by rw [hi]; rfl) (by rw [hi]; rfl)
  | send given flow => exact h.trySend (by rw [hi]; rfl) (by rw [hi]; rfl)
  | len job shard sum => exact h.visit hi
  | insert job =>
    show Ordered (.enter s i job)
    rw [enter]
    have hgiven : (s.callers i).given = job.given := by rw [hi]; rfl
    split
    · exact h.giveBack hgiven
    · exact (h.spawn (howned.fresh s.next (le_refl _)) hi).giveBack hgiven

theorem Ordered.handlePacket (i : ι) {pkt : TunTcpPacket}
    (hversion : oneVersion (keyOf pkt) = true) :
    Ordered (s.handlePacket i pkt) := by
  rw [State.handlePacket]
  cases hi : s.callers i with
  | idle =>
    have hcall : s.calls ∉ s.returned := fun hmem => lt_irrefl _ (h.below _ hmem)
    have hcases : ∀ j a, (update s.callers i (.lookup ⟨s.calls, s.returned, pkt⟩) j).given =
        some a →
        j = i ∧ a = ⟨s.calls, s.returned, pkt⟩ ∨ j ≠ i ∧ (s.callers j).given = some a := by
      intro j a hj
      exact (update_cases (P := fun pc => pc.given = some a) hj).imp_left fun hpc =>
        ⟨hpc.1, (some.inj hpc.2).symm⟩
    refine ⟨fun j a hj => ?_, fun j k a b hj hk hab => ?_, fun j job a hj => ?_,
      fun call hmem => lt_succ_of_lt (h.below call hmem), fun j flow hj => ?_, h.flows⟩
    · rcases hcases j a hj with ⟨-, rfl⟩ | ⟨-, hold⟩
      · exact ⟨lt_succ_self _, hcall, fun _ hc => hc, hversion⟩
      · obtain ⟨hlt, hrest⟩ := h.given j a hold
        exact ⟨lt_succ_of_lt hlt, hrest⟩
    -- The number of the new call is above those of the calls that run.
    · rcases hcases j a hj with ⟨rfl, rfl⟩ | ⟨-, hold⟩
      · rcases hcases k b hk with ⟨rfl, -⟩ | ⟨-, hold'⟩
        · rfl
        · exact absurd (h.given k b hold').1 (by rw [← hab]; exact lt_irrefl _)
      rcases hcases k b hk with ⟨rfl, rfl⟩ | ⟨-, hold'⟩
      · exact absurd (h.given j a hold).1 (by rw [hab]; exact lt_irrefl _)
      · exact h.apart j k a b hold hold' hab
    · rcases update_cases (P := fun pc => pc.job = some job) hj with ⟨-, hpc⟩ | ⟨-, hold⟩
      · cases hpc
      · exact h.syn j job a hold
    · rcases update_cases (P := fun pc => pc.target = some flow) hj with ⟨-, hpc⟩ | ⟨-, hold⟩
      · cases hpc
      · exact h.target j flow hold
  | _ => exact h

theorem Ordered.connectInbound (i : ι) (src dst : SocketAddr) (allowed : Bool) :
    Ordered (s.connectInbound i src dst allowed) := by
  rw [State.connectInbound]
  cases hi : s.callers i with
  | idle =>
    show Ordered (if _ then _ else _)
    split
    · refine h.goto (by rw [hi]; rfl) (fun job given hjob hgiven =>
        ?_) fun _ htarget => by cases htarget
      cases hjob
      cases hgiven
    · exact h
  | _ => exact h

end

end Order

/-! ## Runs -/

section Steps

variable {ι : Type} {config : TcpProxyConfig} {s : State ι} {op : Op ι}

/-- The next step of a caller is not caught in the middle of another's: it looks a packet up after
the SYN of the flow was queued, and enters a flow while nobody else is between a count and an
entry. -/
def Apart (s : State ι) (i : ι) : Pc → Prop
  | .lookup given => ∀ flow ∈ s.table.get (keyOf given.pkt), ∀ task ∈ s.flows flow, task.Ready
  | .insert _ => ∀ j, j ≠ i → (s.callers j).admitting = false
  | _ => True

/-- Packets are of one IP version, as the parser yields them, and callers stay apart. -/
def Undisturbed (s : State ι) : Op ι → Prop
  | .handlePacket _ pkt => oneVersion (keyOf pkt) = true
  | .advance i => Apart s i (s.callers i)
  | _ => True

theorem Undisturbed.ready {i : ι} (h : Undisturbed s (.advance i)) (given : Given) (flow : Nat)
    (task : FlowTask) (hi : s.callers i = .lookup given)
    (hget : s.table.get (keyOf given.pkt) = some flow) (htask : s.flows flow = some task) :
    task.Ready := by
  rw [Undisturbed, hi] at h
  exact h flow hget task htask

theorem Undisturbed.alone {i : ι} (h : Undisturbed s (.advance i)) (job : Job)
    (hi : s.callers i = .insert job) :
    ∀ j, j ≠ i → (s.callers j).admitting = false := by
  rw [Undisturbed, hi] at h
  exact h

instance (task : FlowTask) : Decidable task.Ready :=
  inferInstanceAs (Decidable (task.syn = none ∨ task.phase ≠ .spawned ∧ task.phase ≠ .started))

instance [Fintype ι] [DecidableEq ι] (s : State ι) (i : ι) : ∀ pc, Decidable (Apart s i pc)
  | .lookup given =>
    inferInstanceAs (Decidable (∀ flow ∈ s.table.get (keyOf given.pkt), ∀ task ∈ s.flows flow,
      task.Ready))
  | .insert _ => inferInstanceAs (Decidable (∀ j, j ≠ i → (s.callers j).admitting = false))
  | .idle | .trySend _ _ | .send _ _ | .len _ _ _ => isTrue trivial

instance [Fintype ι] [DecidableEq ι] (s : State ι) : ∀ op, Decidable (Undisturbed s op)
  | .handlePacket _ pkt => inferInstanceAs (Decidable (oneVersion (keyOf pkt) = true))
  | .advance i => inferInstanceAs (Decidable (Apart s i (s.callers i)))
  | .connectInbound _ _ _ _ | .run _ | .finish _ | .remove _ => isTrue trivial

/-- What the table is for. -/
structure Admits (config : TcpProxyConfig) (s : State ι) : Prop where
  unique : ∀ flow other task task', s.flows flow = some task → s.flows other = some task' →
    task.phase ≠ .ended → task'.phase ≠ .ended → task.key = task'.key → flow = other
  entry : ∀ key flow, s.table.get key = some flow →
    ∃ task, s.flows flow = some task ∧ task.key = key ∧ task.phase ≠ .ended
  removes : ∀ flow task, s.flows flow = some task → task.phase = .returned →
    s.table.get task.key = some flow
  limit : s.table.entries ≤ config.maxFlows
  first : ∀ flow task given, s.flows flow = some task → task.syn = some given →
    (∀ other ∈ task.received.head?, other = given) ∧ (task.received ≠ [] → task.routed = true) ∧
      (task.phase = .returned ∨ task.phase = .ended → task.received ≠ [])
  order : ∀ flow task, s.flows flow = some task → (task.received ++ task.queue).Pairwise fun a b =>
    b.call ∉ a.earlier

theorem Owned.unique (h : Owned s) (flow other : Nat) (task task' : FlowTask)
    (hflow : s.flows flow = some task) (hother : s.flows other = some task')
    (hphase : task.phase ≠ .ended) (hphase' : task'.phase ≠ .ended) (hkey : task.key = task'.key) :
    flow = other := by
  have hentry := (h.own task.key flow).mpr ⟨task, hflow, rfl, hphase⟩
  rw [(h.own task.key other).mpr ⟨task', hother, hkey.symm, hphase'⟩] at hentry
  exact (some.inj hentry).symm

/-- What `Admits` says of the packets that a flow reads. -/
def FlowTask.ReadsFirst (task : FlowTask) (given : Given) : Prop :=
  (∀ other ∈ task.received.head?, other = given) ∧ (task.received ≠ [] → task.routed = true) ∧
    (task.phase = .returned ∨ task.phase = .ended → task.received ≠ [])

theorem FlowTask.Orderly.reads {returned : List Nat} {task : FlowTask} (h : task.Orderly returned)
    {given : Given} (hsyn : task.syn = some given) : task.ReadsFirst given := by
  have hread : task.phase = .serving ∨ task.phase = .returned ∨ task.phase = .ended →
      task.ReadsFirst given := by
    intro hphase
    obtain ⟨hhead, hrouted⟩ := h.read given hsyn hphase
    refine ⟨fun other hother => ?_, fun _ => hrouted, fun _ hnil => ?_⟩
    · rw [hhead] at hother
      exact (some.inj hother).symm
    · rw [hnil] at hhead
      cases hhead
  have hunread : task.received = [] → ¬(task.phase = .returned ∨ task.phase = .ended) →
      task.ReadsFirst given := by
    intro hnil hphase
    refine ⟨fun other hother => ?_, fun hne => absurd hnil hne, fun hover => absurd hover hphase⟩
    rw [hnil] at hother
    cases hother
  cases hphase : task.phase with
  | spawned => exact hunread (h.unqueued given hsyn (.inl hphase)).1 (by simp [hphase])
  | started => exact hunread (h.unqueued given hsyn (.inr hphase)).1 (by simp [hphase])
  | waiting => exact hunread (h.queued given hsyn hphase).1 (by simp [hphase])
  | serving => exact hread (.inl hphase)
  | returned => exact hread (.inr (.inl hphase))
  | ended => exact hread (.inr (.inr hphase))

variable [DecidableEq ι]

theorem Limited.step (h : Limited config s) (hop : Undisturbed s op) :
    Limited config (s.step config op) := by
  cases op with
  | handlePacket i pkt =>
    show Limited config (.handlePacket s i pkt)
    rw [handlePacket]
    cases s.callers i with
    | idle => exact h.away rfl rfl rfl
    | _ => exact h
  | connectInbound i src dst allowed =>
    show Limited config (.connectInbound s i src dst allowed)
    rw [connectInbound]
    cases s.callers i with
    | idle =>
      show Limited config (if _ then _ else _)
      split
      · exact h.begin rfl rfl
      · exact h
    | _ => exact h
  | advance i => exact h.advance i hop.alone
  | run flow => exact h.of_shrink rfl fun n => le_refl _
  | finish flow => exact h.of_shrink rfl fun n => le_refl _
  | remove flow =>
    show Limited config (.remove s flow)
    rw [remove]
    cases s.flows flow with
    | none => exact h
    | some task =>
      show Limited config (if _ then _ else _)
      split
      · exact h.of_shrink rfl fun n => FlowTable.sum_remove n
      · exact h

theorem Ordered.step (h : Ordered s) (howned : Owned s) (hop : Undisturbed s op) :
    Ordered (s.step config op) := by
  cases op with
  | handlePacket i pkt => exact h.handlePacket i hop
  | connectInbound => exact h.connectInbound ..
  | advance i => exact h.advance howned i hop.ready
  | run flow => exact h.modifyFlow fun task htask => ⟨(h.flows flow task htask).run, .run⟩
  | finish flow => exact h.modifyFlow fun task htask => ⟨(h.flows flow task htask).finish, .finish⟩
  | remove => exact h.remove ..

/-- In a run without such disturbances the table admits, dispatches and retires flows as it
should. -/
theorem undisturbed_admits {ops : List (Op ι)}
    (hrun : Runs.Along (step config) Undisturbed (new : State ι) ops) :
    Admits config (Runs.exec (step config) new ops) := by
  obtain ⟨howned, hlimited, hordered⟩ :=
    Runs.Along.invariant (P := fun s => Owned s ∧ Limited config s ∧ Ordered s)
      (fun s op h hop => ⟨h.1.step op, h.2.1.step hop, h.2.2.step h.1 hop⟩)
      ⟨owned_new, limited_new, ordered_new⟩ hrun
  exact {
    unique := howned.unique
    entry := fun key flow => (howned.own key flow).mp
    removes := fun flow task hflow hphase =>
      (howned.own task.key flow).mpr ⟨task, hflow, rfl,
        fun hended => by rw [hphase] at hended; cases hended⟩
    limit := hlimited.limit
    first := fun flow task given hflow hsyn => (hordered.flows flow task hflow).reads hsyn
    order := fun flow task hflow => (hordered.flows flow task hflow).order }

end Steps

/-! ## Three runs -/

/-- A packet of the guest at `port`. -/
def packetFrom (port : UInt16) (syn rst : Bool) : TunTcpPacket where
  srcAddr := .v4 (octets 4 [10, 0, 0, 2])
  srcPort := port
  dstAddr := .v4 (octets 4 [10, 0, 0, 1])
  dstPort := 80
  syn := syn
  ack := false
  fin := false
  rst := rst
  seq := 1
  ackNum := 0
  payload := []

def oneFlow : TcpProxyConfig := ⟨1, 1, one_pos⟩

/-- A lookup and a whole count. -/
def counts (i : Bool) : List (Op Bool) := List.replicate (flowTableShards + 1) (.advance i)

/-- A SYN whose flow is entered, and the task that queues it and reads it. -/
def served : List (Op Bool) :=
  .handlePacket false (packetFrom 40000 true false) ::
    counts false ++ [.advance false, .run 0, .run 0, .run 0]

theorem undisturbed_admits_served : Admits oneFlow (Runs.exec (step oneFlow) new served) :=
  undisturbed_admits (by decide +kernel)

/-- The guest resets the connection before the task of its SYN has started. -/
def overtaken : List (Op Bool) :=
  .handlePacket false (packetFrom 40000 true false) :: counts false ++ [.advance false,
    .handlePacket false (packetFrom 40000 false true), .advance false, .advance false, .run 0,
      .run 0, .run 0]

/-- Two callers count before either of them enters its flow. -/
def crowded : List (Op Bool) :=
  [.handlePacket false (packetFrom 40000 true false),
    .handlePacket true (packetFrom 40001 true false)] ++
    counts false ++ counts true ++ [.advance false, .advance true]

/-- The flow reads the reset first, and the policy is never asked; and the table of one flow holds
two. -/
theorem disturbed_not_admits : ¬Admits oneFlow (Runs.exec (step oneFlow) new overtaken) ∧
    ¬Admits oneFlow (Runs.exec (step oneFlow) new crowded) := by
  constructor
  · intro h
    have hcalls : ((Runs.exec (.step oneFlow) new overtaken).flows 0).map
        (fun task => (task.syn.map Given.call, task.received.head?.map Given.call)) =
          some (some 0, some 1) := by
      decide +kernel
    obtain ⟨task, htask, hpair⟩ := map_eq_some_iff.mp hcalls
    obtain ⟨hsyn, hhead⟩ := Prod.mk.inj hpair
    obtain ⟨given, hgiven, hcall⟩ := map_eq_some_iff.mp hsyn
    obtain ⟨other, hother, hcall'⟩ := map_eq_some_iff.mp hhead
    rw [(h.first 0 task given htask hgiven).1 other hother, hcall] at hcall'
    cases hcall'
  · intro h
    have hentries : (Runs.exec (.step oneFlow) new crowded).table.entries = 2 := by decide +kernel
    have hlimit := h.limit
    rw [hentries] at hlimit
    exact absurd hlimit (by decide)

end QuicLite.Tun.Manager
