import QuicLite.Profile.Shared

/-!
# No update is lost

What concurrent callers of the profile store can rely on, from the serial execution that `Atomic`
gives, and the laws of a single request.
-/

namespace QuicLite.Profile

open List

variable {e : Edit} {profile : TransportProfile}

theorem nextGeneration_ne (generation : UInt32) : nextGeneration generation ≠ generation := by
  by_cases h : generation = 0xffffffff
  · rw [h]
    decide
  intro heq
  have hlt := lt_nextGeneration h
  rw [heq] at hlt
  exact absurd hlt (UInt32.lt_irrefl _)

/-! ## Single edits -/

namespace Edit

/-- An update keeps the profile, or commits one that has a configuration. -/
theorem update_cases (request : TransportRequest) (profile : TransportProfile) :
    ((updateOperation request profile).1 = profile ∧
      ((∃ err, (updateOperation request profile).2.1 = .error err) ∨
        (applyRequest request profile).1 = .ok .leaseRenewed)) ∨
    ((applyRequest request profile).1 = .ok .applied ∧ (updateOperation request profile).2.1 =
      .ok .applied ∧
      (updateOperation request profile).1.config.isSome = true) := by
  unfold updateOperation
  split
  · exact .inl ⟨rfl, .inl ⟨_, rfl⟩⟩
  · next heq => exact .inl ⟨rfl, .inr (by rw [heq])⟩
  next next heq =>
    split
    · exact .inl ⟨rfl, .inl ⟨_, rfl⟩⟩
    next hsome =>
      refine .inr ⟨by rw [heq], rfl, ?_⟩
      cases hconfig : next.config with
      | none => rw [hconfig] at hsome; exact absurd rfl hsome
      | some config => rfl

/-- No edit of these invalidates without a change. -/
theorem operation_valid (e : Edit) (profile : TransportProfile) :
    (e.operation profile).2.2 = false := by
  cases e with
  | set p => rfl
  | update request =>
    show (updateOperation request profile).2.2 = false
    unfold updateOperation
    split
    · rfl
    · rfl
    · split <;> rfl

theorem operation_config (h : e.refusal = none)
    (hconfig : profile.config.isSome = true) : (e.operation profile).1.config.isSome = true := by
  cases e with
  | update request =>
    show (updateOperation request profile).1.config.isSome = true
    rcases update_cases request profile with ⟨hsame, -⟩ | ⟨-, -, hsome⟩
    · rw [hsame]
      exact hconfig
    · exact hsome
  | set p =>
    show p.config.isSome = true
    cases hp : p.config with
    | some config => rfl
    | none =>
      simp only [refusal, hp] at h
      split at h <;> cases h

end Edit

theorem changes_iff {store : ProfileStore TransportProfile} :
    store.changes e.operation = true ↔ (e.operation store.profile).1 ≠ store.profile := by
  simp [ProfileStore.changes, e.operation_valid]

section Serve

variable (store : ProfileStore TransportProfile)

/-- A served call keeps the store, or commits another profile under the next generation. -/
theorem serve_cases (call : Call) : (store.serve call).1 = store ∨
    ∃ e : Edit, call = .guarded (.edit e) ∧ e.refusal = none ∧
      (e.operation store.profile).1 ≠ store.profile ∧
      (store.serve call) = (⟨(e.operation store.profile).1, nextGeneration store.generation⟩,
        editReply (e.operation store.profile).2.1 (nextGeneration store.generation) true) := by
  cases call with
  | generation => exact .inl rfl
  | guarded g =>
  cases g with
  | snapshot => exact .inl rfl
  | edit e =>
    cases hrefusal : e.refusal with
    | some err => exact .inl (by rw [serve_refused hrefusal])
    | none =>
      by_cases hchanges : store.changes e.operation = true
      · exact .inr ⟨e, rfl, hrefusal, changes_iff.mp hchanges, serve_changes hrefusal hchanges⟩
      · exact .inl (by rw [serve_unchanged hrefusal hchanges])

/-- The generation tells the committed profiles apart. -/
theorem serve_generation (call : Call) : (store.serve call).1.generation ≠ store.generation ↔
      (store.serve call).1.profile ≠ store.profile := by
  rcases serve_cases store call with h | ⟨e, -, -, hne, h⟩
  · rw [h]
    exact iff_of_false (fun h => h rfl) fun h => h rfl
  · rw [h]
    exact iff_of_true (nextGeneration_ne _) hne

theorem serve_config (call : Call) (h : store.profile.config.isSome = true) :
    (store.serve call).1.profile.config.isSome = true := by
  rcases serve_cases store call with hcase | ⟨e, -, hrefusal, -, hcase⟩
  · rwa [hcase]
  · rw [hcase]
    exact e.operation_config hrefusal h

/-- A request that fails or only renews a lease commits nothing. -/
theorem serve_uncommitted {request : TransportRequest}
    (h : (∃ err, (store.serve (.guarded (.edit (.update request)))).2 = .edited (.error err)) ∨
      (applyRequest request store.profile).1 = .ok .leaseRenewed) :
    (store.serve (.guarded (.edit (.update request)))).1 = store := by
  rcases serve_cases store (.guarded (.edit (.update request))) with hcase | ⟨e, he, -, hne, hcase⟩
  · exact hcase
  cases he
  rcases Edit.update_cases request store.profile with ⟨hsame, -⟩ | ⟨happlied, hresult, -⟩
  · exact absurd hsame hne
  rcases h with ⟨err, herr⟩ | hlease
  · rw [hcase] at herr
    simp only [Edit.operation, hresult] at herr
    cases herr
  · rw [happlied] at hlease
    cases hlease

end Serve

section Run

variable {ι : Type} {initial : ProfileStore TransportProfile} {entry : Entry ι}

theorem replay_config (log : List (Entry ι)) (h : initial.profile.config.isSome = true) :
    (replay initial log).profile.config.isSome = true :=
  Runs.invariant (P := fun store => store.profile.config.isSome = true) (fun store entry hs =>
    serve_config store entry.call hs)
    h log

/-- Every logged reply is the one of the store that the calls before it leave. -/
theorem Serial.split {earlier later : List (Entry ι)}
    (h : Serial initial (earlier ++ entry :: later)) :
    entry.reply = ((replay initial earlier).serve entry.call).2 :=
  (serial_append.mp h).2.1

variable [DecidableEq ι] {s : Shared ι}

namespace Atomic

/-- The memory always holds a committed profile, or one that is about to be. -/
theorem memory (hs : Atomic initial s) : s.profile = (replay initial s.log).profile ∨
    ∃ e : Edit, e.refusal = none ∧ s.profile = (e.operation (replay initial s.log).profile).1 := by
  obtain ⟨owner, hlocked, howner⟩ := hs.owner
  cases owner with
  | none => exact .inl (hs.free hlocked)
  | some i =>
  have hfits := hs.fits i
  have howns := (howner i).mpr rfl
  cases hpc : s.pc i with
  | idle => rw [hpc] at howns; cases howns
  | polling => rw [hpc] at howns; cases howns
  | waiting g => rw [hpc] at howns; cases howns
  | holding g => rw [hpc] at hfits; exact .inl hfits.2
  | writing e result after => rw [hpc] at hfits; exact .inl hfits.2.1
  | loading e result changed =>
    rw [hpc] at hfits
    cases changed with
    | true => exact .inr ⟨e, hfits.1.admitted, hfits.2⟩
    | false => exact .inl hfits.2.2.2
  | storing e result next => rw [hpc] at hfits; exact .inr ⟨e, hfits.1.admitted, hfits.2.1⟩
  | snapping profile => rw [hpc] at hfits; exact .inl hfits.1
  | releasing g reply => rw [hpc] at hfits; exact .inl hfits

theorem config (hs : Atomic initial s) (h : initial.profile.config.isSome = true) :
    s.profile.config.isSome = true := by
  have hreplay := replay_config s.log h
  rcases hs.memory with hmemory | ⟨e, hrefusal, hmemory⟩
  · rwa [hmemory]
  · rw [hmemory]
    exact e.operation_config hrefusal hreplay

/-- What a caller was given is in the log. -/
theorem logged (hs : Atomic initial s) (h : entry ∈ s.returned) : entry ∈ s.log := by
  have hmem : entry ∈ s.log.filter (fun other => other.caller = entry.caller) := by
    rw [hs.calls entry.caller]
    exact mem_append_left _ (mem_filter.mpr ⟨h, by simp⟩)
  exact (mem_filter.mp hmem).1

/-- At most one call takes effect at a step. -/
theorem step_log (s : Shared ι) (turn : ι × Call) :
    (s.step turn).log = s.log ∨ ∃ entry, (s.step turn).log = s.log ++ [entry] := by
  unfold Shared.step
  split
  · unfold Shared.enter
    split
    · exact .inl rfl
    · exact .inl rfl
    split
    · exact .inr ⟨_, rfl⟩
    · exact .inl rfl
  · exact .inr ⟨_, rfl⟩
  · split
    · exact .inl rfl
    · exact .inl rfl
  · unfold Shared.readProfile
    split
    · exact .inl rfl
    split
    split
    · exact .inl rfl
    · exact .inl rfl
  · exact .inl rfl
  · exact .inl rfl
  · exact .inr ⟨_, rfl⟩
  · exact .inr ⟨_, rfl⟩
  · exact .inr ⟨_, rfl⟩
  · exact .inl rfl

/-- The generation in memory changes at the steps that commit another profile, and at no other. -/
theorem generation_changes (hs : Atomic initial s) (turn : ι × Call) :
    (s.step turn).generation ≠ s.generation ↔
      (replay initial (s.step turn).log).profile ≠ (replay initial s.log).profile := by
  rw [(hs.step turn).generation, hs.generation]
  rcases step_log s turn with hlog | ⟨entry, hlog⟩
  · rw [hlog]
    exact iff_of_false (fun h => h rfl) fun h => h rfl
  · rw [hlog, replay_append]
    exact serve_generation _ _

/-- The pair of a snapshot is the profile and the generation of the store at one point of the
log. -/
theorem snapshot_committed (hs : Atomic initial s) (hentry : entry ∈ s.returned)
    {generation : UInt32} (hreply : entry.reply = .snapshot profile generation) :
    ∃ earlier, earlier <+: s.log ∧ replay initial earlier = ⟨profile, generation⟩ := by
  obtain ⟨earlier, later, hlog⟩ := append_of_mem (hs.logged hentry)
  have hserial := hs.serial
  rw [hlog] at hserial
  have hserved := hserial.split
  rw [hreply] at hserved
  refine ⟨earlier, ⟨entry :: later, hlog.symm⟩, ?_⟩
  cases hcall : entry.call with
  | generation => rw [hcall] at hserved; cases hserved
  | guarded g =>
  rw [hcall] at hserved
  cases g with
  | snapshot =>
    injection hserved with hprofile hgeneration
    rw [hprofile, hgeneration]
  | edit e =>
    cases hrefusal : e.refusal with
    | some err => rw [serve_refused hrefusal] at hserved; cases hserved
    | none =>
      simp only [ProfileStore.serve, hrefusal] at hserved
      cases hserved

end Atomic

end Run

/-! ## The store and its requests -/

/-- What callers see of the store: their calls took effect one after the other. -/
structure Served {ι : Type} [DecidableEq ι] (initial : ProfileStore TransportProfile)
    (s : Shared ι) : Prop where
  /-- Every reply is the one that the store gives after the calls before it. -/
  serial : Serial initial s.log
  /-- Every caller was given the replies of its own calls, each once and in order. -/
  calls : ∀ i, s.log.filter (fun entry => entry.caller = i) =
    s.returned.filter (fun entry => entry.caller = i) ++ (s.pc i).pending i
  /-- The memory is what the logged calls leave. -/
  memory : s.generation = (replay initial s.log).generation ∧
    (s.locked = false → s.profile = (replay initial s.log).profile)
  /-- What is written was computed from the profile that it replaces. -/
  writes : ∀ i e result after, s.pc i = .writing e result after →
    s.profile = (replay initial s.log).profile ∧ after = (e.operation s.profile).1
  /-- The pair of a snapshot was committed together. -/
  snapshots : ∀ entry ∈ s.returned, ∀ profile generation,
    entry.reply = .snapshot profile generation →
    ∃ earlier, earlier <+: s.log ∧ replay initial earlier = ⟨profile, generation⟩
  /-- The generation changes exactly when a different profile is committed. -/
  generation : ∀ turn, (s.step turn).generation ≠ s.generation ↔
    (replay initial (s.step turn).log).profile ≠ (replay initial s.log).profile
  /-- A request that fails or only renews a lease commits nothing. -/
  uncommitted : ∀ earlier entry later request, s.log = earlier ++ entry :: later →
    entry.call = .guarded (.edit (.update request)) →
    (∃ err, entry.reply = .edited (.error err)) ∨
      (applyRequest request (replay initial earlier).profile).1 = .ok .leaseRenewed →
    replay initial (earlier ++ [entry]) = replay initial earlier
  /-- The stored profile keeps having a configuration. -/
  configured : initial.profile.config.isSome = true → s.profile.config.isSome = true

theorem Atomic.served {ι : Type} [DecidableEq ι] {initial : ProfileStore TransportProfile}
    {s : Shared ι} (hs : Atomic initial s) : Served initial s where
  serial := hs.serial
  calls := hs.calls
  memory := ⟨hs.generation, hs.free⟩
  writes := by
    intro i e result after hpc
    have hfits := hs.fits i
    rw [hpc] at hfits
    obtain ⟨-, hmemory, hafter⟩ := hfits
    exact ⟨hmemory, by rw [hmemory]; exact hafter⟩
  snapshots := fun _ hentry _ _ hreply => hs.snapshot_committed hentry hreply
  generation := hs.generation_changes
  uncommitted := by
    intro earlier entry later request hlog hcall huncommitted
    have hserial := hs.serial
    rw [hlog] at hserial
    have hreply := hserial.split
    rw [hcall] at hreply
    rw [replay_append, replay_singleton, hcall]
    refine serve_uncommitted _ ?_
    rw [← hreply]
    exact huncommitted
  configured := hs.config

/-- However the accesses of any number of callers interleave, their calls are served as if one after
the other. A request that fails changes nothing, one without a mode changes only the fields it names
(with a selector, also the mode and the rate of the UART), asking twice is asking once, and requests
without a mode that change different fields may be swapped. -/
theorem updates_atomic {ι : Type} [DecidableEq ι] (profile : TransportProfile)
    (turns : List (ι × Call)) : Served (.new profile) (Shared.run profile turns) ∧
    (∀ request p e, (applyRequest request p).1 = .error e → (applyRequest request p).2 = p) ∧
    (∀ request p, request.mode = none →
      (∀ k, touches request.config k = false → (applyRequest request p).2.slot k = p.slot k) ∧
      (applyRequest request p).2.runRequested = p.runRequested ∧
      (applyRequest request p).2.requestedTransport = p.requestedTransport) ∧
    (∀ request p, (applyRequest request (applyRequest request p).2).2 =
      (applyRequest request p).2) ∧
    (∀ request other p, request.mode = none → other.mode = none →
      (∀ k, ¬ (touches request.config k = true ∧ touches other.config k = true)) →
      (applyRequest request (applyRequest other p).2).2 =
        (applyRequest other (applyRequest request p).2).2) := by
  refine ⟨(Atomic.run profile turns).served, ?_, ?_, applyRequest_again, ?_⟩
  · intro request p e herror
    exact applyRequest_error herror
  · intro request p hmode
    exact applyRequest_untouched hmode p
  · intro request other p hmode hother hdisjoint
    exact applyRequest_comm hmode hother hdisjoint p

end QuicLite.Profile
