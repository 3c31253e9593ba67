import QuicLite.Mesh.RouteUses

/-!
# Relay reputation

A path's result is counted once, for the relays of a route this endpoint built itself, and a failure
only for the relays that no healthy route to the same destination runs through. `counted` has every
result that reached the reputation table, with the use as it was then and all uses tracked then.
-/

namespace QuicLite.Mesh

open List Bool Nat RouteUse PathBuilder Planner

/-! ## The specification -/

variable {routeUse : RouteUse} {succeeded : Bool}

section Spec

/-- How many results of one kind were counted for a relay. -/
def results (relayId : RelayId) (succeeded : Bool) (counted : List Counted) : Nat :=
  counted.countP fun result => result.relayId == relayId && result.succeeded == succeeded

/-- The entry that the counted results make up. -/
def tally (relayId : RelayId) (counted : List Counted) : Option RelayReputation :=
  if counted.any (·.relayId == relayId) then
    some ⟨relayId, min (results relayId true counted) u32Max,
      min (results relayId false counted) u32Max⟩
  else none

/-- What a result says, of which use and of which relay. -/
def Counted.mark (self : Counted) : Nat × RelayId × Bool :=
  (self.use.serial, self.relayId, self.succeeded)

/-- No healthy route of ours to the destination of the failed one, other than that one, runs through
the relay. -/
def Counted.Guilty (self : Counted) : Prop :=
  ∀ other ∈ self.tracked, other.serial ≠ self.use.serial →
    other.destination = self.use.destination →
    other.ownership = .selfBuilt → other.healthy = true → self.relayId ∉ other.relayIds

/-- Reputation is fair. -/
structure Fair (builder : PathBuilder) : Prop where
  serials : (builder.routeUses.map serial).Nodup
  once : (builder.counted.map Counted.mark).Nodup
  owned : ∀ result ∈ builder.counted, result.use.ownership = .selfBuilt ∧
    result.relayId ∈ result.use.relayIds
  notAfterFailure : ∀ result ∈ builder.counted, result.succeeded = true → result.use.failed = false
  guilty : ∀ result ∈ builder.counted, result.succeeded = false → result.Guilty
  tallied : ∀ relayId, builder.findReputation relayId = tally relayId builder.counted
  entries : (builder.reputation.map RelayReputation.relayId).Nodup ∧
    builder.reputation.length ≤ maxRelayReputationEntries
  penalty : ∀ entry ∈ builder.reputation, entry.failurePenaltyUs ≤ maxRelayFailurePenaltyUs ∧
    entry.successfulPaths + entry.failedPaths ≤ u64Max ∧ entry.failedPaths *
      maxRelayFailurePenaltyUs ≤ u64Max

variable {A C E : Type}

/-- The status says that the circuit works. -/
def CircuitStatus.works : CircuitStatus → Bool
  | .active | .standby => true
  | _ => false

/-- No circuit of a route we built is reported to work after its use failed without ever having
worked, and no circuit is opened for a waiting use of an association that has it already. -/
structure Timely (s : Planner) (event : AssociationEvent) : Prop where
  works : ∀ association circuit status, event = .circuitStatusChanged association circuit status →
    status.works = true →
    ∀ routeUse, s.builder.routeUses.find? (·.circuit == some circuit) = some routeUse →
      routeUse.ownership = .selfBuilt → routeUse.failed = true → routeUse.successRecorded = true
  opened : ∀ association circuit, event = .circuitOpened association circuit →
    ∀ waiting ∈ s.builder.routeUses, waiting.association = association → waiting.circuit = none →
      ∀ routeUse ∈ s.builder.routeUses, routeUse.association = association →
        routeUse.circuit ≠ some circuit

def Timeliness (s : Planner) : PlannerOp A C E → Prop
  | .observe event _ | .recover _ event _ _ _ => Timely s event
  | .mergeHint _ _ | .create _ _ _ _ | .join _ _ _ _ => True

end Spec

/-! ## The table -/

section Table

variable {relayId other : RelayId} {succeeded : Bool} {table : List RelayReputation}
    {counted : List Counted}
variable {result : Counted}

theorem find?_countIn (relayId other : RelayId) (succeeded : Bool) (table : List RelayReputation) :
    (countIn relayId succeeded table).find? (·.relayId == other) =
      if other = relayId then (table.find? (·.relayId == other)).map (·.count succeeded)
      else table.find? (·.relayId == other) := by
  have hcount : ∀ entry : RelayReputation, (entry.count succeeded).relayId = entry.relayId := by
    intro entry
    cases succeeded <;> rfl
  induction table with
  | nil => simp [countIn]
  | cons entry rest ih =>
    unfold countIn
    by_cases hentry : entry.relayId = relayId
    · rw [if_pos (by simpa using hentry), find?_cons, find?_cons, hcount]
      by_cases hother : other = relayId
      · subst hother
        simp [hentry]
      have hne : (entry.relayId == other) = false := by
        rw [hentry]
        simpa using fun h => hother h.symm
      rw [hne, if_neg hother]
    rw [if_neg (by simpa using hentry), find?_cons, find?_cons]
    by_cases hsame : (entry.relayId == other) = true
    · have hother : other ≠ relayId :=
        fun h => hentry ((by simpa using hsame : entry.relayId = other).trans h)
      rw [hsame, if_neg hother]
    · rw [not_eq_true] at hsame
      rw [hsame, ih]

theorem map_countIn (relayId : RelayId) (succeeded : Bool) (table : List RelayReputation) :
    (countIn relayId succeeded table).map RelayReputation.relayId =
      table.map RelayReputation.relayId := by
  induction table with
  | nil => rfl
  | cons entry rest ih =>
    unfold countIn
    split
    · cases succeeded <;> rfl
    · rw [map_cons, map_cons, ih]

theorem results_append (relayId : RelayId) (succeeded : Bool) (counted : List Counted)
    (result : Counted) : results relayId succeeded (counted ++ [result]) =
      results relayId succeeded counted +
        if result.relayId = relayId ∧ result.succeeded = succeeded then 1 else 0 := by
  rw [results, countP_append, results]
  simp

theorem tally_append_other (hother : other ≠ relayId) (hrelay : result.relayId = relayId) :
    tally other (counted ++ [result]) = tally other counted := by
  have hne : (result.relayId == other) = false := by
    rw [hrelay]
    simpa using fun h => hother h.symm
  have hresults : ∀ ok, results other ok (counted ++ [result]) = results other ok counted := by
    intro ok
    have : ¬ (result.relayId = other ∧ result.succeeded = ok) := fun h => by simp [h.1] at hne
    rw [results_append, if_neg this, add_zero]
  have hany : (counted ++ [result]).any (·.relayId == other) =
      counted.any (·.relayId == other) := by
    simp [hne]
  rw [tally, tally, hany, hresults, hresults]

/-- A result is added to what was counted before. -/
theorem tally_append_same (relayId : RelayId) (hrelay : result.relayId = relayId) :
    tally relayId (counted ++ [result]) =
      some (((tally relayId counted).getD ⟨relayId, 0, 0⟩).count result.succeeded) := by
  have hany : (counted ++ [result]).any (·.relayId == relayId) = true := by simp [hrelay]
  have hbefore : (tally relayId counted).getD ⟨relayId, 0, 0⟩ =
      ⟨relayId, min (results relayId true counted) u32Max,
        min (results relayId false counted) u32Max⟩ := by
    unfold tally
    split
    · rfl
    next hnone =>
      have hzero : ∀ ok, results relayId ok counted = 0 := by
        intro ok
        refine countP_eq_zero.mpr fun entry hentry h => hnone (any_eq_true.mpr ⟨entry, hentry, ?_⟩)
        exact (and_eq_true_iff.mp h).1
      rw [hzero, hzero]
      rfl
  rw [tally, hbefore, results_append, results_append]
  cases hok : result.succeeded with
  | true => simp [RelayReputation.count, hrelay, satAdd]; omega
  | false => simp [RelayReputation.count, hrelay, satAdd]; omega

end Table

/-! ## Recording a result -/

open PathBuilder

/-- The table and its history. -/
structure TableInv (builder : PathBuilder) : Prop where
  once : (builder.counted.map Counted.mark).Nodup
  owned : ∀ result ∈ builder.counted, result.use.ownership = .selfBuilt ∧
    result.relayId ∈ result.use.relayIds
  notAfterFailure : ∀ result ∈ builder.counted, result.succeeded = true → result.use.failed = false
  guilty : ∀ result ∈ builder.counted, result.succeeded = false → result.Guilty
  tallied : ∀ relayId, builder.findReputation relayId = tally relayId builder.counted
  distinct : (builder.reputation.map RelayReputation.relayId).Nodup
  bound : builder.reputation.length ≤ maxRelayReputationEntries

namespace TableInv

variable {builder : PathBuilder} {routeUse : RouteUse} {succeeded : Bool} {relayId : RelayId}

theorem of_same {after : PathBuilder} (h : TableInv builder)
    (hcounted : after.counted = builder.counted)
    (hreputation : after.reputation = builder.reputation) : TableInv after := by
  obtain ⟨once, owned, notAfterFailure, guilty, tallied, distinct, bound⟩ := h
  refine ⟨hcounted ▸ once, hcounted ▸ owned, hcounted ▸ notAfterFailure, hcounted ▸ guilty,
    fun relayId => ?_, hreputation ▸ distinct, hreputation ▸ bound⟩
  rw [findReputation, hreputation, hcounted]
  exact tallied relayId

/-- No other healthy use runs through a relay that is blamed. -/
theorem guilty_of_not_shared (hkeys : builder.keys.Nodup)
    (htracked : ∃ entry ∈ builder.routeUses, key entry = key routeUse ∧ entry.serial =
      routeUse.serial) (hshared : builder.sharedWithHealthyRoute routeUse relayId = false) :
    (⟨routeUse, relayId, false, builder.routeUses⟩ : Counted).Guilty := by
  intro other hother hserial hdestination hownership hhealthy hrelay
  have hnot := any_eq_false.mp hshared other hother
  obtain ⟨entry, hentry, hkey, hsame⟩ := htracked
  have hkeyNe : key other ≠ key routeUse := by
    intro hk
    have heq : other = entry := inj_on_of_nodup_map hkeys hother hentry (hk.trans hkey.symm)
    exact hserial (heq ▸ hsame)
  have hdiffers : other.association ≠ routeUse.association ∨ other.circuit ≠ routeUse.circuit := by
    by_contra hboth
    push Not at hboth
    exact hkeyNe (Prod.ext hboth.1 hboth.2)
  refine hnot ?_
  rcases hdiffers with h | h <;> simp [hdestination, hownership, hhealthy, h, hrelay]

theorem recordRelay (h : TableInv builder) (hkeys : builder.keys.Nodup)
    (htracked : ∃ entry ∈ builder.routeUses, key entry = key routeUse ∧
      entry.serial = routeUse.serial) (hownership : routeUse.ownership = .selfBuilt)
    (hrelay : relayId ∈ routeUse.relayIds) (hfailed : succeeded = true → routeUse.failed = false)
    (hnew : (routeUse.serial, relayId, succeeded) ∉ builder.counted.map Counted.mark) :
    TableInv (recordRelayResult routeUse succeeded builder relayId) := by
  unfold recordRelayResult
  split
  · exact h
  next hshared =>
    have hlog : ∀ reputation, (∀ id, find? (·.relayId == id) reputation =
          tally id (builder.counted ++ [⟨routeUse, relayId, succeeded, builder.routeUses⟩])) →
        (reputation.map RelayReputation.relayId).Nodup →
          reputation.length ≤ maxRelayReputationEntries →
        TableInv { builder with
          reputation := reputation
          counted := builder.counted ++ [⟨routeUse, relayId, succeeded, builder.routeUses⟩] } := by
      intro reputation htallied hdistinct hbound
      refine ⟨?_, ?_, ?_, ?_, htallied, hdistinct, hbound⟩
      · rw [map_append]
        refine nodup_append.mpr ⟨h.once, nodup_singleton _, ?_⟩
        rintro x hx y hy rfl
        rw [mem_singleton.mp hy] at hx
        exact hnew hx
      · intro result hresult
        rcases mem_append.mp hresult with hold | hlast
        · exact h.owned result hold
        · rw [mem_singleton.mp hlast]
          exact ⟨hownership, hrelay⟩
      · intro result hresult hok
        rcases mem_append.mp hresult with hold | hlast
        · exact h.notAfterFailure result hold hok
        · rw [mem_singleton.mp hlast] at hok ⊢
          exact hfailed hok
      · intro result hresult hok
        rcases mem_append.mp hresult with hold | hlast
        · exact h.guilty result hold hok
        rw [mem_singleton.mp hlast] at hok ⊢
        obtain rfl : succeeded = false := hok
        exact guilty_of_not_shared hkeys htracked (by simpa using hshared)
    split
    · next hany =>
        refine hlog _ (fun id => ?_) ?_ ?_
        · rw [find?_countIn]
          by_cases hid : id = relayId
          · subst hid
            have hold : find? (·.relayId == id) builder.reputation = tally id builder.counted :=
              h.tallied id
            obtain ⟨found, hfound⟩ := exists_find hany
            rw [if_pos rfl, tally_append_same id rfl, ← hold, hfound]
            rfl
          · rw [if_neg hid, tally_append_other hid rfl]
            exact h.tallied id
        · rw [map_countIn]
          exact h.distinct
        · have := congrArg length (map_countIn relayId succeeded builder.reputation)
          rw [length_map, length_map] at this
          rw [this]
          exact h.bound
    · next hnone =>
        split
        · next hroom =>
            refine hlog _ (fun id => ?_) ?_ ?_
            · rw [find?_append]
              by_cases hid : id = relayId
              · subst hid
                have hmissing : find? (·.relayId == id) builder.reputation = none := by
                  refine find?_eq_none.mpr fun entry hentry hmatch => ?_
                  exact hnone (any_eq_true.mpr ⟨entry, hentry, hmatch⟩)
                have hold : find? (·.relayId == id) builder.reputation = tally id builder.counted :=
                  h.tallied id
                rw [tally_append_same id rfl, ← hold, hmissing]
                cases succeeded <;> simp [RelayReputation.count, satAdd, u32Max]
              have hne : (relayId == id) = false := by simpa using fun h => hid h.symm
              rw [tally_append_other hid rfl, find?_cons, hne]
              show (find? (·.relayId == id) builder.reputation).or none = _
              rw [Option.or_none]
              exact h.tallied id
            · rw [map_append]
              refine nodup_append.mpr ⟨h.distinct, nodup_singleton _, ?_⟩
              rintro x hx y hy rfl
              rw [mem_singleton.mp hy] at hx
              obtain ⟨entry, hentry, hsame⟩ := mem_map.mp hx
              exact hnone (any_eq_true.mpr ⟨entry, hentry, by simpa using hsame⟩)
            · rw [length_append, length_singleton]
              omega
        · exact h

end TableInv

/-- What recording leaves alone, and what it adds to the history. -/
structure Records (routeUse : RouteUse) (succeeded : Bool) (relayIds : List RelayId)
    (before after : PathBuilder) : Prop where
  hints : after.hints = before.hints
  routeUses : after.routeUses = before.routeUses
  nextSerial : after.nextSerial = before.nextSerial
  counted : ∀ result ∈ after.counted,
    result ∈ before.counted ∨
      (result.use = routeUse ∧ result.succeeded = succeeded ∧ result.relayId ∈ relayIds)

theorem recordRelayResult_records (routeUse : RouteUse) (succeeded : Bool) (builder : PathBuilder)
    (relayId : RelayId) : Records routeUse succeeded [relayId]
      builder (recordRelayResult routeUse succeeded builder relayId) := by
  have hnew : ∀ result ∈ builder.counted ++ [⟨routeUse, relayId, succeeded, builder.routeUses⟩],
      result ∈ builder.counted ∨
        (result.use = routeUse ∧ result.succeeded = succeeded ∧ result.relayId ∈ [relayId]) := by
    intro result hresult
    rcases mem_append.mp hresult with hold | hlast
    · exact .inl hold
    · rw [mem_singleton.mp hlast]
      exact .inr ⟨rfl, rfl, mem_singleton_self _⟩
  unfold recordRelayResult
  split
  · exact ⟨rfl, rfl, rfl, fun _ h => .inl h⟩
  split
  · exact ⟨rfl, rfl, rfl, hnew⟩
  split
  · exact ⟨rfl, rfl, rfl, hnew⟩
  · exact ⟨rfl, rfl, rfl, fun _ h => .inl h⟩

/-- The results of a path, relay by relay. `done` are the relays counted so far. -/
theorem foldl_recordRelayResult (hownership : routeUse.ownership = .selfBuilt)
    (hfailed : succeeded = true → routeUse.failed = false) (relayIds : List RelayId) :
    ∀ {builder : PathBuilder}, TableInv builder → builder.keys.Nodup →
      (∃ entry ∈ builder.routeUses, key entry = key routeUse ∧ entry.serial = routeUse.serial) →
      relayIds.Nodup → (∀ relayId ∈ relayIds, relayId ∈ routeUse.relayIds) →
      (∀ relayId ∈ relayIds, (routeUse.serial, relayId, succeeded) ∉
        builder.counted.map Counted.mark) →
      TableInv (relayIds.foldl (recordRelayResult routeUse succeeded) builder) ∧
        Records routeUse succeeded relayIds builder
          (relayIds.foldl (recordRelayResult routeUse succeeded) builder) := by
  induction relayIds with
  | nil => exact fun h _ _ _ _ _ => ⟨h, rfl, rfl, rfl, fun _ h => .inl h⟩
  | cons relayId rest ih =>
    intro builder h hkeys htracked hnodup hmem hnew
    obtain ⟨hfresh, hrest⟩ := nodup_cons.mp hnodup
    have hfirst := recordRelayResult_records routeUse succeeded builder relayId
    have hnow := h.recordRelay hkeys htracked hownership (hmem relayId mem_cons_self) hfailed
      (hnew relayId mem_cons_self)
    have hlater : ∀ other ∈ rest, (routeUse.serial, other, succeeded) ∉
        (recordRelayResult routeUse succeeded builder relayId).counted.map Counted.mark := by
      intro other hother hmark
      obtain ⟨result, hresult, hsame⟩ := mem_map.mp hmark
      rcases hfirst.counted result hresult with hold | ⟨-, -, hrelay⟩
      · exact hnew other (mem_cons_of_mem _ hother) (mem_map.mpr ⟨result, hold, hsame⟩)
      have hid : result.relayId = other := congrArg (fun mark => mark.2.1) hsame
      rw [mem_singleton.mp hrelay] at hid
      exact hfresh (hid ▸ hother)
    obtain ⟨htable, hrecords⟩ :=
      ih hnow (by rwa [PathBuilder.keys, hfirst.routeUses]) (by rwa [hfirst.routeUses]) hrest
      (forall_mem_cons.mp hmem).2 hlater
    refine ⟨htable, hrecords.hints.trans hfirst.hints, hrecords.routeUses.trans hfirst.routeUses,
      hrecords.nextSerial.trans hfirst.nextSerial, fun result hresult => ?_⟩
    rcases hrecords.counted result hresult with hold | ⟨huse, hok, hrelay⟩
    · rcases hfirst.counted result hold with hold | ⟨huse, hok, hrelay⟩
      · exact .inl hold
      · rw [mem_singleton.mp hrelay]
        exact .inr ⟨huse, hok, mem_cons_self⟩
    · exact .inr ⟨huse, hok, mem_cons_of_mem _ hrelay⟩

/-! ## The tracked uses -/

/-- Every tracked use has a serial number and a key of its own, and its flags say what was counted
for it. -/
structure UsesInv (uses : List RouteUse) (counted : List Counted) (nextSerial : Nat) : Prop where
  keys : (uses.map key).Nodup
  serials : (uses.map serial).Nodup
  below : ∀ routeUse ∈ uses, routeUse.serial < nextSerial
  countedBelow : ∀ result ∈ counted, result.use.serial < nextSerial
  relays : ∀ routeUse ∈ uses, routeUse.relayIds.Nodup
  success : ∀ routeUse ∈ uses, routeUse.successRecorded = false →
    ∀ result ∈ counted, result.use.serial = routeUse.serial → result.succeeded = false
  failure : ∀ routeUse ∈ uses, routeUse.failed = false →
    ∀ result ∈ counted, result.use.serial = routeUse.serial → result.succeeded = true

namespace UsesInv

variable {uses kept : List RouteUse} {counted : List Counted} {nextSerial : Nat}

section

variable (h : UsesInv uses counted nextSerial)
include h

theorem sublist (hkept : kept.Sublist uses) : UsesInv kept counted nextSerial where
  keys := h.keys.sublist (hkept.map _)
  serials := h.serials.sublist (hkept.map _)
  below := fun routeUse huse => h.below routeUse (hkept.subset huse)
  countedBelow := h.countedBelow
  relays := fun routeUse huse => h.relays routeUse (hkept.subset huse)
  success := fun routeUse huse => h.success routeUse (hkept.subset huse)
  failure := fun routeUse huse => h.failure routeUse (hkept.subset huse)

/-- The first use that `p` picks changes, but its flags are not taken back. -/
theorem modify (p : RouteUse → Bool) (f : RouteUse → RouteUse)
    (hkeys : ((modifyFirst p f uses).map key).Nodup)
    (hserial : ∀ routeUse, (f routeUse).serial = routeUse.serial)
    (hrelays : ∀ routeUse, (f routeUse).relayIds = routeUse.relayIds)
    (hsuccess : ∀ routeUse, (f routeUse).successRecorded = false → routeUse.successRecorded = false)
    (hfailed : ∀ routeUse, (f routeUse).failed = false → routeUse.failed = false) :
    UsesInv (modifyFirst p f uses) counted nextSerial := by
  have hmem : ∀ uses : List RouteUse, ∀ routeUse ∈ modifyFirst p f uses, ∃ old ∈ uses,
      routeUse = old ∨ routeUse = f old := by
    intro uses
    induction uses with
    | nil => simp [modifyFirst]
    | cons first rest ih =>
      intro routeUse huse
      unfold modifyFirst at huse
      split at huse
      · rcases mem_cons.mp huse with rfl | hrest
        · exact ⟨first, mem_cons_self, .inr rfl⟩
        · exact ⟨routeUse, mem_cons_of_mem _ hrest, .inl rfl⟩
      rcases mem_cons.mp huse with rfl | hrest
      · exact ⟨routeUse, mem_cons_self, .inl rfl⟩
      · obtain ⟨old, hold, hcases⟩ := ih routeUse hrest
        exact ⟨old, mem_cons_of_mem _ hold, hcases⟩
  have hold : ∀ routeUse ∈ modifyFirst p f uses, ∃ old ∈ uses, routeUse.serial = old.serial ∧
      routeUse.relayIds = old.relayIds ∧
        (routeUse.successRecorded = false → old.successRecorded = false) ∧
        (routeUse.failed = false → old.failed = false) := by
    intro routeUse huse
    obtain ⟨old, hold, rfl | rfl⟩ := hmem uses routeUse huse
    · exact ⟨routeUse, hold, rfl, rfl, id, id⟩
    · exact ⟨old, hold, hserial old, hrelays old, hsuccess old, hfailed old⟩
  refine ⟨hkeys, ?_, fun routeUse huse => ?_, h.countedBelow, fun routeUse huse =>
    ?_, fun routeUse huse hnot => ?_, fun routeUse huse hnot => ?_⟩
  · rw [map_modifyFirst hserial]
    exact h.serials
  · obtain ⟨old, hmem, hsame, -⟩ := hold routeUse huse
    rw [hsame]
    exact h.below old hmem
  · obtain ⟨old, hmem, -, hsame, -⟩ := hold routeUse huse
    rw [hsame]
    exact h.relays old hmem
  · obtain ⟨old, hmem, hsame, -, hflag, -⟩ := hold routeUse huse
    rw [hsame]
    exact h.success old hmem (hflag hnot)
  · obtain ⟨old, hmem, hsame, -, -, hflag⟩ := hold routeUse huse
    rw [hsame]
    exact h.failure old hmem (hflag hnot)

theorem track (hserial : routeUse.serial = nextSerial)
    (hkey : key routeUse ∉ uses.map key) (hrelays : routeUse.relayIds.Nodup) :
    UsesInv (uses ++ [routeUse]) counted (nextSerial + 1) := by
  have hnone : ∀ result ∈ counted, result.use.serial ≠ routeUse.serial := by
    intro result hresult heq
    have := h.countedBelow result hresult
    omega
  refine ⟨?_, ?_, fun entry hentry => ?_, fun result hresult =>
    lt_succ_of_lt (h.countedBelow result hresult), fun entry hentry => ?_, fun entry hentry hnot =>
      ?_, fun entry hentry hnot => ?_⟩
  · rw [map_append]
    refine nodup_append.mpr ⟨h.keys, nodup_singleton _, ?_⟩
    rintro x hx y hy rfl
    rw [mem_singleton.mp hy] at hx
    exact hkey hx
  · rw [map_append]
    refine nodup_append.mpr ⟨h.serials, nodup_singleton _, ?_⟩
    rintro x hx y hy rfl
    rw [mem_singleton.mp hy] at hx
    obtain ⟨entry, hentry, hsame⟩ := mem_map.mp hx
    have := h.below entry hentry
    omega
  · rcases mem_append.mp hentry with hold | hlast
    · exact lt_succ_of_lt (h.below entry hold)
    · rw [mem_singleton.mp hlast]
      omega
  · rcases mem_append.mp hentry with hold | hlast
    · exact h.relays entry hold
    · rw [mem_singleton.mp hlast]
      exact hrelays
  · rcases mem_append.mp hentry with hold | hlast
    · exact h.success entry hold hnot
    intro result hresult hsame
    rw [mem_singleton.mp hlast] at hsame
    exact absurd hsame (hnone result hresult)
  · rcases mem_append.mp hentry with hold | hlast
    · exact h.failure entry hold hnot
    intro result hresult hsame
    rw [mem_singleton.mp hlast] at hsame
    exact absurd hsame (hnone result hresult)

end

end UsesInv

/-! ## The invariant -/

structure FairInv (builder : PathBuilder) : Prop where
  table : TableInv builder
  uses : UsesInv builder.routeUses builder.counted builder.nextSerial
  hints : ∀ hint ∈ builder.hints, hint.relayIds.Nodup

namespace FairInv

variable {builder : PathBuilder} {routeUse : RouteUse} {p : RouteUse → Bool} {hint : RelayPathHint}

theorem new (hopCostUs : Nat) : FairInv (.new hopCostUs) := by
  refine ⟨⟨nodup_nil, by simp [PathBuilder.new], by simp [PathBuilder.new],
    by simp [PathBuilder.new], fun _ => rfl,
    nodup_nil, zero_le _⟩, ⟨nodup_nil, nodup_nil, ?_, ?_, ?_, ?_, ?_⟩,
      ?_⟩ <;> simp [PathBuilder.new]

theorem modifyUse (h : FairInv builder) (p : RouteUse → Bool) (f : RouteUse → RouteUse)
    (hkeys : (builder.modifyUse p f).keys.Nodup)
    (hserial : ∀ routeUse, (f routeUse).serial = routeUse.serial)
    (hrelays : ∀ routeUse, (f routeUse).relayIds = routeUse.relayIds)
    (hsuccess : ∀ routeUse, (f routeUse).successRecorded = false → routeUse.successRecorded = false)
    (hfailed : ∀ routeUse, (f routeUse).failed = false → routeUse.failed = false) :
    FairInv (builder.modifyUse p f) :=
  ⟨h.table.of_same rfl rfl, h.uses.modify p f hkeys hserial hrelays hsuccess hfailed, h.hints⟩

theorem record (h : FairInv builder) {entry : RouteUse} (hentry : entry ∈ builder.routeUses)
    (hkey : key entry = key routeUse) (hserial : entry.serial = routeUse.serial)
    (hrelays : entry.relayIds = routeUse.relayIds)
    (hfailed : routeUse.ownership = .selfBuilt → succeeded = true → routeUse.failed = false)
    (hflag : if succeeded then entry.successRecorded = true else entry.failed = true)
    (hnew : ∀ result ∈ builder.counted, result.use.serial = routeUse.serial →
      result.succeeded ≠ succeeded) :
    FairInv (builder.recordRouteUseResult routeUse succeeded) := by
  unfold recordRouteUseResult
  split
  · exact h
  next hnot =>
    have hownership : routeUse.ownership = .selfBuilt := by simpa using hnot
    have hfresh : ∀ relayId ∈ routeUse.relayIds,
        (routeUse.serial, relayId, succeeded) ∉ builder.counted.map Counted.mark := by
      intro relayId _ hmark
      obtain ⟨result, hresult, hsame⟩ := mem_map.mp hmark
      exact hnew result hresult (congrArg (·.1) hsame) (congrArg (·.2.2) hsame)
    obtain ⟨htable, hrecords⟩ :=
      foldl_recordRelayResult hownership (hfailed hownership) routeUse.relayIds
      h.table h.uses.keys ⟨entry, hentry, hkey, hserial⟩ (hrelays ▸ h.uses.relays entry hentry)
        (fun _ hmem => hmem) hfresh
    refine ⟨htable, ?_, hrecords.hints ▸ h.hints⟩
    rw [hrecords.routeUses, hrecords.nextSerial]
    -- Only the use itself has the number of the new results.
    have hown : ∀ other ∈ builder.routeUses, other.serial = routeUse.serial → other = entry :=
      fun other hother hsame =>
      inj_on_of_nodup_map h.uses.serials hother hentry (hsame.trans hserial.symm)
    refine ⟨h.uses.keys, h.uses.serials, h.uses.below, fun result hresult =>
      ?_, h.uses.relays, ?_, ?_⟩
    · rcases hrecords.counted result hresult with hold | ⟨huse, -, -⟩
      · exact h.uses.countedBelow result hold
      · rw [huse, ← hserial]
        exact h.uses.below entry hentry
    · intro other hother hnot result hresult hsame
      rcases hrecords.counted result hresult with hold | ⟨huse, hok, -⟩
      · exact h.uses.success other hother hnot result hold hsame
      rw [huse] at hsame
      obtain rfl := hown other hother hsame.symm
      rw [hok]
      cases succeeded with
      | false => rfl
      | true => exact absurd (hnot.symm.trans hflag) (by simp)
    · intro other hother hnot result hresult hsame
      rcases hrecords.counted result hresult with hold | ⟨huse, hok, -⟩
      · exact h.uses.failure other hother hnot result hold hsame
      rw [huse] at hsame
      obtain rfl := hown other hother hsame.symm
      rw [hok]
      cases succeeded with
      | true => rfl
      | false => exact absurd (hnot.symm.trans hflag) (by simp)

/-- The modified use is in the table. -/
theorem mem_modifyUse (hfind : builder.routeUses.find? p = some routeUse)
    (f : RouteUse → RouteUse) :
    f routeUse ∈ (builder.modifyUse p f).routeUses := by
  obtain ⟨before, after, -, -, hmodify, -⟩ := modifyFirst_split f hfind
  show f routeUse ∈ modifyFirst p f builder.routeUses
  rw [hmodify]
  exact mem_append_right _ mem_cons_self

section

variable (h : FairInv builder)
variable {circuit : CircuitId}
include h

theorem fail (hfind : builder.routeUses.find? p = some routeUse) (nowUs : Nat)
    (associationRetired : Bool) :
    FairInv (builder.failRouteUseWithLifecycle p routeUse nowUs associationRetired).1 := by
  unfold failRouteUseWithLifecycle
  split
  · exact h
  next hnot =>
    have hmarked : FairInv (builder.modifyUse p markFailed) :=
      h.modifyUse p markFailed (by rw [modifyUse_keys p markFailed fun _ => rfl]; exact h.uses.keys)
        (fun _ => rfl) (fun _ => rfl) (fun _ => id) (fun _ hflag => by cases hflag)
    have hmem := mem_of_find?_eq_some hfind
    refine hmarked.record (mem_modifyUse hfind markFailed) rfl rfl rfl (fun _ => by simp)
      rfl fun result hresult hsame => ?_
    rw [h.uses.failure routeUse hmem (by simpa using hnot) result hresult hsame]
    simp

theorem unhealthy (p : RouteUse → Bool) : FairInv (builder.modifyUse p markUnhealthy) :=
  h.modifyUse p markUnhealthy
    (by rw [modifyUse_keys p markUnhealthy fun _ => rfl]; exact h.uses.keys)
    (fun _ => rfl) (fun _ => rfl) (fun _ => id) (fun _ => id)

/-- A circuit works, and counts if its use has not failed before. -/
theorem works (hfind : builder.routeUses.find? (·.circuit == some circuit) = some routeUse)
    (htimely : routeUse.ownership = .selfBuilt → routeUse.failed = true →
      routeUse.successRecorded = true) :
    FairInv (if !routeUse.successRecorded then
      (builder.modifyUse (·.circuit == some circuit) markHealthy).recordRouteUseResult
        routeUse.markHealthy true
      else builder.modifyUse (·.circuit == some circuit) markHealthy) := by
  have hmarked : FairInv (builder.modifyUse (·.circuit == some circuit) markHealthy) :=
    h.modifyUse _ markHealthy (by rw [modifyUse_keys _ markHealthy fun _ => rfl]; exact h.uses.keys)
      (fun _ => rfl) (fun _ => rfl) (fun _ hflag => by cases hflag) (fun _ => id)
  split
  · next hnot =>
      have hrecorded : routeUse.successRecorded = false := by simpa using hnot
      have hmem := mem_of_find?_eq_some hfind
      refine hmarked.record (mem_modifyUse hfind markHealthy) rfl rfl rfl
        (fun hownership _ => ?_) rfl
        fun result hresult hsame => ?_
      · show routeUse.failed = false
        by_contra hfailed
        rw [htimely hownership (by simpa using hfailed)] at hrecorded
        cases hrecorded
      · rw [h.uses.success routeUse hmem hrecorded result hresult hsame]
        simp
  · exact hmarked

theorem status
    (hfind : builder.routeUses.find? (·.circuit == some circuit) = some routeUse) (nowUs : Nat)
    (status : CircuitStatus)
    (htimely : status.works = true → routeUse.ownership = .selfBuilt → routeUse.failed = true →
      routeUse.successRecorded = true) :
    FairInv (builder.circuitStatusChanged circuit routeUse nowUs status).1 := by
  cases status with
  | active => exact h.works hfind (htimely rfl)
  | standby => exact h.works hfind (htimely rfl)
  | failed => exact h.fail hfind nowUs false
  | suspended | probing | opening | closed => exact h.unhealthy _

theorem kept {uses : List RouteUse} (hkept : uses.Sublist builder.routeUses) :
    FairInv { builder with routeUses := uses } :=
  ⟨h.table.of_same rfl rfl, h.uses.sublist hkept, h.hints⟩

/-- A waiting use gets a circuit that no other use of its association has. -/
theorem opened {association : QuicAssociation} {waiting : RouteUse}
    (hfind : builder.routeUses.find? p = some waiting)
    (hassociation : waiting.association = association)
    (hnew : ∀ routeUse ∈ builder.routeUses, routeUse.association = association →
      routeUse.circuit ≠ some circuit) :
    FairInv (builder.modifyUse p fun entry => { entry with circuit := some circuit }) := by
  refine h.modifyUse p _ ?_ (fun _ => rfl) (fun _ => rfl) (fun _ => id) (fun _ => id)
  obtain ⟨before, after, huses, -, hmodify, -⟩ :=
    modifyFirst_split (fun entry => { entry with circuit := some circuit }) hfind
  have hkeys := h.uses.keys
  show ((modifyFirst p _ builder.routeUses).map key).Nodup
  rw [hmodify, map_append]
  rw [huses, map_append] at hkeys
  have hrest := (nodup_cons.mp (nodup_middle.mp hkeys)).2
  refine nodup_middle.mpr (nodup_cons.mpr ⟨fun hmem => ?_, hrest⟩)
  rw [← map_append] at hmem
  obtain ⟨routeUse, huse, hsame⟩ := mem_map.mp hmem
  have hold : routeUse ∈ builder.routeUses := by
    rw [huses]
    rcases mem_append.mp huse with hfront | hback
    · exact mem_append_left _ hfront
    · exact mem_append_right _ (mem_cons_of_mem _ hback)
  exact hnew routeUse hold ((congrArg Prod.fst hsame).trans hassociation) (congrArg Prod.snd hsame)

end

theorem observe {s : Planner} (h : FairInv s.builder) {event : AssociationEvent}
    (htimely : Timely s event) (nowUs : Nat) :
    FairInv (s.builder.observeEvent event nowUs).1 := by
  cases event with
  | closed association code => exact h.kept filter_sublist
  | reset association => exact h.kept filter_sublist
  | idleTimeout association => exact h.kept filter_sublist
  | eventsDropped count => exact h
  | peerReturnPathHints association hints => exact h
  | circuitClosed association circuit =>
    unfold observeEvent
    dsimp only
    split
    · exact h
    · exact h.kept eraseP_sublist
  | circuitOpened association circuit =>
    unfold observeEvent
    dsimp only
    split
    · next hany =>
        obtain ⟨waiting, hfind⟩ := exists_find hany
        obtain ⟨hassociation, hnone⟩ : waiting.association = association ∧
            waiting.circuit = none := by
          simpa using find?_some hfind
        exact h.opened hfind hassociation
          (htimely.opened association circuit rfl waiting (mem_of_find?_eq_some hfind)
            hassociation hnone)
    · exact h
  | circuitStatusChanged association circuit status =>
    unfold observeEvent
    dsimp only
    split
    · exact h
    next routeUse hfind =>
      exact h.status hfind nowUs status fun hworks =>
        htimely.works association circuit status rfl hworks routeUse hfind
  | setupTimeout association =>
    unfold observeEvent
    dsimp only
    split
    · exact h
    · next routeUse hpending =>
        have hfind : s.builder.routeUses.find? (pendingCreate association) = some routeUse := by
          rw [← head?_filter, hpending]
          rfl
        exact h.fail hfind nowUs true
    · exact h
  | setupRejected association circuit associationRetired code =>
    unfold observeEvent
    dsimp only
    split
    · exact h
    · next routeUse hfind => exact h.fail hfind nowUs associationRetired

theorem replaceHint_nodup {hints : List RelayPathHint} (hnew : hint.relayIds.Nodup)
    (hhints : ∀ hint ∈ hints, hint.relayIds.Nodup) :
    ∀ entry ∈ replaceHint hint hints, entry.relayIds.Nodup := by
  induction hints with
  | nil => simp [replaceHint]
  | cons existing rest ih =>
    obtain ⟨hexisting, hrest⟩ := forall_mem_cons.mp hhints
    unfold replaceHint
    split
    · refine forall_mem_cons.mpr ⟨?_, hrest⟩
      split
      · exact hnew
      · exact hexisting
    · exact forall_mem_cons.mpr ⟨hexisting, ih hrest⟩

theorem relays_of_valid (h : validateHint hint = .ok ()) : hint.relayIds.Nodup := by
  by_contra hduplicate
  unfold validateHint at h
  split at h
  · cases h
  split at h
  · cases h
  · split at h <;> cases h

theorem mergeHint (h : FairInv builder) (hint : RelayPathHint) (nowUs : Nat) :
    FairInv (builder.mergeHint hint nowUs).1 := by
  have hkept : ∀ entry ∈ (builder.expireStale nowUs).hints, entry.relayIds.Nodup :=
    fun entry hentry =>
    h.hints entry (mem_of_mem_filter hentry)
  have hwith : ∀ hints : List RelayPathHint, (∀ entry ∈ hints, entry.relayIds.Nodup) →
      FairInv { builder with hints := hints } :=
    fun hints hall => ⟨h.table.of_same rfl rfl, h.uses, hall⟩
  unfold PathBuilder.mergeHint
  split
  · exact h
  next hvalid =>
    have hnew := relays_of_valid hvalid
    split
    · exact h
    dsimp only
    split
    · exact hwith _ hkept
    split
    · exact hwith _ (replaceHint_nodup hnew hkept)
    split
    · exact hwith _ hkept
    refine hwith _ fun entry hentry => ?_
    rcases mem_append.mp hentry with hold | hlast
    · exact hkept entry hold
    · rw [mem_singleton.mp hlast]
      exact hnew

variable {A C E : Type} {s : Planner}

section

variable (h : FairInv s.builder)
include h

theorem setup (hsetup : Setup s builder) : FairInv builder := by
  cases hsetup with
  | same => exact h
  | tracked _ _ _ hhint _ _ hnew =>
    refine ⟨h.table.of_same rfl rfl, h.uses.track rfl (fun hmem => ?_) (h.hints _ hhint), h.hints⟩
    obtain ⟨routeUse, huse, hsame⟩ := mem_map.mp hmem
    exact hnew routeUse huse (congrArg identityOf hsame)

theorem step (op : PlannerOp A C E) (hok : Promised s op ∧ Timeliness s op) :
    FairInv (s.step op).builder := by
  cases op with
  | mergeHint => exact h.mergeHint ..
  | create => exact h.setup (create_setup hok.1)
  | join => exact h.setup (join_setup hok.1)
  | observe => exact h.observe hok.2 ..
  | recover _ event _ _ nowUs =>
    have hobserved : FairInv (s.report event (s.builder.observeEvent event nowUs).1).builder :=
      h.observe hok.2 nowUs
    exact hobserved.setup (recover_setup hok.1)

end

/-- The counters saturate, so that the penalty neither overflows nor exceeds its bound. -/
theorem penalty {entry : RelayReputation} (hsuccess : entry.successfulPaths ≤ u32Max)
    (hfailed : entry.failedPaths ≤ u32Max) :
    entry.failurePenaltyUs ≤ maxRelayFailurePenaltyUs ∧ entry.successfulPaths + entry.failedPaths ≤
      u64Max ∧
      entry.failedPaths * maxRelayFailurePenaltyUs ≤ u64Max := by
  have hattempts : entry.successfulPaths + entry.failedPaths ≤ u64Max := by
    unfold u32Max at hsuccess hfailed
    unfold u64Max
    omega
  have hproduct : entry.failedPaths * maxRelayFailurePenaltyUs ≤ u64Max := by
    unfold u32Max at hfailed
    unfold u64Max maxRelayFailurePenaltyUs
    omega
  refine ⟨?_, hattempts, hproduct⟩
  unfold RelayReputation.failurePenaltyUs
  split
  · exact Nat.zero_le _
  rw [satAdd, satMul, Nat.min_eq_left hattempts, Nat.min_eq_left hproduct]
  refine Nat.div_le_of_le_mul ?_
  calc entry.failedPaths * maxRelayFailurePenaltyUs
      ≤ (entry.successfulPaths + entry.failedPaths) * maxRelayFailurePenaltyUs :=
        Nat.mul_le_mul_right _ (Nat.le_add_left _ _)
    _ ≤ max (entry.successfulPaths + entry.failedPaths) 1 * maxRelayFailurePenaltyUs :=
        mul_le_mul_right _ (le_max_left _ _)

theorem fair (h : FairInv builder) : Fair builder where
  serials := h.uses.serials
  once := h.table.once
  owned := h.table.owned
  notAfterFailure := h.table.notAfterFailure
  guilty := h.table.guilty
  tallied := h.table.tallied
  entries := ⟨h.table.distinct, h.table.bound⟩
  penalty := by
    intro entry hentry
    have hfound : (builder.reputation.any fun other => other.relayId == entry.relayId) = true :=
      any_eq_true.mpr ⟨entry, hentry, by simp⟩
    obtain ⟨found, hfind⟩ := exists_find hfound
    have hsame : found = entry :=
      inj_on_of_nodup_map h.table.distinct (mem_of_find?_eq_some hfind) hentry
      (by simpa using find?_some hfind)
    have htally : some entry = tally entry.relayId builder.counted := by
      rw [← h.table.tallied, findReputation, hfind, hsame]
    unfold tally at htally
    split at htally
    · have hentry := Option.some.inj htally
      rw [hentry]
      exact FairInv.penalty (min_le_right _ _) (min_le_right _ _)
    · cases htally

end FairInv

/-! ## The result -/

/-- The circuit fails before it has carried anything, and a late status says that it works. -/
def lateStatus : List (PlannerOp QuicAssociation CircuitId Unit) :=
  opening ++ [.observe (.circuitOpened ⟨0, 0⟩ ⟨⟨0, 0⟩, 1⟩) 1,
    .observe (.circuitStatusChanged ⟨0, 0⟩ ⟨⟨0, 0⟩, 1⟩ .failed) 2,
    .observe (.circuitStatusChanged ⟨0, 0⟩ ⟨⟨0, 0⟩, 1⟩ .active) 3]

/-- The success of a failed path is counted. -/
theorem late_success_counted : ¬ ∀ (ops : List (PlannerOp QuicAssociation CircuitId Unit)),
      Runs.Along step Promised (.new 0) ops →
      Fair (Runs.exec step (.new 0) ops).builder := by
  intro hall
  have hpromised : Runs.Along step Promised (.new 0) lateStatus := by
    refine ⟨trivial, fun association route handle _ _ => ⟨not_mem_nil, ?_⟩, trivial, trivial,
      trivial, trivial⟩
    exact fun routeUse huse => absurd huse (not_mem_nil (a := routeUse))
  have hcounted : ((Runs.exec step (.new 0) lateStatus).builder.counted.any fun result =>
      result.succeeded && result.use.failed) = true := by decide
  obtain ⟨result, hresult, hlate⟩ := any_eq_true.mp hcounted
  obtain ⟨hsucceeded, hfailed⟩ := and_eq_true_iff.mp hlate
  have := (hall lateStatus hpromised).notAfterFailure result hresult hsucceeded
  rw [hfailed] at this
  cases this

/-- Reputation is fair in every run in which no failed circuit is reported to work and none is
opened twice. -/
theorem fair_of_timely {A C E : Type} (hopCostUs : Nat) (ops : List (PlannerOp A C E))
    (hrun : Runs.Along step (fun s op => Promised s op ∧ Timeliness s op) (.new hopCostUs) ops) :
    Fair (Runs.exec step (.new hopCostUs) ops).builder := by
  have hinv : FairInv (Runs.exec step (.new hopCostUs) ops).builder :=
    Runs.Along.invariant (P := fun s : Planner => FairInv s.builder) (fun _ op h hok =>
      h.step op hok)
      (.new hopCostUs) hrun
  exact hinv.fair

/-- The circuit carries traffic, fails, and closes. -/
def workedThenFailed : List (PlannerOp QuicAssociation CircuitId Unit) :=
  opening ++ [.observe (.circuitOpened ⟨0, 0⟩ ⟨⟨0, 0⟩, 1⟩) 1,
    .observe (.circuitStatusChanged ⟨0, 0⟩ ⟨⟨0, 0⟩, 1⟩ .active) 2,
    .observe (.circuitStatusChanged ⟨0, 0⟩ ⟨⟨0, 0⟩, 1⟩ .failed) 3,
      .observe (.circuitClosed ⟨0, 0⟩ ⟨⟨0, 0⟩, 1⟩) 4]

theorem worked_then_failed_fair : Fair (Runs.exec step (.new 0) workedThenFailed).builder ∧
      (Runs.exec step (.new 0) workedThenFailed).builder.reputation = [⟨11, 1, 1⟩] := by
  refine ⟨fair_of_timely 0 workedThenFailed ⟨⟨trivial, trivial⟩, ⟨?_, trivial⟩, ⟨trivial, ?_⟩,
    ⟨trivial, ?_⟩, ⟨trivial, ?_⟩, ⟨trivial, ?_⟩, trivial⟩, by decide⟩
  · intro association route handle _ _
    exact ⟨not_mem_nil, fun routeUse huse => absurd huse (not_mem_nil (a := routeUse))⟩
  · refine ⟨(by rintro _ _ _ ⟨⟩), ?_⟩
    rintro association circuit ⟨⟩ waiting _ _ _
    decide
  · refine ⟨?_, (by rintro _ _ ⟨⟩)⟩
    rintro association circuit status ⟨⟩ _ routeUse hfind _ hfailed
    have hopened : ∀ entry ∈ (Runs.exec step (.new 0) (workedThenFailed.take 3)).builder.routeUses,
        entry.failed = false := by decide
    exact absurd (hfailed.symm.trans (hopened routeUse (mem_of_find?_eq_some hfind)))
      Bool.noConfusion
  · exact ⟨(by rintro _ _ _ ⟨⟩ ⟨⟩), by rintro _ _ ⟨⟩⟩
  · exact ⟨(by rintro _ _ _ ⟨⟩), by rintro _ _ ⟨⟩⟩

end QuicLite.Mesh
