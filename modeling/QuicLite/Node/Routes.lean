import QuicLite.Node.Joins

/-!
# Receive routes and paths

The path list of an endpoint, the receive ids of its slot and the endpoint routes of the node are
kept in step by a dozen operations. `Mirrors` says that a slot's array lists the local ids of the
paths, and `Inv` that the routes are exactly the ids in the arrays of the live slots. Every
operation keeps both, on its error returns too, but for one: a rejected setup drops the route
whether or not the endpoint lets go of the path, and it does not while a transmission of the path is
on record. `close_circuit` has the same order.
-/

namespace QuicLite

open List Option Function Except Nat BinarySearch Slot DcidRegistry PathTable JoinNode

variable {i : Nat} {f : CircuitPath → CircuitPath} {cid : ConnectionId}

namespace DcidRegistry

variable {Endpoint NextHop : Type} {self after : DcidRegistry Endpoint NextHop} {cid : ConnectionId}
    {endpoint : Endpoint}

/-- The table sends this id to this endpoint. -/
def Routed (self : DcidRegistry Endpoint NextHop) (cid : ConnectionId)
    (endpoint : Endpoint) : Prop :=
  (cid, .endpoint endpoint) ∈ self.entries

section

variable (h : self.RegistryInv)
include h

theorem RegistryInv.unique {first second : ConnectionId × DcidTarget Endpoint NextHop}
    (hfirst : first ∈ self.entries) (hsecond : second ∈ self.entries) (hkey : first.1 = second.1) :
    first = second := by
  obtain ⟨i, hi⟩ := mem_iff_getElem?.mp hfirst
  obtain ⟨j, hj⟩ := mem_iff_getElem?.mp hsecond
  have hfind := search_getElem h.sorted hi
  have hfind' := search_getElem h.sorted hj
  rw [hkey, hfind'] at hfind
  obtain rfl := ok.inj hfind
  rw [hi] at hj
  exact some.inj hj

theorem RegistryInv.routed_unique {other : Endpoint} (hrouted : self.Routed cid endpoint)
    (hother : self.Routed cid other) : endpoint = other := by
  have := h.unique hrouted hother rfl
  cases this
  rfl

/-- A successful registration adds one route, for an id that had none. -/
theorem insertEndpoint_ok {reserved : Bool}
    (hinsert : self.insertEndpoint cid endpoint reserved = (after, .ok ())) :
    after.RegistryInv ∧ (∀ other, ¬self.Routed cid other) ∧
      ∀ entry, entry ∈ after.entries ↔
        entry = (cid, .endpoint endpoint) ∨ entry ∈ self.entries := by
  have hinv : (self.insertEndpoint cid endpoint reserved).1.RegistryInv :=
    insert_inv h cid (fun _ _ => rfl) reserved
  rw [hinsert] at hinv
  refine ⟨hinv, ?_⟩
  unfold insertEndpoint insert at hinsert
  split at hinsert
  · cases hinsert
  split at hinsert
  · cases hinsert
  rename_i index hfind
  have hperm := (h.sorted.insertIdx (a := (cid, .endpoint endpoint)) hfind).2
  split at hinsert
  · cases hinsert
  split at hinsert
  · cases hinsert
  obtain rfl := (Prod.mk.inj hinsert).1
  refine ⟨fun other hrouted => ?_, fun entry => hperm.mem_iff.trans mem_cons⟩
  exact (find_error_iff h.sorted cid).mp ⟨index, hfind⟩ _ hrouted rfl

theorem removeEndpoint_spec [BEq Endpoint] [LawfulBEq Endpoint] (cid : ConnectionId)
    (endpoint : Endpoint) : ((self.removeEndpoint cid endpoint).2 = true ↔
      self.Routed cid endpoint) ∧
      ∀ entry, entry ∈ (self.removeEndpoint cid endpoint).1.entries ↔
        entry ∈ self.entries ∧ entry ≠ (cid, .endpoint endpoint) := by
  have hkept : ¬self.Routed cid endpoint →
      ∀ entry, entry ∈ self.entries ↔ entry ∈ self.entries ∧ entry ≠ (cid, .endpoint endpoint) := by
    intro hnot entry
    refine ⟨fun hmem => ⟨hmem, ?_⟩, And.left⟩
    rintro rfl
    exact hnot hmem
  unfold removeEndpoint
  cases hfind : self.find cid with
  | error index =>
    have hnot : ¬self.Routed cid endpoint := fun hrouted =>
      (find_error_iff h.sorted cid).mp ⟨index, hfind⟩ _ hrouted rfl
    exact ⟨by simp [hnot], hkept hnot⟩
  | ok index =>
  obtain ⟨⟨key, target⟩, hentry, hkey⟩ := search_ok hfind
  have hcid : key = cid := by
    cases key
    cases cid
    simpa using hkey
  subst hcid
  have hmem := mem_of_getElem? hentry
  simp only [hentry]
  split
  · rename_i found heq
    obtain ⟨rfl, rfl⟩ := Prod.mk.inj (some.inj heq)
    split_ifs with hsame
    · obtain rfl := eq_of_beq hsame
      refine ⟨⟨fun _ => hmem, fun _ => rfl⟩, fun entry => ?_⟩
      rw [mem_eraseIdx_iff_getElem?]
      constructor
      · -- keys are distinct, so the entry at the index is the only one that goes
        rintro ⟨i, hne, hi⟩
        refine ⟨mem_of_getElem? hi, ?_⟩
        rintro rfl
        have hsearch := search_getElem h.sorted hi
        exact hne (ok.inj (hsearch.symm.trans hfind))
      rintro ⟨hin, hne⟩
      obtain ⟨i, hi⟩ := mem_iff_getElem?.mp hin
      refine ⟨i, ?_, hi⟩
      rintro rfl
      exact hne (some.inj (hi.symm.trans hentry))
    · have hnot : ¬self.Routed key endpoint := by
        intro hrouted
        rw [h.routed_unique (show self.Routed key found from hmem) hrouted] at hsame
        exact hsame (beq_self_eq_true _)
      exact ⟨by simp [hnot], hkept hnot⟩
  · rename_i hforward
    have hnot : ¬self.Routed key endpoint := by
      intro hrouted
      have := h.unique hmem hrouted rfl
      exact hforward key endpoint (by rw [this])
    exact ⟨by simp [hnot], hkept hnot⟩

end

end DcidRegistry

/-! ## One slot -/

/-- The array lists the local ids of the paths, in their order. -/
structure Mirrors (cids : List (Option ConnectionId)) (paths : List CircuitPath) : Prop where
  short : paths.length ≤ maxPathStates
  named : ∀ p ∈ paths, p.localCid.isSome
  lists : cids = paths.map (·.localCid) ++ replicate (maxPathStates - paths.length) none

namespace Mirrors

variable {cids : List (Option ConnectionId)} {paths : List CircuitPath} {path : CircuitPath}

section

variable (h : Mirrors cids paths)
include h

theorem length : cids.length = maxPathStates := by
  rw [h.lists, length_append, length_map, length_replicate]
  have := h.short
  omega

theorem getElem? (hi : i < paths.length) : cids[i]?.join = (paths[i]?).bind (·.localCid) := by
  rw [h.lists, getElem?_append_left (by simpa using hi), getElem?_map]
  cases paths[i]? <;> rfl

theorem getElem?_none (hi : paths.length ≤ i) : cids[i]?.join = none := by
  rw [h.lists, getElem?_append_right (by simpa using hi)]
  cases hget : (replicate (maxPathStates - paths.length)
    (none : Option ConnectionId))[i - (paths.map (·.localCid)).length]? with
  | none => rfl
  | some entry => rw [eq_of_mem_replicate (mem_of_getElem? hget)]; rfl

theorem getElem?_free (hroom : paths.length < maxPathStates) : cids[paths.length]? = some none := by
  have hlt : paths.length < cids.length := by
    rw [h.length]
    exact hroom
  have hnone := h.getElem?_none (le_refl paths.length)
  rw [getElem?_eq_getElem hlt] at hnone ⊢
  exact congrArg some hnone

/-- An id in the array is that of the path at its place, and every path has one. -/
theorem agrees (i : Nat) (cid : ConnectionId) :
    cids[i]?.join = some cid ↔ ∃ path, paths[i]? = some path ∧ path.localCid = some cid := by
  by_cases hi : i < paths.length
  · rw [h.getElem? hi, bind_eq_some_iff]
  · rw [h.getElem?_none (by omega), getElem?_eq_none (by omega)]
    simp

theorem modify (hf : ∀ p, (f p).localCid = p.localCid) (i : Nat) :
    Mirrors cids (paths.modify i f) := by
  have hmap : (paths.modify i f).map (·.localCid) = paths.map (·.localCid) := by
    apply ext_getElem?
    intro k
    rw [getElem?_map, getElem?_map, getElem?_modify]
    split_ifs
    · cases paths[k]? with
      | none => rfl
      | some p => exact congrArg some (hf p)
    · simp
  refine ⟨by simpa using h.short, ?_, by rw [hmap, length_modify]; exact h.lists⟩
  intro p hp
  have hmem : p.localCid ∈ paths.map (·.localCid) := hmap ▸ mem_map_of_mem hp
  obtain ⟨q, hq, heq⟩ := mem_map.mp hmem
  exact heq ▸ h.named q hq

theorem append (hroom : paths.length < maxPathStates)
    (hcid : path.localCid = some cid) : Mirrors (cids.set paths.length (some cid))
    (paths ++ [path]) := by
  refine ⟨by rw [length_append, length_singleton]; omega, ?_, ?_⟩
  · intro p hp
    rcases mem_append.mp hp with hp | hp
    · exact h.named p hp
    · rw [mem_singleton.mp hp, hcid]
      rfl
  obtain ⟨rest, hrest⟩ : ∃ rest, maxPathStates - paths.length = rest + 1 :=
    ⟨maxPathStates - paths.length - 1, by omega⟩
  rw [h.lists, hrest, replicate_succ, set_append_right _ _ (by simp), length_map, Nat.sub_self,
    map_append, append_assoc]
  have hlen : maxPathStates - (paths ++ [path]).length = rest := by
    rw [length_append, length_singleton]
    omega
  rw [hlen, map_singleton, hcid]
  rfl

theorem erase (hi : i < paths.length) : Mirrors (shiftOut cids i) (paths.eraseIdx i) := by
  have hlen : (paths.eraseIdx i).length = paths.length - 1 := length_eraseIdx_of_lt hi
  refine ⟨by rw [hlen]; have := h.short; omega, fun p hp => h.named p (mem_of_mem_eraseIdx hp), ?_⟩
  have hrest : maxPathStates - (paths.length - 1) = maxPathStates - paths.length + 1 := by
    have := h.short
    omega
  rw [shiftOut, h.lists, eraseIdx_append_of_lt_length (by simpa using hi), eraseIdx_map, hlen,
    hrest, replicate_succ', append_assoc]

end

end Mirrors

/-- No id stands twice in an array. -/
def DistinctCids (cids : List (Option ConnectionId)) : Prop :=
  ∀ (i j : Nat) (cid : ConnectionId), cids[i]?.join = some cid → cids[j]?.join = some cid → i = j

variable {cids : List (Option ConnectionId)}

theorem join_getElem?_of_mem (h : some cid ∈ cids) : ∃ i : Nat, cids[i]?.join = some cid := by
  obtain ⟨i, hi⟩ := mem_iff_getElem?.mp h
  exact ⟨i, by rw [hi]; rfl⟩

theorem mem_of_join_getElem? (h : cids[i]?.join = some cid) : some cid ∈ cids := by
  apply mem_of_getElem? (i := i)
  exact join_eq_some_iff.mp h

theorem mem_set_some (hempty : cids[i]? = some none) (new : ConnectionId)
    (cid : ConnectionId) : some cid ∈ cids.set i (some new) ↔ cid = new ∨ some cid ∈ cids := by
  obtain ⟨hlt, hget⟩ := List.getElem?_eq_some_iff.mp hempty
  constructor
  · intro h
    rcases mem_or_eq_of_mem_set h with hmem | heq
    · exact .inr hmem
    · exact .inl (some.inj heq)
  rintro (rfl | hmem)
  · exact mem_set hlt _
  obtain ⟨j, hj⟩ := mem_iff_getElem?.mp hmem
  refine mem_of_getElem? (i := j) ?_
  rw [getElem?_set_ne, hj]
  rintro rfl
  rw [hj] at hempty
  cases hempty

theorem mem_shiftOut (hdistinct : DistinctCids cids) {old : ConnectionId}
    (hold : cids[i]?.join = some old) (cid : ConnectionId) :
    some cid ∈ shiftOut cids i ↔ some cid ∈ cids ∧ cid ≠ old := by
  rw [shiftOut, mem_append, mem_singleton, mem_eraseIdx_iff_getElem?]
  constructor
  · rintro (⟨j, hne, hj⟩ | h)
    · refine ⟨mem_of_getElem? hj, ?_⟩
      rintro rfl
      exact hne (hdistinct j i cid (by rw [hj]; rfl) hold)
    · cases h
  rintro ⟨hmem, hne⟩
  obtain ⟨j, hj⟩ := mem_iff_getElem?.mp hmem
  refine .inl ⟨j, ?_, hj⟩
  rintro rfl
  rw [hj] at hold
  exact hne (some.inj hold)

theorem distinctCids_set (h : DistinctCids cids) {new : ConnectionId}
    (hnew : some new ∉ cids) : DistinctCids (cids.set i (some new)) := by
  have hcase : ∀ k cid, (cids.set i (some new))[k]?.join = some cid →
      k = i ∧ cid = new ∨ cids[k]?.join = some cid := by
    intro k cid hk
    rw [getElem?_set] at hk
    split_ifs at hk with heq hlt
    · exact .inl ⟨heq.symm, (some.inj hk).symm⟩
    · cases hk
    · exact .inr hk
  intro j k cid hj hk
  rcases hcase j cid hj with ⟨hji, rfl⟩ | hj'
  · rcases hcase k _ hk with ⟨hki, -⟩ | hk'
    · rw [hji, hki]
    · exact absurd (mem_of_join_getElem? hk') hnew
  rcases hcase k cid hk with ⟨-, rfl⟩ | hk'
  · exact absurd (mem_of_join_getElem? hj') hnew
  · exact h j k cid hj' hk'

theorem distinctCids_shiftOut (h : DistinctCids cids) (i : Nat) :
    DistinctCids (shiftOut cids i) := by
  have hcase : ∀ k cid, (shiftOut cids i)[k]?.join = some cid →
      cids[if k < i then k else k + 1]?.join = some cid := by
    intro k cid hk
    rw [shiftOut] at hk
    by_cases hlt : k < (cids.eraseIdx i).length
    · rw [getElem?_append_left hlt, getElem?_eraseIdx] at hk
      split_ifs at hk ⊢ <;> exact hk
    rw [getElem?_append_right (by omega)] at hk
    have hmem := join_eq_some_iff.mp hk
    cases mem_singleton.mp (mem_of_getElem? hmem)
  intro j k cid hj hk
  have := h _ _ cid (hcase j cid hj) (hcase k cid hk)
  split_ifs at this <;> omega

/-- A slot whose array lists the ids of its paths; before there is an endpoint, it has the one id it
was made with. -/
structure Slot.Sound (slot : Slot) : Prop where
  distinct : DistinctCids slot.receiveCids
  base : slot.relayedJoins[0]?.join.isNone
  established : ∀ endpoint, slot.endpoint = some endpoint →
    0 < endpoint.paths.length ∧ Mirrors slot.receiveCids endpoint.paths
  waiting : slot.endpoint = none →
    ∃ cid, slot.receiveCids = some cid :: replicate (maxPathStates - 1) none

/-- The paths of an endpoint change in what their ids do not depend on. -/
theorem Slot.Sound.withPaths {slot slot' : Slot} (h : slot.Sound) {endpoint endpoint' : PathTable}
    (hendpoint : slot.endpoint = some endpoint) (hendpoint' : slot'.endpoint = some endpoint')
    (hcids : slot'.receiveCids = slot.receiveCids) (hjoins : slot'.relayedJoins[0]?.join.isNone)
    {pathId : Nat} (hpaths : endpoint'.paths = endpoint.paths.modify pathId f)
    (hf : ∀ p, (f p).localCid = p.localCid) : slot'.Sound := by
  obtain ⟨hpos, hmirrors⟩ := h.established endpoint hendpoint
  refine ⟨hcids ▸ h.distinct, hjoins, fun e he => ?_, fun hnone => ?_⟩
  · obtain rfl := some.inj (hendpoint'.symm.trans he)
    rw [hpaths, hcids, length_modify]
    exact ⟨hpos, hmirrors.modify hf pathId⟩
  · rw [hendpoint'] at hnone
    cases hnone

/-! ## The node -/

namespace JoinNode

variable {NextHop : Type} {table table' : PathTable} {peer : ConnectionId}
variable {path : CircuitPath} {localId : ConnectionId}

structure Inv (node : JoinNode NextHop) : Prop where
  table : node.router.RegistryInv
  live : ∀ association slot, node.associations association = some slot →
    association < node.nextAssociation
  sound : ∀ association slot, node.associations association = some slot → slot.Sound
  routes : ∀ cid association, node.router.Routed cid association ↔
    ∃ slot, node.associations association = some slot ∧ some cid ∈ slot.receiveCids

theorem inv_new (maxEntries maxAssociations : Nat) :
    Inv (new maxEntries maxAssociations : JoinNode NextHop) where
  table := new_inv maxEntries
  live := by
    intro association slot h
    cases h
  sound := by
    intro association slot h
    cases h
  routes := by
    intro cid association
    constructor
    · intro h
      cases h
    · rintro ⟨slot, h, -⟩
      cases h

variable {node : JoinNode NextHop}

theorem Inv.counter (h : Inv node) (next : Nat) : Inv { node with nextLocalCid := next } :=
  ⟨h.table, h.live, h.sound, h.routes⟩

variable {association : Nat} {slot slot' : Slot}

theorem setSlot_some {other : Nat}
    (h : (node.setSlot association slot).associations other = some slot') :
    other = association ∧ slot' = slot ∨ other ≠ association ∧
      node.associations other = some slot' := by
  change update _ _ _ _ = _ at h
  by_cases heq : other = association
  · subst heq
    rw [update_self] at h
    exact .inl ⟨rfl, (some.inj h).symm⟩
  · rw [update_of_ne heq] at h
    exact .inr ⟨heq, h⟩

variable {router : DcidRegistry Nat NextHop}

section

variable (h : Inv node) (hslot : node.associations association = some slot)
include h hslot

theorem Inv.update (htable : router.RegistryInv) (hsound : slot'.Sound)
    (hroutes : ∀ cid other, router.Routed cid other ↔
      other = association ∧ some cid ∈ slot'.receiveCids ∨ other ≠ association ∧
        node.router.Routed cid other) :
    Inv ({ node with router := router }.setSlot association slot') where
  table := htable
  live := by
    intro other slot₁ hother
    rcases setSlot_some hother with ⟨rfl, -⟩ | ⟨-, hother⟩
    · exact h.live other slot hslot
    · exact h.live other slot₁ hother
  sound := by
    intro other slot₁ hother
    rcases setSlot_some hother with ⟨-, rfl⟩ | ⟨-, hother⟩
    · exact hsound
    · exact h.sound other slot₁ hother
  routes := by
    intro cid other
    refine (hroutes cid other).trans ?_
    constructor
    · rintro (⟨rfl, hmem⟩ | ⟨hne, hrouted⟩)
      · exact ⟨slot', update_self .., hmem⟩
      · obtain ⟨slot₁, hother, hmem⟩ := (h.routes cid other).mp hrouted
        exact ⟨slot₁, (update_of_ne hne ..).trans hother, hmem⟩
    rintro ⟨slot₁, hother, hmem⟩
    rcases setSlot_some hother with ⟨rfl, rfl⟩ | ⟨hne, hother⟩
    · exact .inl ⟨rfl, hmem⟩
    · exact .inr ⟨hne, (h.routes cid other).mpr ⟨slot₁, hother, hmem⟩⟩

theorem Inv.entry_iff (cid : ConnectionId) :
    (cid, .endpoint association) ∈ node.router.entries ↔ some cid ∈ slot.receiveCids := by
  refine (h.routes cid association).trans ?_
  simp [hslot]

/-- A slot changes and its array does not. -/
theorem Inv.keep (hsound : slot'.Sound)
    (hcids : slot'.receiveCids = slot.receiveCids) : Inv (node.setSlot association slot') := by
  refine h.update hslot h.table hsound fun cid other => ?_
  rw [hcids]
  by_cases heq : other = association
  · subst heq
    rw [Routed, h.entry_iff hslot]
    simp
  · simp [heq]

end

/-! ### Adding a path -/

variable {pathId : Nat} {reserved : Bool}

theorem addPathState_ok (h : table.addPathState reserved path = .ok (table', pathId)) :
    pathId = table.paths.length ∧ table.paths.length < maxPathStates ∧
      table' = { table with paths := table.paths ++ [path] } := by
  unfold addPathState at h
  split_ifs at h with hfull
  obtain ⟨rfl, rfl⟩ := Prod.mk.inj (ok.inj h)
  exact ⟨rfl, by omega, rfl⟩

theorem addPathStateWithIds_ok {peerId : ConnectionId}
    (h : table.addPathStateWithIds localId peerId reserved = .ok (table', pathId)) :
    pathId = table.paths.length ∧ table.paths.length < maxPathStates ∧ table' = { table with
        paths := table.paths ++ [{ CircuitPath.new false with
          localCid := some localId, peerCid := some peerId }] } := by
  unfold addPathStateWithIds at h
  split_ifs at h
  exact addPathState_ok h

theorem addPathStateWithLocalId_ok
    (h : table.addPathStateWithLocalId localId reserved = .ok (table', pathId)) :
    pathId = table.paths.length ∧ table.paths.length < maxPathStates ∧
      table' = { table with
        paths := table.paths ++ [{ CircuitPath.new false with localCid := some localId }] } := by
  unfold addPathStateWithLocalId at h
  split_ifs at h
  exact addPathState_ok h

variable {cid : ConnectionId}

/-- An id that has no route is in no array. -/
theorem Inv.not_mem (h : Inv node) (hslot : node.associations association = some slot)
    (hfree : ∀ other, ¬node.router.Routed cid other) : some cid ∉ slot.receiveCids :=
  fun hmem => hfree association ((h.routes cid association).mpr ⟨slot, hslot, hmem⟩)

variable {endpoint' : PathTable} {endpoint : PathTable}

/-- A path comes in with its id in the array and its route. -/
theorem Inv.addPath (h : Inv node) (hslot : node.associations association = some slot)
    (hendpoint : slot.endpoint = some endpoint)
    (hinsert : node.router.insertEndpoint cid association reserved = (router, .ok ()))
    (hroom : endpoint.paths.length < maxPathStates) (hcid : path.localCid = some cid)
    (hf : ∀ p, (f p).localCid = p.localCid) (hendpoint' : slot'.endpoint = some endpoint')
    (hpaths : endpoint'.paths = (endpoint.paths ++ [path]).modify endpoint.paths.length f)
    (hcids : slot'.receiveCids = slot.receiveCids.set endpoint.paths.length (some cid))
    (hjoins : slot'.relayedJoins[0]?.join.isNone) :
    Inv ({ node with router := router }.setSlot association slot') := by
  have hsound := h.sound association slot hslot
  obtain ⟨hpos, hmirrors⟩ := hsound.established endpoint hendpoint
  obtain ⟨htable, hfree, hentries⟩ := insertEndpoint_ok h.table hinsert
  have hempty := hmirrors.getElem?_free hroom
  have hnot := h.not_mem hslot hfree
  refine h.update hslot htable ⟨?_, hjoins, ?_, ?_⟩ fun other b => ?_
  · rw [hcids]
    exact distinctCids_set hsound.distinct hnot
  · intro e he
    obtain rfl := some.inj (hendpoint'.symm.trans he)
    rw [hpaths, hcids, length_modify, length_append]
    exact ⟨by omega, (hmirrors.append hroom hcid).modify hf _⟩
  · intro hnone
    rw [hendpoint'] at hnone
    cases hnone
  · rw [Routed, hentries, hcids, mem_set_some hempty]
    by_cases heq : b = association
    · subst heq
      rw [h.entry_iff hslot]
      simp
    have hne : (other, (.endpoint b : DcidTarget Nat NextHop)) ≠ (cid, .endpoint association) := by
      intro hsame
      cases hsame
      exact heq rfl
    simp [heq, Routed]

/-- A route that is registered and given up again leaves nothing behind. -/
theorem Inv.giveUp (h : Inv node)
    (hinsert : node.router.insertEndpoint cid association reserved = (router, .ok ())) :
    Inv (removeRoute { node with router := router } cid association) := by
  obtain ⟨htable, hfree, hentries⟩ := insertEndpoint_ok h.table hinsert
  obtain ⟨-, hremoved⟩ := removeEndpoint_spec htable cid association
  refine ⟨removeEndpoint_inv htable cid association, h.live, h.sound, fun other b => ?_⟩
  refine Iff.trans ?_ (h.routes other b)
  show (other, _) ∈ (router.removeEndpoint cid association).1.entries ↔ _
  rw [hremoved, hentries]
  constructor
  · rintro ⟨heq | hmem, hne⟩
    · exact absurd heq hne
    · exact hmem
  intro hmem
  refine ⟨.inr hmem, ?_⟩
  intro heq
  cases heq
  exact hfree association hmem

/-! ### Removing a path -/

theorem removePathState_ok (h : slot.removePathState pathId = .ok slot') :
    ∃ endpoint, slot.endpoint = some endpoint ∧ pathId ≠ 0 ∧ pathId < endpoint.paths.length ∧
      slot' = { slot with
        endpoint := some { endpoint with paths := endpoint.paths.eraseIdx pathId }
        receiveCids := Slot.shiftOut slot.receiveCids pathId
        relayedJoins := Slot.shiftOut slot.relayedJoins pathId } := by
  unfold Slot.removePathState at h
  split at h
  · cases h
  rename_i endpoint hendpoint
  unfold PathTable.removePathState at h
  split at h
  · cases h
  rename_i endpoint' hremoved
  split_ifs at hremoved with hrange hrecorded
  obtain rfl := ok.inj hremoved
  exact ⟨endpoint, hendpoint, by omega, by omega, (ok.inj h).symm⟩

theorem shiftOut_base {α : Type} {entries : List (Option α)} (hpos : pathId ≠ 0)
    (h : entries[0]?.join.isNone) : (shiftOut entries pathId)[0]?.join.isNone := by
  obtain ⟨k, rfl⟩ := exists_eq_succ_of_ne_zero hpos
  cases entries with
  | nil => rfl
  | cons first rest => exact h

theorem Inv.removePath (h : Inv node) (hslot : node.associations association = some slot)
    (hremoved : slot.removePathState pathId = .ok slot')
    (hcid : slot.receiveCid pathId = some cid) : Inv ({ node with
      router := (node.router.removeEndpoint cid association).1 }.setSlot association slot') := by
  obtain ⟨endpoint, hendpoint, hpos, hlt, rfl⟩ := removePathState_ok hremoved
  have hsound := h.sound association slot hslot
  obtain ⟨-, hmirrors⟩ := hsound.established endpoint hendpoint
  obtain ⟨-, hentries⟩ := removeEndpoint_spec h.table cid association
  refine h.update hslot (removeEndpoint_inv h.table cid association) ⟨?_, ?_, ?_, ?_⟩ fun other b =>
    ?_
  · exact distinctCids_shiftOut hsound.distinct pathId
  · exact shiftOut_base hpos hsound.base
  · intro e he
    obtain rfl := some.inj he
    rw [length_eraseIdx_of_lt hlt]
    exact ⟨by omega, hmirrors.erase hlt⟩
  · intro hnone
    cases hnone
  rw [Routed, hentries, mem_shiftOut hsound.distinct hcid]
  by_cases heq : b = association
  · subst heq
    rw [h.entry_iff hslot]
    simp
  have hne : (other, (.endpoint b : DcidTarget Nat NextHop)) ≠ (cid, .endpoint association) := by
    intro hsame
    cases hsame
    exact heq rfl
  simp [heq, Routed]

/-! ### The operations -/

theorem allocateLocalCid_eq (node : JoinNode NextHop) :
    ∃ next cid, node.allocateLocalCid = ({ node with nextLocalCid := next }, cid) := ⟨_, _, rfl⟩

theorem allocateOther_eq (avoid : List ConnectionId) (rounds : Nat) (node : JoinNode NextHop) :
    ∃ next cid, node.allocateOther avoid rounds = ({ node with nextLocalCid := next }, cid) := by
  induction rounds generalizing node with
  | zero => exact ⟨node.nextLocalCid, none, rfl⟩
  | succ rounds ih =>
    obtain ⟨next, cid, halloc⟩ := allocateLocalCid_eq node
    unfold allocateOther
    rw [halloc]
    cases cid with
    | none => exact ⟨next, none, rfl⟩
    | some cid =>
      simp only
      split
      · exact ih { node with nextLocalCid := next }
      · exact ⟨next, some cid, rfl⟩

theorem nextJoin_ok {key : CircuitKey} {joinCid peerCid : ConnectionId}
    (h : slot.nextJoin = .ok (endpoint, key, joinCid, peerCid)) :
    slot.endpoint = some endpoint ∧ endpoint.paths.length < maxPathStates ∧
      key = ⟨slot.role, slot.nextCircuitSequence slot.role⟩ ∧
      slot.peerJoinCid.or (endpoint.peerConnectionIdOnPath 0) = some joinCid ∧
      endpoint.peerConnectionIdOnPath 0 = some peerCid ∧ 0 < slot.nextCircuitSequence slot.role ∧
      slot.nextCircuitSequence slot.role < varintBound := by
  unfold nextJoin at h
  split at h
  · cases h
  rename_i endpoint₀ hendpoint
  split at h
  · rename_i join₀ peer₀ hjoin hpeer
    simp only at h
    split_ifs at h with hexhausted hfull
    cases h
    exact ⟨hendpoint, by omega, rfl, hjoin, hpeer, by omega, by omega⟩
  · cases h

theorem opened_localCid (key : CircuitKey) (transactionId circuitId : Nat) (address : Address)
    (p : CircuitPath) :
    ((p.setCircuit key transactionId circuitId).rememberAddress address).localCid = p.localCid :=
  rfl

section

variable (h : Inv node)
include h

theorem Inv.insert (role : Role) (receiveCid : ConnectionId) {endpoint : Option PathTable}
    (hendpoint : ∀ e, endpoint = some e →
      ∃ path, e.paths = [path] ∧ path.localCid = some receiveCid) (reserved : Bool) :
    Inv (node.insert role receiveCid endpoint reserved).1 := by
  unfold JoinNode.insert
  split
  · exact h
  rename_i router hinsert
  obtain ⟨htable, hfree, hentries⟩ := insertEndpoint_ok h.table hinsert
  have hunused : node.associations node.nextAssociation = none := by
    cases hslot : node.associations node.nextAssociation with
    | none => rfl
    | some slot => exact absurd (h.live _ slot hslot) (lt_irrefl _)
  have hmem : ∀ cid, some cid ∈ (Slot.new role receiveCid endpoint).receiveCids ↔
      cid = receiveCid := by
    intro cid
    constructor
    · intro hin
      rcases mem_cons.mp hin with heq | hrest
      · exact some.inj heq
      · cases eq_of_mem_replicate hrest
    · rintro rfl
      exact mem_cons_self
  have hsound : (Slot.new role receiveCid endpoint).Sound := by
    refine ⟨?_, rfl, fun e he => ?_, fun _ => ⟨receiveCid, rfl⟩⟩
    · intro i j cid hi hj
      have hzero : ∀ k : Nat, (Slot.new role receiveCid endpoint).receiveCids[k]?.join = some cid →
          k = 0 := by
        intro k hk
        cases k with
        | zero => rfl
        | succ k =>
          cases eq_of_mem_replicate (mem_of_getElem? (join_eq_some_iff.mp hk))
      rw [hzero i hi, hzero j hj]
    obtain ⟨path, hpaths, hcid⟩ := hendpoint e he
    rw [hpaths]
    refine ⟨one_pos, le_of_ble_eq_true rfl, fun p hp => ?_, ?_⟩
    · rw [mem_singleton.mp hp, hcid]
      rfl
    show some receiveCid :: replicate (maxPathStates - 1) none = _
    rw [map_singleton, hcid]
    rfl
  refine ⟨htable, ?_, ?_, ?_⟩
  · intro other slot hother
    rcases @setSlot_some _ node _ _ _ _ hother with ⟨rfl, -⟩ | ⟨-, hother⟩
    · exact lt_succ_self _
    · exact (h.live other slot hother).trans (lt_succ_self _)
  · intro other slot hother
    rcases @setSlot_some _ node _ _ _ _ hother with ⟨-, rfl⟩ | ⟨-, hother⟩
    · exact hsound
    · exact h.sound other slot hother
  intro cid other
  show (cid, _) ∈ router.entries ↔ _
  rw [hentries]
  constructor
  · rintro (heq | hold)
    · cases heq
      exact ⟨_, update_self .., (hmem _).mpr rfl⟩
    obtain ⟨slot, hslot, hin⟩ := (h.routes cid other).mp hold
    refine ⟨slot, (update_of_ne ?_ ..).trans hslot, hin⟩
    rintro rfl
    rw [hunused] at hslot
    cases hslot
  rintro ⟨slot, hslot, hin⟩
  rcases @setSlot_some _ node _ _ _ _ hslot with ⟨rfl, rfl⟩ | ⟨-, hslot⟩
  · rw [(hmem cid).mp hin]
    exact .inl rfl
  · exact .inr ((h.routes cid other).mpr ⟨slot, hslot, hin⟩)

theorem Inv.admit
    (hslot : node.associations association = some slot) (hendpoint : slot.endpoint = some endpoint)
    (hinsert : node.router.insertEndpoint cid association reserved = (router, .ok ()))
    (hadd : endpoint.addPathStateWithIds cid peer reserved = .ok (endpoint', pathId))
    (key : CircuitKey) (transactionId : Nat) (address : Address) :
    Inv ({ node with router := router }.setSlot association
      (slot.admitted endpoint' pathId cid key transactionId address)) := by
  obtain ⟨rfl, hroom, rfl⟩ := addPathStateWithIds_ok hadd
  exact h.addPath hslot hendpoint hinsert hroom rfl
    (opened_localCid key transactionId slot.nextCircuitId address) rfl rfl
    rfl (h.sound association slot hslot).base

theorem Inv.openDirectPath (association : Nat) (address : Address)
    (built reserved : Bool) : Inv (node.openDirectPath association address built reserved).1 := by
  unfold JoinNode.openDirectPath
  split
  · exact h
  rename_i slot hslot
  split
  · exact h
  rename_i endpoint key joinCid peerCid hjoin
  obtain ⟨hendpoint, -, rfl, -⟩ := nextJoin_ok hjoin
  obtain ⟨next, allocated, halloc⟩ := allocateOther_eq [peerCid] 2 node
  rw [halloc]
  have h₁ := h.counter next
  cases allocated with
  | none => exact h₁
  | some localCid =>
  simp only
  split
  · exact h₁
  split
  · exact h₁
  rename_i router hinsert
  split
  · exact h₁.giveUp hinsert
  rename_i endpoint' pathId hadd
  obtain ⟨rfl, hroom, rfl⟩ := addPathStateWithLocalId_ok hadd
  exact h₁.addPath hslot hendpoint hinsert hroom rfl (opened_localCid _ _ _ address) rfl rfl rfl
    (h.sound association slot hslot).base

theorem Inv.joinRelayedPath (association : Nat) (address : Address) (now : Nat)
    (built reserved : Bool) :
    Inv (node.joinRelayedPath association address now built reserved).1 := by
  unfold JoinNode.joinRelayedPath
  split
  · exact h
  rename_i slot hslot
  split
  · exact h
  rename_i endpoint key _ _ hjoin
  obtain ⟨hendpoint, -, rfl, -⟩ := nextJoin_ok hjoin
  obtain ⟨next, allocated, halloc⟩ := allocateLocalCid_eq node
  rw [halloc]
  have h₁ := h.counter next
  cases allocated with
  | none => exact h₁
  | some localCid =>
  simp only
  split
  · exact h₁
  split
  · exact h₁
  rename_i router hinsert
  split
  · exact h₁.giveUp hinsert
  rename_i endpoint' pathId hadd
  obtain ⟨rfl, hroom, rfl⟩ := addPathStateWithLocalId_ok hadd
  have hsound := h.sound association slot hslot
  have hpos := (hsound.established endpoint hendpoint).1
  refine h₁.addPath hslot hendpoint hinsert hroom rfl (opened_localCid _ _ _ address) rfl
    rfl rfl ?_
  show (slot.relayedJoins.set endpoint.paths.length _)[0]?.join.isNone
  rw [getElem?_set_ne (by omega)]
  exact hsound.base

theorem Inv.receivePathJoin (association ingressPath : Nat) (address : Address)
    (join : PathJoin) (built reserved : Bool) :
    Inv (node.receivePathJoin association ingressPath address join built reserved).1 := by
  unfold JoinNode.receivePathJoin
  split
  · exact h
  rename_i slot hslot
  split
  · exact h
  rename_i endpoint hendpoint
  split
  · exact h
  split
  · exact h
  split
  · -- a replay changes nothing
    split
    · exact h
    split
    · exact h
    · split <;> exact h
  split
  · exact h
  split
  · exact h
  obtain ⟨next, allocated, halloc⟩ := allocateOther_eq [join.receiveCid] 2 node
  rw [halloc]
  have h₁ := h.counter next
  cases allocated with
  | none => exact h₁
  | some localCid =>
  simp only
  split
  · exact h₁
  rename_i router hinsert
  split
  · exact h₁.giveUp hinsert
  split
  · exact h₁.giveUp hinsert
  rename_i endpoint' pathId hadd
  have hadded := h₁.admit hslot hendpoint hinsert hadd join.key join.transactionId address
  split <;> exact hadded

end

/-- Every refusal of the endpoint to remove a path comes from a transmission that names it. -/
theorem removePathState_error {e : Error}
    (hendpoint : slot.endpoint = some endpoint) (hpos : pathId ≠ 0)
    (hlt : pathId < endpoint.paths.length) (h : slot.removePathState pathId = .error e) :
    endpoint.paths[pathId]?.any (·.flags.recorded) = true := by
  unfold Slot.removePathState PathTable.removePathState at h
  rw [hendpoint] at h
  simp only at h
  split at h
  · rename_i hremoved
    split_ifs at hremoved with hrange hrecorded
    · omega
    · exact hrecorded
  · cases h

theorem withdrawJoin_eq (hslot : node.associations association = some slot)
    (hendpoint : slot.endpoint = some endpoint)
    (hremoved : endpoint.removePathState pathId = .ok endpoint') :
    node.withdrawJoin association pathId cid = (node.setSlot association { slot with
      endpoint := some endpoint',
        receiveCids := slot.receiveCids.set pathId none }).removeRoute cid association := by
  unfold withdrawJoin
  rw [hslot]
  simp only [hendpoint, map_some, hremoved]
  rfl

theorem removePathState_last (table : PathTable) (hpos : 0 < table.paths.length)
    (path : CircuitPath) (hrecorded : (f path).flags.recorded = false) :
    (({ table with paths := table.paths ++ [path] } : PathTable).modifyPath table.paths.length
      f).removePathState
      table.paths.length = .ok table := by
  have hpaths : (table.paths ++ [path]).modify table.paths.length f = table.paths ++ [f path] := by
    rw [modify_eq_take_cons_drop (by simp)]
    simp
  unfold PathTable.removePathState PathTable.modifyPath
  simp only [hpaths]
  rw [if_neg (by rw [length_append, length_singleton]; omega),
    getElem?_append_right (le_refl _)]
  simp only [Nat.sub_self, getElem?_cons_zero, any_some, hrecorded]
  rw [eraseIdx_append_of_length_le (le_refl _)]
  simp

/-- The path just added for a setup request goes again, with its id and its route. -/
theorem Inv.withdrawJoin (h : Inv node)
    (hslot : node.associations association = some slot) (hendpoint : slot.endpoint = some endpoint)
    (hinsert : node.router.insertEndpoint cid association reserved = (router, .ok ()))
    (hadd : endpoint.addPathStateWithIds cid peer reserved = .ok (endpoint', pathId))
    (key : CircuitKey) (transactionId : Nat) (address : Address) :
    Inv (({ node with router := router }.setSlot association
      (slot.admitted endpoint' pathId cid key transactionId address)).withdrawJoin association
        pathId cid) := by
  obtain ⟨rfl, hroom, rfl⟩ := addPathStateWithIds_ok hadd
  have hsound := h.sound association slot hslot
  obtain ⟨hpos, hmirrors⟩ := hsound.established endpoint hendpoint
  -- no transmission can name the path yet, so it is removed and the others are as before
  have hremoved := removePathState_last endpoint hpos { CircuitPath.new false with
    localCid := some cid, peerCid := some peer }
    (f := fun path =>
      (path.setCircuit key transactionId slot.nextCircuitId).rememberAddress address) rfl
  rw [withdrawJoin_eq (update_self ..) rfl hremoved]
  have hempty : slot.receiveCids[endpoint.paths.length]? = some none := hmirrors.getElem?_free hroom
  have hcids : (slot.receiveCids.set endpoint.paths.length (some cid)).set endpoint.paths.length
      none = slot.receiveCids := by
    rw [List.set_set]
    obtain ⟨hlt, hget⟩ := List.getElem?_eq_some_iff.mp hempty
    rw [← hget, List.set_getElem_self]
  have hgiven := h.giveUp hinsert
  have hfinal : Inv ((removeRoute { node with router := router } cid association).setSlot
    association
      { slot.admitted { endpoint with paths := endpoint.paths ++ [{ CircuitPath.new false with
          localCid := some cid, peerCid := some peer }] } endpoint.paths.length cid key
            transactionId address with
        endpoint := some endpoint
        receiveCids := (slot.receiveCids.set endpoint.paths.length (some cid)).set
          endpoint.paths.length none }) := by
    refine hgiven.keep hslot ⟨?_, hsound.base, ?_, ?_⟩ hcids
    · rw [hcids]
      exact hsound.distinct
    · intro e he
      obtain rfl := some.inj he
      rw [hcids]
      exact ⟨hpos, hmirrors⟩
    · intro hnone
      cases hnone
  have heq : ∀ slot₁ slot₂ : Slot,
      (({ node with router := router }.setSlot association slot₁).setSlot association
        slot₂).removeRoute cid association =
        (removeRoute { node with router := router } cid association).setSlot association
          slot₂ := by
    intro slot₁ slot₂
    simp [setSlot, removeRoute]
  rw [heq]
  exact hfinal

theorem Inv.receiveSetupJoin (h : Inv node) (joinCid openerReceiveCid : ConnectionId)
    (previousReverseCid : Option ConnectionId) (key : CircuitKey) (transactionId : Nat)
    (address : Address) (built completed reserved : Bool) :
    Inv (node.receiveSetupJoin joinCid openerReceiveCid previousReverseCid key transactionId address
      built completed reserved).1 := by
  unfold JoinNode.receiveSetupJoin
  extract_lets target peerCid
  cases target with
  | none => exact h
  | some association =>
  simp only
  cases hslot : node.associations association with
  | none => exact h
  | some slot =>
  simp only
  cases hendpoint : slot.endpoint with
  | none => exact h
  | some endpoint =>
  simp only
  obtain ⟨next, allocated, halloc⟩ := allocateOther_eq [openerReceiveCid, peerCid] 3 node
  split
  · exact h
  split
  · exact h
  rw [halloc]
  have h₁ := h.counter next
  cases allocated with
  | none => exact h₁
  | some localCid =>
  simp only
  split
  · exact h₁
  rename_i router hinsert
  split
  · exact h₁.giveUp hinsert
  rename_i endpoint' pathId hadd
  split
  · exact h₁.withdrawJoin hslot hendpoint hinsert hadd key transactionId address
  split
  · exact h₁.withdrawJoin hslot hendpoint hinsert hadd key transactionId address
  · exact h₁.admit hslot hendpoint hinsert hadd key transactionId address

theorem Inv.retryDirectPath (h : Inv node) (association : Nat) (key : CircuitKey) (built : Bool) :
    Inv (node.retryDirectPath association key built).1 := by
  unfold JoinNode.retryDirectPath
  split
  · exact h
  rename_i slot hslot
  split
  · exact h
  rename_i endpoint hendpoint
  split
  · exact h
  split
  · exact h
  split
  · exact h
  split
  · exact h
  have hretry : ∀ p : CircuitPath, p.recordJoinRetry.localCid = p.localCid := by
    intro p
    unfold CircuitPath.recordJoinRetry
    split <;> rfl
  split
  · split
    · exact h
    · have hsound := h.sound association slot hslot
      exact h.keep hslot (hsound.withPaths hendpoint rfl rfl hsound.base rfl hretry) rfl
  · exact h
  · exact h
  · exact h

theorem setPeerConnectionIdOnPath_ok
    (h : table.setPeerConnectionIdOnPath pathId peer = .ok table') :
    pathId < table.paths.length ∧ table' = table.modifyPath pathId fun path => { path with
      peerCid := some peer } := by
  unfold setPeerConnectionIdOnPath at h
  split_ifs at h with hused hrange
  exact ⟨by omega, (ok.inj h).symm⟩

theorem modifyPath_modifyPath (table : PathTable) (pathId : Nat) (f g : CircuitPath → CircuitPath) :
    (table.modifyPath pathId f).modifyPath pathId g = table.modifyPath pathId (g ∘ f) := by
  unfold modifyPath
  simp only [modify_modify_eq]

section

variable (h : Inv node)
include h

theorem Inv.receivePathJoinAck (association ingressPath : Nat) (address : Address)
    (ack : PathJoinAck) : Inv (node.receivePathJoinAck association ingressPath address ack).1 := by
  unfold JoinNode.receivePathJoinAck
  split
  · exact h
  rename_i slot hslot
  split
  · exact h
  rename_i endpoint hendpoint
  split
  · exact h
  split
  · exact h
  split
  · exact h
  split
  · exact h
  rename_i endpoint' hset
  obtain ⟨-, rfl⟩ := setPeerConnectionIdOnPath_ok hset
  have hsound := h.sound association slot hslot
  rw [modifyPath_modifyPath]
  exact h.keep hslot (hsound.withPaths hendpoint rfl rfl hsound.base rfl fun p => rfl) rfl

theorem Inv.establish (association : Nat) (peerCid : ConnectionId) :
    Inv (node.establish association peerCid) := by
  unfold JoinNode.establish
  split
  · exact h
  rename_i slot hslot
  split
  · rename_i receiveCid hnone hcid
    have hsound := h.sound association slot hslot
    obtain ⟨cid, hcids⟩ := hsound.waiting hnone
    rw [Slot.receiveCid, hcids] at hcid
    obtain rfl : cid = receiveCid := some.inj hcid
    refine h.keep hslot ⟨hsound.distinct, hsound.base, fun e he => ?_, fun hnone => ?_⟩ rfl
    · obtain rfl := some.inj he
      refine ⟨one_pos, le_of_ble_eq_true rfl, fun p hp => ?_, hcids⟩
      rw [mem_singleton.mp hp]
      rfl
    · cases hnone
  · exact h

theorem Inv.setupRelayed (association : Nat) (joinCid : ConnectionId)
    (relayCid : Option ConnectionId) : Inv (node.setupRelayed association joinCid relayCid) := by
  unfold JoinNode.setupRelayed
  split
  · exact h
  rename_i slot hslot
  have hsound := h.sound association slot hslot
  split
  · rename_i endpoint _ hendpoint
    split
    · exact h
    rename_i endpoint' hset
    obtain ⟨-, rfl⟩ := setPeerConnectionIdOnPath_ok hset
    exact h.keep hslot (hsound.withPaths hendpoint rfl rfl hsound.base rfl fun p => rfl) rfl
  · exact h.keep hslot ⟨hsound.distinct, hsound.base, hsound.established, hsound.waiting⟩ rfl

theorem Inv.transport (association pathId : Nat) (flags : PathFlags) :
    Inv (node.transport association pathId flags) := by
  unfold JoinNode.transport
  split
  · exact h
  rename_i slot hslot
  have hsound := h.sound association slot hslot
  cases hendpoint : slot.endpoint with
  | none =>
    exact h.keep hslot ⟨hsound.distinct, hsound.base, by simp, fun _ =>
      hsound.waiting hendpoint⟩ rfl
  | some endpoint =>
    exact h.keep hslot (hsound.withPaths hendpoint rfl rfl hsound.base rfl fun p => rfl) rfl

theorem Inv.relayedJoinDue (association pathId now : Nat) (built : Bool) :
    Inv (node.relayedJoinDue association pathId now built).1 := by
  unfold JoinNode.relayedJoinDue
  split
  · exact h
  rename_i slot hslot
  have hsound := h.sound association slot hslot
  split
  · rename_i join localCid _ hjoin hcid _
    split_ifs
    · exact h
    · split
      · exact h
      · rename_i slot' hremoved
        exact h.removePath hslot hremoved hcid
    · exact h
    refine h.keep hslot ⟨hsound.distinct, ?_, hsound.established, hsound.waiting⟩ rfl
    -- the base path has no pending join, so another entry is rewritten
    have hpos : pathId ≠ 0 := by
      rintro rfl
      rw [isNone_iff_eq_none.mp hsound.base] at hjoin
      cases hjoin
    show (slot.relayedJoins.set pathId _)[0]?.join.isNone
    rw [getElem?_set_ne hpos]
    exact hsound.base
  · exact h

/-- The path that `close_circuit` is about to take out still has transmissions on record. -/
def strandsOnClose (node : JoinNode NextHop) (association localId : Nat) : Bool :=
  (node.associations association).any fun slot => slot.endpoint.any fun endpoint =>
    match endpoint.paths.findIdx? fun path => path.localCircuitId == localId with
    | none => false
    | some pathId => pathId != 0 && endpoint.paths[pathId]?.any fun path =>
      path.localAbandonComplete && path.flags.recorded

theorem Inv.closeCircuit {localId : Nat} (sequenceLeft : Bool)
    (hkeeps : node.strandsOnClose association localId = false) :
    Inv (node.closeCircuit association localId sequenceLeft).1 := by
  unfold JoinNode.closeCircuit
  split
  · exact h
  rename_i slot hslot
  have hsound := h.sound association slot hslot
  split
  · exact h
  rename_i endpoint hendpoint
  split
  · exact h
  rename_i pathId hfind
  split
  · exact h
  rename_i hpos
  split
  · rename_i path receiveCid hpath hcid
    split
    · exact h
    split
    · split
      · exact h
      split
      · exact h
      rename_i path' hqueued
      have hlocal : path'.localCid = path.localCid := by
        unfold CircuitPath.queueAbandon at hqueued
        split_ifs at hqueued
        rw [← Except.ok.inj hqueued]
      -- the path is replaced by itself with another status
      have hsame : endpoint.paths.modify pathId (fun _ => path') =
          endpoint.paths.modify pathId fun p => { path' with localCid := p.localCid } := by
        apply ext_getElem?
        intro k
        rw [getElem?_modify, getElem?_modify]
        split_ifs with heq
        · subst heq
          rw [hpath]
          simp [← hlocal]
        · rfl
      refine h.keep hslot (hsound.withPaths hendpoint rfl rfl hsound.base hsame fun p => rfl) rfl
    · rename_i hcomplete
      split
      · exact h
      rename_i router hroute
      split
      · rename_i e hrefused
        obtain ⟨hlt, -⟩ := List.getElem?_eq_some_iff.mp hpath
        have hrecorded := removePathState_error hendpoint hpos hlt hrefused
        rw [hpath, any_some] at hrecorded
        rw [strandsOnClose, hslot, any_some, hendpoint] at hkeeps
        simp only [hfind, hpath, any_some, hrecorded, Bool.and_true] at hkeeps
        simp only [bne_iff_ne.mpr hpos, Bool.true_and] at hkeeps
        rw [hkeeps] at hcomplete
        exact absurd rfl hcomplete
      · rename_i slot' hremoved
        have hremove := h.removePath hslot hremoved hcid
        rw [hroute] at hremove
        exact hremove
  · exact h
  · exact h

/-- The path of a pending relayed join whose setup is rejected still has transmissions on record. -/
def strandsOnReject (node : JoinNode NextHop) (association pathId : Nat)
    (accepted : Option ConnectionId) : Bool :=
  accepted.isNone && (node.associations association).any fun slot =>
    slot.relayedJoins[pathId]?.join.isSome && slot.endpoint.any fun endpoint =>
      endpoint.paths[pathId]?.any (·.flags.recorded)

theorem Inv.receiveSetupReply (address : Address) {accepted : Option ConnectionId}
    (hkeeps : node.strandsOnReject association pathId accepted = false) :
    Inv (node.receiveSetupReply association pathId address accepted) := by
  unfold JoinNode.receiveSetupReply
  cases hslot : node.associations association with
  | none => exact h
  | some slot =>
  have hsound := h.sound association slot hslot
  simp only
  cases hendpoint : slot.endpoint with
  | none => exact h
  | some endpoint =>
  cases hjoin : slot.relayedJoins[pathId]?.join with
  | none => exact h
  | some join =>
  have hpos : pathId ≠ 0 := by
    rintro rfl
    rw [isNone_iff_eq_none.mp hsound.base] at hjoin
    cases hjoin
  cases accepted with
  | none =>
    cases hcid : slot.receiveCid pathId with
    | none =>
      -- no id, no path: there is nothing to take out
      cases hremoved : slot.removePathState pathId with
      | error e => exact h
      | ok slot' =>
        obtain ⟨e, he, -, hlt, -⟩ := removePathState_ok hremoved
        obtain ⟨-, hmirrors⟩ := hsound.established e he
        rw [receiveCid, hmirrors.getElem? hlt, getElem?_eq_getElem hlt] at hcid
        have hnamed := hmirrors.named _ (getElem_mem hlt)
        rw [show (e.paths[pathId]).localCid = none from hcid] at hnamed
        cases hnamed
    | some cid =>
      cases hremoved : slot.removePathState pathId with
      | error e =>
        have hlt : pathId < endpoint.paths.length := by
          by_contra hge
          obtain ⟨-, hmirrors⟩ := hsound.established endpoint hendpoint
          rw [receiveCid, hmirrors.getElem?_none (by omega)] at hcid
          cases hcid
        have hrecorded := removePathState_error hendpoint hpos hlt hremoved
        rw [strandsOnReject, hslot] at hkeeps
        simp [hendpoint, hrecorded, hjoin] at hkeeps
      | ok slot' => exact h.removePath hslot hremoved hcid
  | some peerCid =>
    simp only
    split
    · exact h
    rename_i endpoint' hset
    obtain ⟨-, rfl⟩ := setPeerConnectionIdOnPath_ok hset
    rw [modifyPath_modifyPath]
    refine h.keep hslot (hsound.withPaths hendpoint rfl rfl ?_ rfl fun p => rfl) rfl
    show (slot.relayedJoins.set pathId none)[0]?.join.isNone
    rw [getElem?_set_ne hpos]
    exact hsound.base

end

/-! ### Removing an association -/

theorem removeRoutes_spec (association : Nat) (cids : List (Option ConnectionId))
    (node : JoinNode NextHop) (htable : node.router.RegistryInv) :
    (node.removeRoutes association cids).router.RegistryInv ∧
      (∀ entry, entry ∈ (node.removeRoutes association cids).router.entries ↔
        entry ∈ node.router.entries ∧ ∀ cid, some cid ∈ cids →
          entry ≠ (cid, .endpoint association)) ∧
      node.removeRoutes association cids = { node with
        router := (node.removeRoutes association cids).router } := by
  induction cids generalizing node with
  | nil => exact ⟨htable, fun entry => by simp [removeRoutes], rfl⟩
  | cons first cids ih =>
    cases first with
    | none =>
      obtain ⟨hinv, hentries, hrest⟩ := ih node htable
      exact ⟨hinv, fun entry => (hentries entry).trans (by simp), hrest⟩
    | some cid =>
    obtain ⟨-, hremoved⟩ := removeEndpoint_spec htable cid association
    obtain ⟨hinv, hentries, hrest⟩ := ih (node.removeRoute cid association)
      (removeEndpoint_inv htable cid association)
    refine ⟨hinv, fun entry => ?_, hrest⟩
    refine (hentries entry).trans ?_
    rw [show entry ∈ (node.removeRoute cid association).router.entries ↔ _ from hremoved entry]
    constructor
    · rintro ⟨⟨hmem, hne⟩, hothers⟩
      refine ⟨hmem, fun other hother => ?_⟩
      rcases mem_cons.mp hother with heq | hin
      · rw [some.inj heq]
        exact hne
      · exact hothers other hin
    · rintro ⟨hmem, hall⟩
      exact ⟨⟨hmem, hall cid mem_cons_self⟩, fun other hin => hall other (mem_cons_of_mem _ hin)⟩

/-- Exactly the routes of the association retire. -/
theorem Inv.remove_routed (h : Inv node) (association : Nat) (cid : ConnectionId) (other : Nat) :
    (node.remove association).1.router.Routed cid other ↔
      other ≠ association ∧ node.router.Routed cid other := by
  unfold remove
  cases hslot : node.associations association with
  | none =>
    refine ⟨fun hrouted => ⟨?_, hrouted⟩, And.right⟩
    rintro rfl
    obtain ⟨slot, hlive, -⟩ := (h.routes cid other).mp hrouted
    rw [hslot] at hlive
    cases hlive
  | some slot =>
    obtain ⟨-, hentries, -⟩ := removeRoutes_spec association slot.receiveCids
      { node with associations := Function.update node.associations association none } h.table
    refine (hentries _).trans ?_
    constructor
    · rintro ⟨hmem, hne⟩
      refine ⟨?_, hmem⟩
      rintro rfl
      exact hne cid ((h.entry_iff hslot cid).mp hmem) rfl
    rintro ⟨hne, hmem⟩
    refine ⟨hmem, fun cid' _ heq => ?_⟩
    cases heq
    exact hne rfl

theorem Inv.remove (h : Inv node) (association : Nat) : Inv (node.remove association).1 := by
  have hrouted := h.remove_routed association
  unfold JoinNode.remove at hrouted ⊢
  cases hslot : node.associations association with
  | none => exact h
  | some slot =>
  simp only [hslot] at hrouted ⊢
  obtain ⟨htable, -, hrest⟩ := removeRoutes_spec association slot.receiveCids
    { node with associations := Function.update node.associations association none } h.table
  have hold : ∀ other slot', Function.update node.associations association none other =
      some slot' →
      other ≠ association ∧ node.associations other = some slot' := by
    intro other slot' hother
    by_cases heq : other = association
    · subst heq
      rw [update_self] at hother
      cases hother
    · rw [update_of_ne heq] at hother
      exact ⟨heq, hother⟩
  rw [hrest]
  refine ⟨htable, fun other slot' ho => h.live other slot' (hold other slot' ho).2,
    fun other slot' ho => h.sound other slot' (hold other slot' ho).2, fun cid other => ?_⟩
  refine (hrouted cid other).trans ?_
  rw [h.routes]
  constructor
  · rintro ⟨hne, slot', hslot', hmem⟩
    exact ⟨slot', (update_of_ne hne ..).trans hslot', hmem⟩
  · rintro ⟨slot', hslot', hmem⟩
    exact ⟨(hold other slot' hslot').1, slot', (hold other slot' hslot').2, hmem⟩

/-! ## Runs -/

inductive Step where
  | addClient (receiveCid : ConnectionId) (reserved : Bool)
  | addServer (receiveCid peerCid : ConnectionId) (reserved : Bool)
  | establish (association : Nat) (peerCid : ConnectionId)
  | setupRelayed (association : Nat) (joinCid : ConnectionId) (relayCid : Option ConnectionId)
  | remove (association : Nat)
  | openDirectPath (association : Nat) (address : Address) (built reserved : Bool)
  | retryDirectPath (association : Nat) (key : CircuitKey) (built : Bool)
  | receivePathJoin (association ingressPath : Nat) (address : Address) (join : PathJoin)
      (built reserved : Bool)
  | receivePathJoinAck (association ingressPath : Nat) (address : Address) (ack : PathJoinAck)
  | closeCircuit (association localId : Nat) (sequenceLeft : Bool)
  | joinRelayedPath (association : Nat) (address : Address) (now : Nat) (built reserved : Bool)
  | receiveSetupJoin (joinCid openerReceiveCid : ConnectionId)
      (previousReverseCid : Option ConnectionId) (key : CircuitKey) (transactionId : Nat)
      (address : Address) (built completed reserved : Bool)
  | receiveSetupReply (association pathId : Nat) (address : Address)
      (accepted : Option ConnectionId)
  | relayedJoinDue (association pathId now : Nat) (built : Bool)
  | transport (association pathId : Nat) (flags : PathFlags)

def step (node : JoinNode NextHop) : Step → JoinNode NextHop
  | .addClient receiveCid reserved => (node.addClient receiveCid reserved).1
  | .addServer receiveCid peerCid reserved => (node.addServer receiveCid peerCid reserved).1
  | .establish association peerCid => node.establish association peerCid
  | .setupRelayed association joinCid relayCid => node.setupRelayed association joinCid relayCid
  | .remove association => (node.remove association).1
  | .openDirectPath association address built reserved =>
    (node.openDirectPath association address built reserved).1
  | .retryDirectPath association key built => (node.retryDirectPath association key built).1
  | .receivePathJoin association ingressPath address join built reserved =>
    (node.receivePathJoin association ingressPath address join built reserved).1
  | .receivePathJoinAck association ingressPath address ack =>
    (node.receivePathJoinAck association ingressPath address ack).1
  | .closeCircuit association localId sequenceLeft =>
    (node.closeCircuit association localId sequenceLeft).1
  | .joinRelayedPath association address now built reserved =>
    (node.joinRelayedPath association address now built reserved).1
  | .receiveSetupJoin joinCid openerReceiveCid previousReverseCid key transactionId address built
      completed reserved =>
    (node.receiveSetupJoin joinCid openerReceiveCid previousReverseCid key transactionId address
      built completed reserved).1
  | .receiveSetupReply association pathId address accepted =>
    node.receiveSetupReply association pathId address accepted
  | .relayedJoinDue association pathId now built =>
    (node.relayedJoinDue association pathId now built).1
  | .transport association pathId flags => node.transport association pathId flags

/-- No path is closed, and no setup rejected, while a transmission of that path is on record. -/
def Keeps (node : JoinNode NextHop) : Step → Prop
  | .closeCircuit association localId _ => node.strandsOnClose association localId = false
  | .receiveSetupReply association pathId _ accepted =>
    node.strandsOnReject association pathId accepted = false
  | _ => True

instance (node : JoinNode NextHop) : (step : Step) → Decidable (node.Keeps step)
  | .closeCircuit association localId _ =>
    inferInstanceAs (Decidable (node.strandsOnClose association localId = false))
  | .receiveSetupReply association pathId _ accepted =>
    inferInstanceAs (Decidable (node.strandsOnReject association pathId accepted = false))
  | .addClient .. | .addServer .. | .establish .. | .setupRelayed .. | .remove _
  | .openDirectPath .. | .retryDirectPath .. | .receivePathJoin .. | .receivePathJoinAck ..
  | .joinRelayedPath .. | .receiveSetupJoin .. | .relayedJoinDue .. | .transport .. =>
    isTrue trivial

theorem Inv.step (h : Inv node) {step : Step} (hkeeps : node.Keeps step) :
    Inv (node.step step) := by
  cases step with
  | addClient receiveCid reserved =>
    apply h.insert
    intro e he
    cases he
  | addServer receiveCid peerCid reserved =>
    apply h.insert
    intro e he
    rw [← some.inj he]
    exact ⟨_, rfl, rfl⟩
  | establish => exact h.establish ..
  | setupRelayed => exact h.setupRelayed ..
  | remove => exact h.remove ..
  | openDirectPath => exact h.openDirectPath ..
  | retryDirectPath => exact h.retryDirectPath ..
  | receivePathJoin => exact h.receivePathJoin ..
  | receivePathJoinAck => exact h.receivePathJoinAck ..
  | closeCircuit association localId sequenceLeft => exact h.closeCircuit sequenceLeft hkeeps
  | joinRelayedPath => exact h.joinRelayedPath ..
  | receiveSetupJoin => exact h.receiveSetupJoin ..
  | receiveSetupReply association pathId address accepted =>
    exact h.receiveSetupReply address hkeeps
  | relayedJoinDue => exact h.relayedJoinDue ..
  | transport => exact h.transport ..

/-- The paths, the arrays and the route table say the same. -/
structure RoutesAgree (node : JoinNode NextHop) : Prop where
  paths : ∀ association slot endpoint, node.associations association = some slot →
    slot.endpoint = some endpoint →
    ∀ i cid, slot.receiveCid i = some cid ↔
      i < endpoint.paths.length ∧ endpoint.localConnectionIdOnPath i = some cid
  named : ∀ association slot endpoint, node.associations association = some slot →
    slot.endpoint = some endpoint →
    ∀ i < endpoint.paths.length, ∃ cid, slot.receiveCid i = some cid
  waiting : ∀ association slot, node.associations association = some slot → slot.endpoint = none →
    ∀ i, (∃ cid, slot.receiveCid i = some cid) ↔ i = 0
  routes : ∀ cid association, node.router.Routed cid association ↔
    ∃ slot, node.associations association = some slot ∧ ∃ i, slot.receiveCid i = some cid
  single : ∀ cid association other, node.router.Routed cid association →
    node.router.Routed cid other →
    association = other
  once : ∀ association slot, node.associations association = some slot → ∀ i j cid,
    slot.receiveCid i = some cid → slot.receiveCid j = some cid → i = j

theorem Inv.routesAgree (h : Inv node) : RoutesAgree node where
  paths := by
    intro association slot endpoint hslot hendpoint i cid
    obtain ⟨-, hmirrors⟩ := (h.sound association slot hslot).established endpoint hendpoint
    refine (hmirrors.agrees i cid).trans ?_
    constructor
    · rintro ⟨path, hpath, hcid⟩
      obtain ⟨hlt, -⟩ := List.getElem?_eq_some_iff.mp hpath
      refine ⟨hlt, ?_⟩
      rw [localConnectionIdOnPath, hpath, bind_some, hcid]
      rfl
    rintro ⟨hlt, hcid⟩
    refine ⟨endpoint.paths[i], getElem?_eq_getElem hlt, ?_⟩
    -- every path has an id of its own, so the endpoint's does not come in
    obtain ⟨own, hown⟩ := isSome_iff_exists.mp (hmirrors.named _ (getElem_mem hlt))
    rw [localConnectionIdOnPath, getElem?_eq_getElem hlt, bind_some,
      hown] at hcid
    rw [hown, ← hcid]
    rfl
  named := by
    intro association slot endpoint hslot hendpoint i hlt
    obtain ⟨-, hmirrors⟩ := (h.sound association slot hslot).established endpoint hendpoint
    obtain ⟨cid, hcid⟩ := isSome_iff_exists.mp (hmirrors.named _ (getElem_mem hlt))
    exact ⟨cid, (hmirrors.agrees i cid).mpr ⟨_, getElem?_eq_getElem hlt, hcid⟩⟩
  waiting := by
    intro association slot hslot hnone i
    obtain ⟨cid, hcids⟩ := (h.sound association slot hslot).waiting hnone
    rw [receiveCid, hcids]
    cases i with
    | zero => exact ⟨fun _ => rfl, fun _ => ⟨cid, rfl⟩⟩
    | succ i =>
      refine ⟨fun ⟨other, hother⟩ => ?_, fun heq => by cases heq⟩
      cases eq_of_mem_replicate (mem_of_getElem? (join_eq_some_iff.mp hother))
  routes := by
    intro cid association
    rw [h.routes]
    constructor
    · rintro ⟨slot, hslot, hmem⟩
      exact ⟨slot, hslot, join_getElem?_of_mem hmem⟩
    · rintro ⟨slot, hslot, i, hi⟩
      exact ⟨slot, hslot, mem_of_join_getElem? hi⟩
  single := by
    intro cid association other hfirst hsecond
    exact h.table.routed_unique hfirst hsecond
  once := by
    intro association slot hslot
    exact (h.sound association slot hslot).distinct

/-- In every run that closes no circuit and loses no setup while a transmission of the path is on
record, routes and paths agree in every state, and removing an association retires exactly its
routes. -/
theorem routes_agree {maxEntries maxAssociations : Nat} {steps : List Step}
    (hrun : Runs.Along step Keeps (new maxEntries maxAssociations : JoinNode NextHop) steps) :
    RoutesAgree (Runs.exec step (new maxEntries maxAssociations : JoinNode NextHop) steps) ∧
      ∀ association cid other,
        ((Runs.exec step (new maxEntries maxAssociations : JoinNode NextHop)
          steps).remove association).1.router.Routed cid other ↔
        other ≠ association ∧ (Runs.exec step (new maxEntries maxAssociations : JoinNode NextHop)
          steps).router.Routed cid other := by
  have hinv := hrun.invariant (P := Inv) (fun _ _ h hkeeps => h.step hkeeps)
    (inv_new maxEntries maxAssociations)
  exact ⟨hinv.routesAgree, hinv.remove_routed⟩

/-- A server whose client joined a second path. A rejection that answers no join finds nothing to
take out, though the path is on record. The path is validated and closed, its abandon status is
acknowledged, and closing it again takes it out; a relayed join is opened in its place and
rejected. -/
def closedRun : List Step :=
  [.addServer ⟨50, by decide⟩ ⟨90, by decide⟩ true,
    .receivePathJoin 0 0 (1, 1) ⟨⟨50, by decide⟩, ⟨.client, 1⟩, 1, ⟨91, by decide⟩⟩ true true,
    .transport 0 1 ⟨true, false, false, true, false, [(1, 1)], some (1, 1)⟩,
      .receiveSetupReply 0 1 (2, 2) none,
    .transport 0 1 ⟨true, false, false, false, false, [(1, 1)], some (1, 1)⟩,
      .closeCircuit 0 1 true,
    .transport 0 1 ⟨false, true, false, false, false, [(1, 1)], some (1, 1)⟩,
      .closeCircuit 0 1 true,
    .joinRelayedPath 0 (2, 2) 0 true true, .receiveSetupReply 0 1 (2, 2) none]

theorem closedRun_routes_agree : Runs.Along step Keeps (new 16 4 : JoinNode Unit) closedRun ∧
      RoutesAgree (Runs.exec step (new 16 4 : JoinNode Unit) closedRun) := by
  have hrun : Runs.Along step Keeps (.new 16 4 : JoinNode Unit) closedRun := by
    decide +kernel
  exact ⟨hrun, (routes_agree hrun).1⟩

/-- A client opens a relayed join. A packet of the peer reaches the new id before the reply does and
validates the path, stream data is sent on it, and the reply is a rejection. -/
def strandingRun : List Step :=
  [.addClient ⟨50, by decide⟩ true, .establish 0 ⟨90, by decide⟩,
    .joinRelayedPath 0 (1, 1) 0 true true,
    .transport 0 1 ⟨true, false, false, true, false, [(1, 1)], some (1, 1)⟩,
      .receiveSetupReply 0 1 (1, 1) none]

/-- The second path is still there, under an id that has lost its route. -/
theorem strandingRun_route_lost :
    ¬RoutesAgree (Runs.exec step (new 16 4 : JoinNode Unit) strandingRun) := by
  intro hagree
  have hslot : ((Runs.exec step (.new 16 4 : JoinNode Unit) strandingRun).associations 0).any
      (fun slot => slot.receiveCid 1 == some ⟨1, by decide⟩) = true := by decide +kernel
  obtain ⟨slot, hlive, hcid⟩ := (any_eq_true _ _).mp hslot
  have hrouted := (hagree.routes ⟨1, by decide⟩ 0).mpr ⟨slot, hlive, 1, eq_of_beq hcid⟩
  have hgone : (Runs.exec step (.new 16 4 : JoinNode Unit) strandingRun).router.entries.map
      (·.1.value) =
      [50] := by decide +kernel
  have hmem := mem_map_of_mem (f := fun entry => entry.1.value) hrouted
  cases mem_singleton.mp hmem

end JoinNode

end QuicLite
