import QuicLite.Relay.Rewrite
import QuicLite.Flow
import QuicLite.Lib.BinarySearch
import QuicLite.Lib.Runs

/-!
# The registry of destination ids

A relay keeps one table, sorted by connection id, of local endpoints and forward rules. The two
directions of a circuit are installed as a pair: their rules share a lease group, and with it
duration and expiry. Leases are renewed from traffic in either direction, and end lazily at a lookup
or eagerly on a timer. `RegistryInv` is what all of this keeps: in a group there are two rules, or
none.
-/

namespace QuicLite

open List Option BinarySearch

/-! ## Rules and entries -/

inductive ForwardDestination where
  | connection (dcid : ConnectionId)
  | bootstrap
  deriving DecidableEq

structure ForwardRule (NextHop : Type) where
  nextHop : NextHop
  destination : ForwardDestination
  leaseDurationUs : Nat
  leaseExpiresAtUs : Nat
  leaseGroupId : Nat
  packetQuota : Nat
  forwardedPackets : Nat
  forwardedControlPackets : Nat
  quotaWindowStartedUs : Nat
  deriving DecidableEq

inductive DcidTarget (Endpoint NextHop : Type) where
  | endpoint (value : Endpoint)
  | forward (rule : ForwardRule NextHop)

inductive DcidRegistryError where
  | invalidConnectionId
  | occupied
  | full
  | missing
  | wrongTarget
  | invalidLeaseGroup

/-- The rule of a target, if it forwards within this lease group. -/
def DcidTarget.ruleOf {Endpoint NextHop : Type} (group : Nat) :
    DcidTarget Endpoint NextHop → Option (ForwardRule NextHop)
  | .endpoint _ => none
  | .forward rule => if rule.leaseGroupId = group then some rule else none

structure DcidRegistry (Endpoint NextHop : Type) where
  entries : List (ConnectionId × DcidTarget Endpoint NextHop)
  maxEntries : Nat

namespace DcidRegistry

variable {Endpoint NextHop : Type} {index group : Nat} {dcid : ConnectionId}
    {rule : ForwardRule NextHop}
variable {p : ConnectionId × DcidTarget Endpoint NextHop → Bool}

def new (maxEntries : Nat) : DcidRegistry Endpoint NextHop := ⟨[], maxEntries⟩

variable (self : DcidRegistry Endpoint NextHop)

def find (dcid : ConnectionId) : Except Nat Nat :=
  search (fun entry => entry.1.value) dcid.value self.entries

/-! ## Registration

`reserved` is whether the allocator could reserve the entries. -/

def insert (dcid : ConnectionId) (target : DcidTarget Endpoint NextHop)
    (reserved : Bool) : DcidRegistry Endpoint NextHop × Except DcidRegistryError Unit :=
  if dcid.value = 0 then (self, .error .invalidConnectionId)
  else
    match self.find dcid with
    | .ok _ => (self, .error .occupied)
    | .error index =>
      if self.maxEntries ≤ self.entries.length then (self, .error .full)
      else if !reserved then (self, .error .full)
      else ({ self with entries := self.entries.insertIdx index (dcid, target) }, .ok ())

def insertEndpoint (dcid : ConnectionId) (endpoint : Endpoint) (reserved : Bool) :
    DcidRegistry Endpoint NextHop × Except DcidRegistryError Unit :=
  self.insert dcid (.endpoint endpoint) reserved

def installForward (dcid : ConnectionId) (rule : ForwardRule NextHop)
    (reserved : Bool) : DcidRegistry Endpoint NextHop × Except DcidRegistryError Unit :=
  if rule.leaseGroupId ≠ 0 then (self, .error .invalidLeaseGroup)
  else self.insert dcid (.forward rule) reserved

section

variable (firstCid : ConnectionId) (first : ForwardRule NextHop) (secondCid : ConnectionId)
  (second : ForwardRule NextHop)

/-- Two rules that may be the directions of one circuit. -/
def isPair : Bool :=
  !(firstCid == secondCid || first.leaseGroupId == 0 || first.leaseGroupId != second.leaseGroupId
    || first.leaseDurationUs != second.leaseDurationUs ||
      first.leaseExpiresAtUs != second.leaseExpiresAtUs
    || first.packetQuota != second.packetQuota || first.forwardedPackets != 0 ||
      second.forwardedPackets != 0
    || first.forwardedControlPackets != 0 || second.forwardedControlPackets != 0)

/-- `self.entries.insert(self.find(dcid).unwrap_err(), ..)` -/
def insertMissing (dcid : ConnectionId) (rule : ForwardRule NextHop) :
    DcidRegistry Endpoint NextHop :=
  match self.find dcid with
  | .ok _ => self
  | .error index => { self with entries := self.entries.insertIdx index (dcid, .forward rule) }

def installForwardPair (reserved : Bool) :
    DcidRegistry Endpoint NextHop × Except DcidRegistryError Unit :=
  if firstCid.value = 0 ∨ secondCid.value = 0 then (self, .error .invalidConnectionId)
  else if !isPair firstCid first secondCid second then (self, .error .invalidLeaseGroup)
  else if self.entries.any fun entry => (entry.2.ruleOf first.leaseGroupId).isSome then
    (self, .error .occupied)
  else if (self.find firstCid).toBool || (self.find secondCid).toBool then (self, .error .occupied)
  else if self.maxEntries < satAdd self.entries.length 2 then (self, .error .full)
  else if !reserved then (self, .error .full)
  else if firstCid.value < secondCid.value then
    ((self.insertMissing firstCid first).insertMissing secondCid second, .ok ())
  else ((self.insertMissing secondCid second).insertMissing firstCid first, .ok ())

end

/-! ## Removal -/

/-- `retain` all but the rules of a lease group. -/
def removeGroup (group : Nat) : DcidRegistry Endpoint NextHop :=
  { self with entries := self.entries.filter fun entry => (entry.2.ruleOf group).isNone }

def removeForwardPair (firstCid secondCid : ConnectionId) : DcidRegistry Endpoint NextHop × Bool :=
  match self.find firstCid, self.find secondCid with
  | .ok firstIndex, .ok secondIndex =>
    match self.entries[firstIndex]?, self.entries[secondIndex]? with
    | some (_, .forward first), some (_, .forward second) =>
      if firstCid = secondCid ∨ first.leaseGroupId = 0 ∨
        first.leaseGroupId ≠ second.leaseGroupId then (self, false)
      else (self.removeGroup first.leaseGroupId, true)
    | _, _ => (self, false)
  | _, _ => (self, false)

def removeEndpoint [BEq Endpoint] (self : DcidRegistry Endpoint NextHop) (dcid : ConnectionId)
    (expected : Endpoint) : DcidRegistry Endpoint NextHop × Bool :=
  match self.find dcid with
  | .error _ => (self, false)
  | .ok index =>
    match self.entries[index]? with
    | some (_, .endpoint endpoint) =>
      if endpoint == expected then ({ self with entries := self.entries.eraseIdx index }, true)
      else (self, false)
    | _ => (self, false)

def expireForwardLeases (nowUs : Nat) : DcidRegistry Endpoint NextHop × Nat :=
  let entries := self.entries.filter fun entry =>
    match entry.2 with
    | .forward rule => nowUs < rule.leaseExpiresAtUs
    | .endpoint _ => true
  ({ self with entries := entries }, self.entries.length - entries.length)

/-! ## Traffic -/

/-- The rule at a destination, with its position. -/
def forwardAt (dcid : ConnectionId) : Option (Nat × ForwardRule NextHop) :=
  match self.find dcid with
  | .error _ => none
  | .ok index =>
    match self.entries[index]? with
    | some (_, .forward rule) => some (index, rule)
    | _ => none

def setRule (index : Nat) (rule : ForwardRule NextHop) : DcidRegistry Endpoint NextHop :=
  { self with entries := self.entries.modify index fun entry => (entry.1, .forward rule) }

/-- A fixed window of the quota may have ended. -/
def ForwardRule.rollQuotaWindow {NextHop : Type} (rule : ForwardRule NextHop) (nowUs : Nat) :
    ForwardRule NextHop :=
  let windowUs := max rule.leaseDurationUs 1
  let elapsedUs := nowUs - rule.quotaWindowStartedUs
  if windowUs ≤ elapsedUs then
    { rule with
      quotaWindowStartedUs := satAdd rule.quotaWindowStartedUs
        (satMul (elapsedUs / windowUs) windowUs)
      forwardedPackets := 0
      forwardedControlPackets := 0 }
  else rule

def consumeForwardQuota (dcid : ConnectionId) (controlPacket : Bool)
    (nowUs : Nat) : DcidRegistry Endpoint NextHop × Bool :=
  match self.forwardAt dcid with
  | none => (self, false)
  | some (index, rule) =>
    if rule.packetQuota = 0 then (self, true)
    else
      let rule := ForwardRule.rollQuotaWindow rule nowUs
      let controlReserve := max (rule.packetQuota / 16) 1
      if rule.packetQuota ≤ rule.forwardedPackets then (self.setRule index rule, false)
      else if !controlPacket && rule.packetQuota - controlReserve ≤ rule.forwardedPackets then
        (self.setRule index rule, false)
      else
        (self.setRule index { rule with
          forwardedPackets := satAdd rule.forwardedPackets 1
          forwardedControlPackets :=
            if controlPacket then satAdd rule.forwardedControlPackets 1
            else rule.forwardedControlPackets }, true)

/-- The destination of a packet: `decode_routing_prefix`, of which only the id is used here. -/
def routingDcid (input : Bytes) : Except Error ConnectionId :=
  if isLongHeader input then do
    let (header, _, _) ← decodeLongPacket input
    .ok (header.dcid.getD ⟨0, by decide⟩)
  else do
    let short ← ShortHeader.decodePrefix input
    .ok short.dcid

/-- An expired direction goes together with its partner; false says so. -/
def forwardLeaseActive (input : Bytes) (nowUs : Nat) :
    DcidRegistry Endpoint NextHop × Except Error Bool :=
  match routingDcid input with
  | .error e => (self, .error e)
  | .ok dcid =>
    match self.forwardAt dcid with
    | none => (self, .ok true)
    | some (index, rule) =>
      if nowUs < rule.leaseExpiresAtUs then (self, .ok true)
      else if rule.leaseGroupId = 0 then
        ({ self with entries := self.entries.eraseIdx index }, .ok false)
      else (self.removeGroup rule.leaseGroupId, .ok false)

/-- Renew every rule of a lease group. -/
def renewGroup (group expiresAtUs : Nat) : DcidRegistry Endpoint NextHop :=
  { self with
    entries := self.entries.map fun entry =>
      match entry.2 with
      | .forward rule =>
        if rule.leaseGroupId = group then
          (entry.1, .forward { rule with leaseExpiresAtUs := expiresAtUs }) else entry
      | .endpoint _ => entry }

def refreshForwardLease (input : Bytes) (nowUs : Nat) :
    DcidRegistry Endpoint NextHop × Except Error Bool :=
  match self.forwardLeaseActive input nowUs with
  | (self, .error e) => (self, .error e)
  | (self, .ok false) => (self, .ok false)
  | (self, .ok true) =>
    match routingDcid input with
    | .error e => (self, .error e)
    | .ok dcid =>
      match self.forwardAt dcid with
      | none => (self, .ok true)
      | some (index, rule) =>
        let expiresAtUs := satAdd nowUs rule.leaseDurationUs
        if rule.leaseGroupId = 0 then
          (self.setRule index { rule with leaseExpiresAtUs := expiresAtUs }, .ok true)
        else (self.renewGroup rule.leaseGroupId expiresAtUs, .ok true)

/-! ## The invariant -/

/-- Duration and expiry of the target's lease, if it forwards within this lease group. -/
def leaseOf (group : Nat) (entry : ConnectionId × DcidTarget Endpoint NextHop) :
    Option (Nat × Nat) :=
  (entry.2.ruleOf group).map fun rule => (rule.leaseDurationUs, rule.leaseExpiresAtUs)

/-- The leases of the rules of a group, in the order of the table. -/
def groupLeases (group : Nat) (self : DcidRegistry Endpoint NextHop) : List (Nat × Nat) :=
  self.entries.filterMap (leaseOf group)

/-- The two directions of a circuit, or neither. -/
def Paired (leases : List (Nat × Nat)) : Prop := leases = [] ∨ ∃ lease, leases = [lease, lease]

structure RegistryInv (registry : DcidRegistry Endpoint NextHop) : Prop where
  sorted : Sorted (fun entry => entry.1.value) registry.entries
  nonzero : ∀ entry ∈ registry.entries, entry.1.value ≠ 0
  paired : ∀ group ≠ 0, Paired (registry.groupLeases group)

/-- Of a lease group, all entries are kept or none. -/
def WholeGroups (self after : DcidRegistry Endpoint NextHop) : Prop :=
  ∀ group ≠ 0, (∀ entry ∈ self.entries, (leaseOf group entry).isSome → entry ∈ after.entries) ∨
    ∀ entry ∈ after.entries, leaseOf group entry = none

def UnchangedOnError (result : DcidRegistry Endpoint NextHop × Except DcidRegistryError Unit) :
    Prop :=
  ∀ e, result.2 = .error e → result.1 = self

open DcidTarget

theorem leaseOf_ruleOf_zero (hgroup : group ≠ 0) (hrule : rule.leaseGroupId = 0) :
    leaseOf group (dcid, (.forward rule : DcidTarget Endpoint NextHop)) = none := by
  simp [leaseOf, ruleOf, hrule, Ne.symm hgroup]

theorem leaseOf_endpoint (group : Nat) (dcid : ConnectionId) (endpoint : Endpoint) :
    leaseOf group (dcid, (.endpoint endpoint : DcidTarget Endpoint NextHop)) = none := rfl

variable {self : DcidRegistry Endpoint NextHop} {after : DcidRegistry Endpoint NextHop}

/-- One step of the table: entries are dropped or come in so that every group stays whole. -/
theorem RegistryInv.of_perm (h : self.RegistryInv)
    (hsorted : Sorted (fun entry => entry.1.value) after.entries)
    {added : List (ConnectionId × DcidTarget Endpoint NextHop)}
    (hperm : after.entries.Perm (added ++ self.entries))
    (hnonzero : ∀ entry ∈ added, entry.1.value ≠ 0)
    (hpaired : ∀ group ≠ 0, added.filterMap (leaseOf group) = [] ∨
      self.groupLeases group = [] ∧ Paired (added.filterMap (leaseOf group))) :
      after.RegistryInv where
  sorted := hsorted
  nonzero := by
    intro entry hentry
    rcases mem_append.mp (hperm.mem_iff.mp hentry) with hmem | hmem
    · exact hnonzero entry hmem
    · exact h.nonzero entry hmem
  paired := by
    intro group hgroup
    have hleases : (after.groupLeases group).Perm
        (added.filterMap (leaseOf group) ++ self.groupLeases group) := by
      have := hperm.filterMap (leaseOf group)
      rwa [filterMap_append] at this
    have hwhole : Paired (added.filterMap (leaseOf group) ++ self.groupLeases group) := by
      rcases hpaired group hgroup with hnone | ⟨hself, hpair⟩
      · rw [hnone]
        exact h.paired group hgroup
      · rw [hself, append_nil]
        exact hpair
    rcases hwhole with hnil | ⟨lease, htwo⟩
    · exact .inl (hnil ▸ hleases).eq_nil
    · rw [htwo] at hleases
      exact .inr ⟨lease, (perm_replicate (n := 2)).mp hleases⟩

/-- Dropping entries keeps the order; it is up to the caller that groups stay whole. -/
theorem RegistryInv.of_sublist (h : self.RegistryInv) (hsub : after.entries.Sublist self.entries)
    (hpaired : ∀ group ≠ 0, after.groupLeases group = [] ∨
      after.groupLeases group = self.groupLeases group) : after.RegistryInv where
  sorted := h.sorted.sublist hsub
  nonzero := fun entry hentry => h.nonzero entry (hsub.subset hentry)
  paired := by
    intro group hgroup
    rcases hpaired group hgroup with hnil | heq
    · exact .inl hnil
    · exact heq ▸ h.paired group hgroup

/-- Rewriting rules in place keeps keys; it is up to the caller that partners are rewritten
alike. -/
theorem RegistryInv.of_keys (h : self.RegistryInv)
    (hkeys : after.entries.map (·.1) = self.entries.map (·.1))
    (hpaired : ∀ group ≠ 0, Paired (after.groupLeases group)) : after.RegistryInv where
  sorted := by
    have hself := h.sorted
    unfold Sorted at hself ⊢
    rw [← pairwise_map (f := Prod.fst) (R := fun a b : ConnectionId =>
      a.value < b.value)] at hself ⊢
    rwa [hkeys]
  nonzero := by
    intro entry hentry
    have hmem : entry.1 ∈ self.entries.map (·.1) := hkeys ▸ mem_map_of_mem hentry
    obtain ⟨old, hold, hkey⟩ := mem_map.mp hmem
    exact hkey ▸ h.nonzero old hold
  paired := hpaired

/-! ## Registration keeps it -/

theorem insertMissing_spec (h : Sorted (fun entry => entry.1.value) self.entries)
    (hfind : self.find dcid = .error index) (rule : ForwardRule NextHop) :
    Sorted (fun entry => entry.1.value) (self.insertMissing dcid rule).entries ∧
      (self.insertMissing dcid rule).entries.Perm ((dcid, .forward rule) :: self.entries) := by
  unfold insertMissing
  rw [hfind]
  exact h.insertIdx (a := (dcid, .forward rule)) hfind

theorem find_error_iff (h : Sorted (fun entry => entry.1.value) self.entries)
    (dcid : ConnectionId) : (∃ index, self.find dcid = .error index) ↔
      ∀ entry ∈ self.entries, entry.1.value ≠ dcid.value := by
  constructor
  · rintro ⟨index, hfind⟩ entry hentry hkey
    obtain ⟨i, hi⟩ := mem_iff_getElem?.mp hentry
    have hok : self.find dcid = .ok i := by
      unfold find
      rw [← hkey]
      exact search_getElem h hi
    rw [hok] at hfind
    cases hfind
  intro hnone
  cases hfind : self.find dcid with
  | error index => exact ⟨index, rfl⟩
  | ok index =>
    obtain ⟨entry, hentry, hkey⟩ := search_ok hfind
    exact absurd hkey (hnone entry (mem_of_getElem? hentry))

theorem insert_inv (h : self.RegistryInv) (dcid : ConnectionId)
    {target : DcidTarget Endpoint NextHop}
    (htarget : ∀ group ≠ 0, leaseOf group (dcid, target) = none) (reserved : Bool) :
    (self.insert dcid target reserved).1.RegistryInv := by
  unfold insert
  split
  · exact h
  rename_i hzero
  split
  · exact h
  rename_i index hfind
  split
  · exact h
  split
  · exact h
  obtain ⟨hsorted, hperm⟩ := h.sorted.insertIdx (a := (dcid, target)) hfind
  refine @RegistryInv.of_perm _ _ self _ h hsorted [(dcid, target)] hperm ?_ ?_
  · intro entry hentry
    rw [mem_singleton.mp hentry]
    exact hzero
  · intro group hgroup
    exact .inl (by simp [htarget group hgroup])

theorem insert_unchanged (self : DcidRegistry Endpoint NextHop) (dcid : ConnectionId)
    (target : DcidTarget Endpoint NextHop) (reserved : Bool) :
    self.UnchangedOnError (self.insert dcid target reserved) := by
  intro e herror
  unfold insert at herror ⊢
  split
  · rfl
  split
  · rfl
  split
  · rfl
  split
  · rfl
  · simp_all

theorem installForward_inv (h : self.RegistryInv) (dcid : ConnectionId)
    (rule : ForwardRule NextHop) (reserved : Bool) :
    (self.installForward dcid rule reserved).1.RegistryInv := by
  unfold installForward
  split
  · exact h
  · rename_i hrule
    exact insert_inv h dcid (fun group hgroup => leaseOf_ruleOf_zero hgroup (not_not.mp hrule))
      reserved

/-- Two missing keys come in together, in either order. -/
theorem insertMissing_both (h : self.RegistryInv) {lowCid highCid : ConnectionId}
    {low high : ForwardRule NextHop} (hlowZero : lowCid.value ≠ 0) (hhighZero : highCid.value ≠ 0)
    (hne : lowCid.value ≠ highCid.value) (hlow : ∃ index, self.find lowCid = .error index)
    (hhigh : ∃ index, self.find highCid = .error index)
    (hgroup : low.leaseGroupId = high.leaseGroupId)
    (hlease : (low.leaseDurationUs, low.leaseExpiresAtUs) =
      (high.leaseDurationUs, high.leaseExpiresAtUs))
    (hfresh : self.groupLeases low.leaseGroupId = []) :
    ((self.insertMissing lowCid low).insertMissing highCid high).RegistryInv := by
  obtain ⟨lowIndex, hlowFind⟩ := hlow
  obtain ⟨hsorted, hperm⟩ := insertMissing_spec h.sorted hlowFind low
  obtain ⟨highIndex, hhighFind⟩ : ∃ index,
      (self.insertMissing lowCid low).find highCid = .error index := by
    refine (find_error_iff hsorted highCid).mpr fun entry hentry => ?_
    rcases mem_cons.mp (hperm.mem_iff.mp hentry) with rfl | hmem
    · exact hne
    · exact (find_error_iff h.sorted highCid).mp hhigh entry hmem
  obtain ⟨hsorted', hperm'⟩ := insertMissing_spec hsorted hhighFind high
  refine @RegistryInv.of_perm _ _ self _ h hsorted' [(highCid, .forward high),
    (lowCid, .forward low)]
    (hperm'.trans (hperm.cons _)) ?_ ?_
  · intro entry hentry
    rcases mem_pair.mp hentry with rfl | rfl
    · exact hhighZero
    · exact hlowZero
  intro group _
  by_cases hsame : low.leaseGroupId = group
  · refine .inr ⟨hsame ▸ hfresh, .inr ⟨(low.leaseDurationUs, low.leaseExpiresAtUs), ?_⟩⟩
    have hsame' : high.leaseGroupId = group := hgroup ▸ hsame
    simp [leaseOf, ruleOf, hsame, hsame', ← hlease]
  · have hsame' : ¬ high.leaseGroupId = group := hgroup ▸ hsame
    exact .inl (by simp [leaseOf, ruleOf, hsame, hsame'])

theorem isPair_eq_true {firstCid secondCid : ConnectionId} {first second : ForwardRule NextHop}
    (h : isPair firstCid first secondCid second = true) :
    firstCid ≠ secondCid ∧ first.leaseGroupId = second.leaseGroupId ∧
      (first.leaseDurationUs, first.leaseExpiresAtUs) =
        (second.leaseDurationUs, second.leaseExpiresAtUs) := by
  simp only [isPair, Bool.not_eq_true', Bool.or_eq_false_iff, beq_eq_false_iff_ne,
    bne_eq_false_iff_eq] at h
  exact ⟨h.1.1.1.1.1.1.1.1.1, h.1.1.1.1.1.1.1.2, by rw [h.1.1.1.1.1.1.2, h.1.1.1.1.1.2]⟩

theorem installForwardPair_inv (h : self.RegistryInv) (firstCid : ConnectionId)
    (first : ForwardRule NextHop) (secondCid : ConnectionId) (second : ForwardRule NextHop)
    (reserved : Bool) :
    (self.installForwardPair firstCid first secondCid second reserved).1.RegistryInv := by
  unfold installForwardPair
  split
  · exact h
  rename_i hzero
  rw [not_or] at hzero
  split
  · exact h
  rename_i hpair
  obtain ⟨hne, hgroup, hlease⟩ := isPair_eq_true (by simpa using hpair)
  split
  · exact h
  rename_i hfresh
  split
  · exact h
  rename_i hmissing
  split
  · exact h
  split
  · exact h
  have hfirst : ∃ index, self.find firstCid = .error index := by
    cases hfind : self.find firstCid with
    | error index => exact ⟨index, rfl⟩
    | ok index => simp [hfind, Except.toBool] at hmissing
  have hsecond : ∃ index, self.find secondCid = .error index := by
    cases hfind : self.find secondCid with
    | error index => exact ⟨index, rfl⟩
    | ok index => simp [hfind, Except.toBool] at hmissing
  have hnone : self.groupLeases first.leaseGroupId = [] := by
    refine filterMap_eq_nil_iff.mpr fun entry hentry => ?_
    have : ¬ (entry.2.ruleOf first.leaseGroupId).isSome = true := fun hsome =>
      hfresh (any_eq_true.mpr ⟨entry, hentry, hsome⟩)
    simpa [leaseOf] using this
  have hvalue : firstCid.value ≠ secondCid.value := fun heq => hne (ConnectionId.ext heq)
  split
  · exact insertMissing_both h hzero.1 hzero.2 hvalue hfirst hsecond hgroup hlease hnone
  · exact insertMissing_both h hzero.2 hzero.1 hvalue.symm hsecond hfirst hgroup.symm hlease.symm
      (hgroup ▸ hnone)

theorem installForwardPair_unchanged (self : DcidRegistry Endpoint NextHop)
    (firstCid : ConnectionId) (first : ForwardRule NextHop) (secondCid : ConnectionId)
    (second : ForwardRule NextHop) (reserved : Bool) :
    self.UnchangedOnError (self.installForwardPair firstCid first secondCid second reserved) := by
  intro e herror
  unfold installForwardPair at herror ⊢
  repeat' first | rfl | split
  all_goals simp_all

/-! ## Removal keeps it -/

/-- What a filter drops of a group is nothing, unless it drops entries of the group. -/
theorem groupLeases_filter (hp : ∀ entry ∈ self.entries, (leaseOf group entry).isSome →
    p entry = true) :
    groupLeases group { self with entries := self.entries.filter p } = self.groupLeases group := by
  unfold groupLeases
  rw [filterMap_filter]
  refine filterMap_congr fun entry hentry => ?_
  cases hlease : leaseOf group entry with
  | none => simp
  | some lease => simp [hp entry hentry (by simp [hlease])]

theorem groupLeases_eraseIdx (hnone : ∀ entry, self.entries[index]? = some entry →
    leaseOf group entry = none) : groupLeases group { self with
      entries := self.entries.eraseIdx index } = self.groupLeases group := by
  unfold groupLeases
  by_cases hindex : index < self.entries.length
  · have hentry := hnone self.entries[index] (getElem?_eq_getElem hindex)
    have hself : self.entries = self.entries.take index ++ self.entries[index] ::
        self.entries.drop (index + 1) := by
      rw [← drop_eq_getElem_cons hindex, take_append_drop]
    rw [eraseIdx_eq_take_drop_succ]
    conv_rhs => rw [hself]
    simp only [filterMap_append, filterMap_cons, hentry]
  · simp only [eraseIdx_of_length_le (not_lt.mp hindex)]

theorem eraseIdx_inv (h : self.RegistryInv)
    (hnone : ∀ group ≠ 0, ∀ entry, self.entries[index]? = some entry → leaseOf group entry = none) :
    RegistryInv { self with entries := self.entries.eraseIdx index } :=
  h.of_sublist (eraseIdx_sublist _ _) fun group hgroup =>
    .inr (groupLeases_eraseIdx (hnone group hgroup))

theorem ruleOf_isNone_of_ne {other : Nat} (hne : group ≠ other)
    {entry : ConnectionId × DcidTarget Endpoint NextHop} (h : (leaseOf group entry).isSome) :
    (entry.2.ruleOf other).isNone = true := by
  obtain ⟨dcid, target⟩ := entry
  cases target with
  | endpoint value => rfl
  | forward rule =>
    by_cases hrule : rule.leaseGroupId = group
    · simp [ruleOf, hrule, hne]
    · simp [leaseOf, ruleOf, hrule] at h

theorem groupLeases_removeGroup_self (self : DcidRegistry Endpoint NextHop) (group : Nat) :
    (self.removeGroup group).groupLeases group = [] := by
  refine filterMap_eq_nil_iff.mpr fun entry hentry => ?_
  have hnone := (mem_filter.mp hentry).2
  simpa [leaseOf] using hnone

section

variable (h : self.RegistryInv)
include h

theorem removeGroup_inv (group : Nat) : (self.removeGroup group).RegistryInv := by
  refine h.of_sublist filter_sublist fun other _ => ?_
  by_cases hne : other = group
  · exact .inl (hne ▸ groupLeases_removeGroup_self self group)
  · exact .inr (groupLeases_filter fun entry _ hlease => ruleOf_isNone_of_ne hne hlease)

theorem removeForwardPair_inv (firstCid secondCid : ConnectionId) :
    (self.removeForwardPair firstCid secondCid).1.RegistryInv := by
  unfold removeForwardPair
  split
  · split
    · split
      · exact h
      · exact removeGroup_inv h _
    · exact h
  · exact h

theorem removeEndpoint_inv [BEq Endpoint] (dcid : ConnectionId)
    (expected : Endpoint) : (self.removeEndpoint dcid expected).1.RegistryInv := by
  unfold removeEndpoint
  split
  · exact h
  split
  · rename_i index _ _ key endpoint hentry
    split
    · refine eraseIdx_inv h fun group _ entry hget => ?_
      rw [hentry, some.injEq] at hget
      exact hget ▸ leaseOf_endpoint group key endpoint
    · exact h
  · exact h

/-- A group has one expiry, so the timer keeps it whole. -/
theorem expireForwardLeases_whole (nowUs : Nat) :
    self.WholeGroups (self.expireForwardLeases nowUs).1 := by
  intro group hgroup
  -- An entry of the group is kept exactly if its lease lasts.
  have hkept : ∀ entry lease, leaseOf group entry = some lease →
      (entry ∈ (self.expireForwardLeases nowUs).1.entries ↔
        entry ∈ self.entries ∧ nowUs < lease.2) := by
    rintro ⟨dcid, target⟩ lease hlease
    cases target with
    | endpoint value => cases hlease
    | forward rule =>
      by_cases hrule : rule.leaseGroupId = group
      · obtain rfl : (rule.leaseDurationUs, rule.leaseExpiresAtUs) = lease := by
          simpa [leaseOf, ruleOf, hrule] using hlease
        simp [expireForwardLeases]
      · simp [leaseOf, ruleOf, hrule] at hlease
  have hmem : ∀ entry ∈ self.entries, ∀ lease, leaseOf group entry = some lease →
      lease ∈ self.groupLeases group :=
    fun entry hentry lease hlease => mem_filterMap.mpr ⟨entry, hentry, hlease⟩
  have hone : ∃ expiry, ∀ lease ∈ self.groupLeases group, lease.2 = expiry := by
    rcases h.paired group hgroup with hnil | ⟨lease, htwo⟩
    · exact ⟨0, by simp [hnil]⟩
    · exact ⟨lease.2, by simp [htwo]⟩
  obtain ⟨expiry, hexpiry⟩ := hone
  by_cases hlasts : nowUs < expiry
  · refine .inl fun entry hentry hsome => ?_
    obtain ⟨lease, hlease⟩ := isSome_iff_exists.mp hsome
    exact (hkept entry lease hlease).mpr
      ⟨hentry, hexpiry lease (hmem entry hentry lease hlease) ▸ hlasts⟩
  refine .inr fun entry hentry => ?_
  cases hlease : leaseOf group entry with
  | none => rfl
  | some lease =>
    obtain ⟨hself, hless⟩ := (hkept entry lease hlease).mp hentry
    exact absurd (hexpiry lease (hmem entry hself lease hlease) ▸ hless) hlasts

/-- A filter that keeps groups whole keeps the invariant. -/
theorem filter_inv (hwhole : self.WholeGroups { self with entries := self.entries.filter p }) :
    RegistryInv { self with entries := self.entries.filter p } := by
  refine h.of_sublist filter_sublist fun group hgroup => ?_
  rcases hwhole group hgroup with hall | hnone
  · exact .inr (groupLeases_filter fun entry hentry hsome =>
      (mem_filter.mp (hall entry hentry hsome)).2)
  · exact .inl (filterMap_eq_nil_iff.mpr hnone)

theorem expireForwardLeases_inv (nowUs : Nat) : (self.expireForwardLeases nowUs).1.RegistryInv :=
  filter_inv h (expireForwardLeases_whole h nowUs)

end

theorem removeGroup_whole (self : DcidRegistry Endpoint NextHop) (group : Nat) :
    self.WholeGroups (self.removeGroup group) := by
  intro other _
  by_cases hne : other = group
  · exact .inr (filterMap_eq_nil_iff.mp (hne ▸ groupLeases_removeGroup_self self group))
  · exact .inl fun entry hentry hlease => mem_filter.mpr ⟨hentry, ruleOf_isNone_of_ne hne hlease⟩

/-! ## Traffic keeps it -/

theorem forwardAt_eq_some
    (h : self.forwardAt dcid = some (index, rule)) :
    ∃ key, self.entries[index]? = some (key, .forward rule) := by
  unfold forwardAt at h
  split at h
  · cases h
  split at h
  · rename_i key rule' hentry
    obtain ⟨rfl, rfl⟩ : _ ∧ rule' = rule := by simpa using h
    exact ⟨key, hentry⟩
  · cases h

theorem forwardLeaseActive_whole (self : DcidRegistry Endpoint NextHop) (input : Bytes)
    (nowUs : Nat) :
    self.WholeGroups (self.forwardLeaseActive input nowUs).1 := by
  have hsame : self.WholeGroups self := fun _ _ => .inl fun entry hentry _ => hentry
  unfold forwardLeaseActive
  split
  · exact hsame
  split
  · exact hsame
  rename_i index rule hat
  obtain ⟨key, hentry⟩ := forwardAt_eq_some hat
  split
  · exact hsame
  split
  · rename_i hzero
    -- The erased entry belongs to no group.
    refine fun group hgroup => .inl fun entry hmem hlease => ?_
    obtain ⟨i, hi⟩ := mem_iff_getElem?.mp hmem
    have hne : i ≠ index := by
      rintro rfl
      rw [hentry, some.injEq] at hi
      rw [← hi, leaseOf_ruleOf_zero hgroup hzero] at hlease
      cases hlease
    exact mem_eraseIdx_iff_getElem?.mpr ⟨i, hne, hi⟩
  · exact removeGroup_whole self _

theorem forwardLeaseActive_inv (h : self.RegistryInv) (input : Bytes) (nowUs : Nat) :
    (self.forwardLeaseActive input nowUs).1.RegistryInv := by
  unfold forwardLeaseActive
  split
  · exact h
  split
  · exact h
  rename_i index rule hat
  obtain ⟨key, hentry⟩ := forwardAt_eq_some hat
  split
  · exact h
  split
  · rename_i hzero
    refine eraseIdx_inv h fun group hgroup entry hget => ?_
    rw [hentry, some.injEq] at hget
    exact hget ▸ leaseOf_ruleOf_zero hgroup hzero
  · exact removeGroup_inv h _

theorem setRule_inv (h : self.RegistryInv) {key : ConnectionId}
    {old : ForwardRule NextHop} (hold : self.entries[index]? = some (key, .forward old))
    (hgroup : rule.leaseGroupId = old.leaseGroupId) (hlease : rule.leaseGroupId ≠ 0 →
      (rule.leaseDurationUs, rule.leaseExpiresAtUs) = (old.leaseDurationUs, old.leaseExpiresAtUs)) :
    (self.setRule index rule).RegistryInv := by
  have hsame : ∀ group ≠ 0, leaseOf group (key, (.forward rule : DcidTarget Endpoint NextHop)) =
      leaseOf group (key, (.forward old : DcidTarget Endpoint NextHop)) := by
    intro group hne
    by_cases hrule : rule.leaseGroupId = group
    · have hold' : old.leaseGroupId = group := hgroup ▸ hrule
      simp [leaseOf, ruleOf, hrule, hold', hlease (hrule ▸ hne)]
    · have hold' : ¬ old.leaseGroupId = group := hgroup ▸ hrule
      simp [leaseOf, ruleOf, hrule, hold']
  obtain ⟨hindex, hget⟩ := List.getElem?_eq_some_iff.mp hold
  have hmodify : (self.setRule index rule).entries =
      self.entries.take index ++ (key, .forward rule) :: self.entries.drop (index + 1) := by
    simp [setRule, modify_eq_take_cons_drop hindex, hget]
  have hself : self.entries = self.entries.take index ++ (key, .forward old) ::
      self.entries.drop (index + 1) := by
    rw [← hget, ← drop_eq_getElem_cons hindex, take_append_drop]
  refine h.of_keys ?_ fun group hgroup => ?_
  · rw [hmodify]
    conv_rhs => rw [hself]
    simp
  have hleases : (self.setRule index rule).groupLeases group = self.groupLeases group := by
    unfold groupLeases
    rw [hmodify]
    conv_rhs => rw [hself]
    simp only [filterMap_append, filterMap_cons, hsame group hgroup]
  exact hleases ▸ h.paired group hgroup

theorem rollQuotaWindow_lease (rule : ForwardRule NextHop) (nowUs : Nat) :
    (ForwardRule.rollQuotaWindow rule nowUs).leaseGroupId = rule.leaseGroupId ∧
      ((ForwardRule.rollQuotaWindow rule nowUs).leaseDurationUs,
        (ForwardRule.rollQuotaWindow rule nowUs).leaseExpiresAtUs) =
        (rule.leaseDurationUs, rule.leaseExpiresAtUs) := by
  unfold ForwardRule.rollQuotaWindow
  extract_lets windowUs elapsedUs
  split
  · exact ⟨rfl, rfl⟩
  · exact ⟨rfl, rfl⟩

theorem consumeForwardQuota_inv (h : self.RegistryInv) (dcid : ConnectionId)
    (controlPacket : Bool) (nowUs : Nat) :
    (self.consumeForwardQuota dcid controlPacket nowUs).1.RegistryInv := by
  unfold consumeForwardQuota
  split
  · exact h
  rename_i index rule hat
  obtain ⟨key, hentry⟩ := forwardAt_eq_some hat
  obtain ⟨hgroup, hlease⟩ := rollQuotaWindow_lease rule nowUs
  split
  · exact h
  extract_lets rolled controlReserve
  split
  · exact setRule_inv h hentry hgroup fun _ => hlease
  split
  · exact setRule_inv h hentry hgroup fun _ => hlease
  · exact setRule_inv h hentry hgroup fun _ => hlease

/-- A renewal gives the whole group one expiry. -/
theorem renewGroup_inv (h : self.RegistryInv) (group expiresAtUs : Nat) :
    (self.renewGroup group expiresAtUs).RegistryInv := by
  refine h.of_keys ?_ fun other hother => ?_
  · simp only [renewGroup, List.map_map]
    refine List.map_congr_left fun entry _ => ?_
    obtain ⟨dcid, target⟩ := entry
    cases target with
    | endpoint value => rfl
    | forward rule => by_cases hrule : rule.leaseGroupId = group <;> simp [hrule]
  have hleases : (self.renewGroup group expiresAtUs).groupLeases other =
      (self.groupLeases other).map fun lease => if other = group then
        (lease.1, expiresAtUs) else lease := by
    simp only [groupLeases, renewGroup, filterMap_map, map_filterMap]
    refine filterMap_congr fun entry _ => ?_
    obtain ⟨dcid, target⟩ := entry
    cases target with
    | endpoint value => rfl
    | forward rule =>
      by_cases hrule : rule.leaseGroupId = group
      · by_cases hsame : other = group
        · simp [leaseOf, ruleOf, hrule, hsame]
        · simp [leaseOf, ruleOf, hrule, Ne.symm hsame]
      by_cases hsame : rule.leaseGroupId = other
      · simp [hsame ▸ hrule, hsame]
      · simp [leaseOf, ruleOf, hrule, hsame]
  rw [hleases]
  rcases h.paired other hother with hnil | ⟨lease, htwo⟩
  · exact .inl (by simp [hnil])
  · exact .inr ⟨_, by rw [htwo]; rfl⟩

theorem refreshForwardLease_inv (h : self.RegistryInv) (input : Bytes) (nowUs : Nat) :
    (self.refreshForwardLease input nowUs).1.RegistryInv := by
  have hactive := forwardLeaseActive_inv h input nowUs
  unfold refreshForwardLease
  split
  · rename_i heq
    rwa [heq] at hactive
  · rename_i heq
    rwa [heq] at hactive
  rename_i after heq
  rw [heq] at hactive
  split
  · exact hactive
  split
  · exact hactive
  rename_i index rule hat
  obtain ⟨key, hentry⟩ := forwardAt_eq_some hat
  split
  · rename_i hzero
    exact setRule_inv hactive hentry rfl fun hne => absurd hzero hne
  · exact renewGroup_inv hactive _ _

/-! ## Runs -/

end DcidRegistry

/-- The calls on a router that touch its registry. -/
inductive RouterOp (Endpoint NextHop : Type) where
  | registerEndpoint (dcid : ConnectionId) (endpoint : Endpoint) (reserved : Bool)
  | registerForward (dcid : ConnectionId) (rule : ForwardRule NextHop) (reserved : Bool)
  | registerForwardPair (firstCid : ConnectionId) (first : ForwardRule NextHop)
      (secondCid : ConnectionId) (second : ForwardRule NextHop) (reserved : Bool)
  | removeEndpoint (dcid : ConnectionId) (expected : Endpoint)
  | removeForwardPair (firstCid secondCid : ConnectionId)
  | consumeForwardQuota (dcid : ConnectionId) (controlPacket : Bool) (nowUs : Nat)
  | forwardLeaseActive (input : Bytes) (nowUs : Nat)
  | refreshForwardLease (input : Bytes) (nowUs : Nat)
  | expireForwardLeases (nowUs : Nat)

namespace DcidRegistry

variable {Endpoint NextHop : Type} {self : DcidRegistry Endpoint NextHop}

def apply [BEq Endpoint] (self : DcidRegistry Endpoint NextHop) :
    RouterOp Endpoint NextHop → DcidRegistry Endpoint NextHop
  | .registerEndpoint dcid endpoint reserved => (self.insertEndpoint dcid endpoint reserved).1
  | .registerForward dcid rule reserved => (self.installForward dcid rule reserved).1
  | .registerForwardPair firstCid first secondCid second reserved =>
    (self.installForwardPair firstCid first secondCid second reserved).1
  | .removeEndpoint dcid expected => (self.removeEndpoint dcid expected).1
  | .removeForwardPair firstCid secondCid => (self.removeForwardPair firstCid secondCid).1
  | .consumeForwardQuota dcid controlPacket nowUs =>
    (self.consumeForwardQuota dcid controlPacket nowUs).1
  | .forwardLeaseActive input nowUs => (self.forwardLeaseActive input nowUs).1
  | .refreshForwardLease input nowUs => (self.refreshForwardLease input nowUs).1
  | .expireForwardLeases nowUs => (self.expireForwardLeases nowUs).1

theorem new_inv (maxEntries : Nat) :
    (new maxEntries : DcidRegistry Endpoint NextHop).RegistryInv where
  sorted := .nil
  nonzero := by simp [new]
  paired := fun _ _ => .inl rfl

theorem apply_inv [BEq Endpoint] (h : self.RegistryInv) (op : RouterOp Endpoint NextHop) :
    (self.apply op).RegistryInv := by
  cases op with
  | registerEndpoint dcid endpoint reserved =>
    exact insert_inv h dcid (fun group _ => leaseOf_endpoint group dcid endpoint) reserved
  | registerForward => exact installForward_inv h ..
  | registerForwardPair => exact installForwardPair_inv h ..
  | removeEndpoint => exact removeEndpoint_inv h ..
  | removeForwardPair => exact removeForwardPair_inv h ..
  | consumeForwardQuota => exact consumeForwardQuota_inv h ..
  | forwardLeaseActive => exact forwardLeaseActive_inv h ..
  | refreshForwardLease => exact refreshForwardLease_inv h ..
  | expireForwardLeases => exact expireForwardLeases_inv h ..

theorem exec_inv [BEq Endpoint] (h : self.RegistryInv)
    (ops : List (RouterOp Endpoint NextHop)) : (Runs.exec apply self ops).RegistryInv := by
  induction ops generalizing self with
  | nil => exact h
  | cons op ops ih => exact ih (apply_inv h op)

/-- The registry after any run: sorted, so that every entry is found; no zero id; every lease group
the two directions of one circuit under one lease, which no expiry separates; and a failed
registration changes nothing. -/
theorem paired_rules_live_and_die_together [BEq Endpoint] (maxEntries : Nat)
    (ops : List (RouterOp Endpoint NextHop)) :
    let self := Runs.exec apply (new maxEntries) ops
    self.RegistryInv ∧ (∀ (index : Nat) entry, self.entries[index]? = some entry →
      self.find entry.1 = .ok index) ∧
    (∀ dcid endpoint reserved, self.UnchangedOnError (self.insertEndpoint dcid endpoint reserved)) ∧
    (∀ dcid rule reserved, self.UnchangedOnError (self.installForward dcid rule reserved)) ∧
    (∀ firstCid first secondCid second reserved,
      self.UnchangedOnError (self.installForwardPair firstCid first secondCid second reserved)) ∧
    ∀ nowUs, self.WholeGroups (self.expireForwardLeases nowUs).1 ∧
      ∀ input, self.WholeGroups (self.forwardLeaseActive input nowUs).1 := by
  intro self
  have h : self.RegistryInv := exec_inv (new_inv maxEntries) ops
  refine ⟨h, ?_, ?_, ?_, ?_, ?_⟩
  · intro index entry hentry
    exact search_getElem h.sorted hentry
  · intro dcid endpoint reserved
    exact insert_unchanged self dcid (.endpoint endpoint) reserved
  · intro dcid rule reserved e herror
    unfold installForward at herror ⊢
    split
    · rfl
    rename_i hrule
    rw [if_neg hrule] at herror
    exact insert_unchanged self dcid (.forward rule) reserved e herror
  · intro firstCid first secondCid second reserved
    exact installForwardPair_unchanged self firstCid first secondCid second reserved
  · intro nowUs
    exact ⟨expireForwardLeases_whole h nowUs, fun input =>
      forwardLeaseActive_whole self input nowUs⟩

end DcidRegistry

end QuicLite
