import QuicLite.Endpoint.Moves

/-!
# Bytes in flight

Each path counts the bytes it has in flight; the ledger holds the records those bytes belong to. A
record is counted while it is accepted and not declared lost. `FlightInv` says that the two agree on
every path, and `step_flightInv` that every call keeps it, with one exception: blocking a submission
that was meanwhile declared lost removes its bytes a second time.
-/

namespace QuicLite

open Slots List Option Bool Nat Prod

namespace EndpointState

variable {P : Nat} {index : Nat} {q : PathState}
variable {f : SentPacket → Option SentPacket} {packetNumber : Nat} {α : Type}

/-! ## What the ledger counts -/

def inFlightOn (pathId : Nat) (sent : SentPacket) : Bool :=
  sent.pathId == pathId && sent.accepted && !sent.lost

/-- What one record adds to the flight of a path. -/
def contribution (pathId : Nat) (sent : SentPacket) : Nat :=
  if inFlightOn pathId sent then sent.bytes else 0

/-- The bytes of the records in flight on a path. -/
def flightBytes (s : EndpointState P) (pathId : Nat) : Nat :=
  ((s.records.filter (inFlightOn pathId)).map (·.bytes)).sum

theorem flightBytes_eq_weight (s : EndpointState P) (pathId : Nat) :
    s.flightBytes pathId = weight (contribution pathId) s.sentPackets := by
  rw [weight_eq_sum_entries]
  show ((s.records.filter (inFlightOn pathId)).map (·.bytes)).sum =
    (s.records.map (contribution pathId)).sum
  generalize s.records = records
  induction records with
  | nil => rfl
  | cons sent records ih =>
    rw [map_cons, sum_cons, ← ih, contribution]
    by_cases h : inFlightOn pathId sent
    · rw [filter_cons_of_pos h, if_pos h, map_cons, sum_cons]
    · rw [filter_cons_of_neg h, if_neg h, zero_add]

variable {sent : SentPacket}

theorem contribution_of_lost (h : sent.lost) (pathId : Nat) : contribution pathId sent = 0 := by
  simp [contribution, inFlightOn, h]

theorem contribution_of_not_accepted (h : sent.accepted = false) (pathId : Nat) :
    contribution pathId sent = 0 := by
  simp [contribution, inFlightOn, h]

variable {pathId : Nat}

theorem contribution_of_ne (h : sent.pathId ≠ pathId) : contribution pathId sent = 0 := by
  simp [contribution, inFlightOn, h]

theorem contribution_self (haccepted : sent.accepted) (hlost : sent.lost = false) :
    contribution sent.pathId sent = sent.bytes := by
  simp [contribution, inFlightOn, haccepted, hlost]

theorem contribution_congr {o : SentPacket} (hid : o.pathId = sent.pathId)
    (hbytes : o.bytes = sent.bytes) (haccepted : o.accepted = sent.accepted)
    (hlost : o.lost = sent.lost) (pathId : Nat) :
    contribution pathId o = contribution pathId sent := by
  unfold contribution inFlightOn
  rw [hid, hbytes, haccepted, hlost]

/-- Counters and ledger agree. Only accepted records are declared lost; the other fields keep sums
from saturating and send orders from running out. -/
structure FlightInv (s : EndpointState P) : Prop where
  exact : ∀ (pathId : Nat) (path : PathState), s.paths[pathId]? = some path →
    path.congestion.bytesInFlight = weight (contribution pathId) s.sentPackets
  valid : ∀ sent, some sent ∈ s.sentPackets → sent.pathId < s.paths.length
  declared : ∀ sent, some sent ∈ s.sentPackets → sent.lost → sent.accepted
  bound : ∀ path ∈ s.paths, path.congestion.bytesInFlight ≤ u64Max
  order : ∀ path ∈ s.paths, path.nextSendOrder ≤ s.nextPacketNumber
  number : s.nextPacketNumber ≤ u32Max

variable {s : EndpointState P}

theorem FlightInv.order_lt (h : FlightInv s) : ∀ p ∈ s.paths, p.nextSendOrder < u64Max := by
  intro p hp
  have := h.order p hp
  have := h.number
  have : u32Max < u64Max := by decide
  omega

theorem FlightInv.new (role : Role) (limits : ConnectionLimits)
    (maxPacketSize historyCapacity : Nat) :
    FlightInv (newWithHistoryCapacity P role limits maxPacketSize historyCapacity) := by
  have hempty : ∀ sent, some sent ∉ replicate (historyCapacity * 2) (none : Option SentPacket) := by
    intro sent hmem
    cases eq_of_mem_replicate hmem
  refine ⟨?_, fun sent h => absurd h (hempty sent), fun sent h => absurd h (hempty sent), ?_, ?_,
    zero_le _⟩
  · intro pathId path hpath
    obtain ⟨rfl, rfl⟩ : pathId = 0 ∧ PathState.new maxPacketSize = path := by
      cases pathId with
      | zero => exact ⟨rfl, by simpa [newWithHistoryCapacity] using hpath⟩
      | succ n => simp [newWithHistoryCapacity] at hpath
    exact (weight_eq_zero _ fun sent h => absurd h (hempty sent)).symm
  · intro path hpath
    rw [mem_singleton.mp hpath]
    exact zero_le _
  · intro path hpath
    rw [mem_singleton.mp hpath]
    exact zero_le _

namespace FlightInv

variable {s s' : EndpointState P}

section

variable (hinv : FlightInv s)
include hinv

theorem of_same (h : SameLedger s s') : FlightInv s' := by
  have hlen : s'.paths.length = s.paths.length := by simpa using congrArg length h.paths
  have hmem : ∀ path' ∈ s'.paths, ∃ path ∈ s.paths, flightOrder path' = flightOrder path := by
    intro path' hpath'
    obtain ⟨i, hi⟩ := getElem?_of_mem hpath'
    obtain ⟨path, hpath, heq⟩ := h.getElem? hi
    exact ⟨path, mem_of_getElem? hpath, heq⟩
  refine ⟨?_, ?_, fun sent hsent => hinv.declared sent (h.slots ▸ hsent), ?_, ?_,
    h.bound hinv.number⟩
  · intro pathId path' hpath'
    obtain ⟨path, hpath, heq⟩ := h.getElem? hpath'
    rw [h.slots, ← hinv.exact pathId path hpath]
    exact congrArg fst heq
  · intro sent hsent
    rw [hlen]
    exact hinv.valid sent (h.slots ▸ hsent)
  · intro path' hpath'
    obtain ⟨path, hpath, heq⟩ := hmem path' hpath'
    rw [show path'.congestion.bytesInFlight = path.congestion.bytesInFlight from congrArg fst heq]
    exact hinv.bound path hpath
  · intro path' hpath'
    obtain ⟨path, hpath, heq⟩ := hmem path' hpath'
    rw [show path'.nextSendOrder = path.nextSendOrder from congrArg snd heq]
    exact (hinv.order path hpath).trans h.number

theorem of_idle (h : Idle s s') : FlightInv s' := hinv.of_same (.of_idle hinv.order_lt h)

/-- One slot changes its record, and one path its counter by as much. -/
theorem of_set {old new : Option SentPacket} (hold : s.sentPackets[index]? = some old)
    (hslots : s'.sentPackets = s.sentPackets.set index new) (hpath : pathId < s.paths.length)
    (hpaths : s'.paths.map flightOrder = (s.paths.set pathId q).map flightOrder)
    (hothers : ∀ id, id ≠ pathId →
      slotWeight (contribution id) old = slotWeight (contribution id) new)
    (hflight : q.congestion.bytesInFlight + slotWeight (contribution pathId) old =
      (s.pathAt pathId).congestion.bytesInFlight + slotWeight (contribution pathId) new)
    (hbound : q.congestion.bytesInFlight ≤ u64Max)
    (hvalid : ∀ sent ∈ new, sent.pathId < s.paths.length ∧ (sent.lost → sent.accepted))
    (horder : q.nextSendOrder ≤ s'.nextPacketNumber)
    (hnext : s.nextPacketNumber ≤ s'.nextPacketNumber) (hnumber : s'.nextPacketNumber ≤ u32Max) :
    FlightInv s' := by
  have hat := paths_getElem?_of_lt hpath
  -- A path of the later state is the changed one, or counts as before.
  have hcases : ∀ (id : Nat) (p : PathState), s'.paths[id]? = some p →
      id = pathId ∧ flightOrder p = flightOrder q ∨
        id ≠ pathId ∧ ∃ r, s.paths[id]? = some r ∧ flightOrder p = flightOrder r := by
    intro id p hp
    have hget := congrArg (·[id]?) hpaths
    simp only [getElem?_map, hp, map_some] at hget
    by_cases hid : id = pathId
    · subst hid
      rw [getElem?_set_self hpath, map_some, some.injEq] at hget
      exact .inl ⟨rfl, hget⟩
    rw [getElem?_set_ne (Ne.symm hid)] at hget
    cases hr : s.paths[id]? with
    | none => simp [hr] at hget
    | some r => exact .inr ⟨hid, r, rfl, by simpa [hr] using hget⟩
  have hlen : s'.paths.length = s.paths.length := by simpa using congrArg length hpaths
  have hmem : ∀ sent, some sent ∈ s'.sentPackets → some sent ∈ s.sentPackets ∨ sent ∈ new := by
    intro sent hsent
    rw [hslots] at hsent
    exact (mem_or_eq_of_mem_set hsent).imp id Eq.symm
  refine ⟨?_, ?_, ?_, ?_, ?_, hnumber⟩
  · intro id p hp
    have hweight := weight_set (contribution id) hold new
    rw [hslots]
    rcases hcases id p hp with ⟨rfl, heq⟩ | ⟨hid, r, hr, heq⟩
    · rw [show p.congestion.bytesInFlight = q.congestion.bytesInFlight from congrArg fst heq]
      have := hinv.exact id _ hat
      omega
    rw [show p.congestion.bytesInFlight = r.congestion.bytesInFlight from congrArg fst heq,
      hinv.exact id r hr]
    have := hothers id hid
    omega
  · intro sent hsent
    rw [hlen]
    exact (hmem sent hsent).elim (hinv.valid sent) fun h => (hvalid sent h).1
  · intro sent hsent
    exact (hmem sent hsent).elim (hinv.declared sent) fun h => (hvalid sent h).2
  · intro p hp
    obtain ⟨id, hid⟩ := getElem?_of_mem hp
    rcases hcases id p hid with ⟨-, heq⟩ | ⟨-, r, hr, heq⟩
    · rw [show p.congestion.bytesInFlight = q.congestion.bytesInFlight from congrArg fst heq]
      exact hbound
    · rw [show p.congestion.bytesInFlight = r.congestion.bytesInFlight from congrArg fst heq]
      exact hinv.bound r (mem_of_getElem? hr)
  · intro p hp
    obtain ⟨id, hid⟩ := getElem?_of_mem hp
    rcases hcases id p hid with ⟨-, heq⟩ | ⟨-, r, hr, heq⟩
    · rw [show p.nextSendOrder = q.nextSendOrder from congrArg snd heq]
      exact horder
    · rw [show p.nextSendOrder = r.nextSendOrder from congrArg snd heq]
      exact (hinv.order r (mem_of_getElem? hr)).trans hnext

theorem of_enters {slot : Nat} (h : Enters s s' slot sent)
    (hroom : (s.pathAt sent.pathId).congestion.bytesInFlight + sent.bytes ≤ u64Max) :
    FlightInv s' := by
  obtain ⟨old, hold, hlost⟩ := h.free
  obtain ⟨path, hcharges, hpaths⟩ := h.charged
  have hzero : ∀ id, slotWeight (contribution id) old = 0 := by
    intro id
    cases old with
    | none => rfl
    | some o => exact contribution_of_lost (hlost o rfl) id
  have hflight : path.congestion.bytesInFlight = (s.pathAt sent.pathId).congestion.bytesInFlight +
      sent.bytes := by
    rw [hcharges.flight]
    exact min_eq_left hroom
  have hsent : contribution sent.pathId sent = sent.bytes := contribution_self h.accepted h.lost
  refine hinv.of_set hold h.slots h.path hpaths ?_ ?_ (hflight ▸ hroom) ?_ ?_
    (by have := h.next; omega) h.bound
  · intro id hid
    rw [hzero, slotWeight_some, contribution_of_ne (Ne.symm hid)]
  · rw [hzero, slotWeight_some, hsent, hflight, add_zero]
  · intro o ho
    rw [← mem_some.mp ho]
    exact ⟨h.path, fun _ => h.accepted⟩
  have horder := hinv.order _ (mem_of_getElem? (paths_getElem?_of_lt h.path))
  have := h.next
  rw [hcharges.order]
  omega

/-- The bytes of a record in flight are among those counted. -/
theorem le_flight
    (h : s.sentPackets[index]? = some (some sent)) (haccepted : sent.accepted)
    (hlost : sent.lost = false) :
    sent.bytes ≤ (s.pathAt sent.pathId).congestion.bytesInFlight := by
  have hpath := hinv.valid sent (mem_of_getElem? h)
  have hweight := weight_set (contribution sent.pathId) h none
  rw [hinv.exact _ _ (paths_getElem?_of_lt hpath)]
  rw [slotWeight_some, slotWeight_none, contribution_self haccepted hlost] at hweight
  omega

/-- A record in flight stops counting, and its path's counter drops by its bytes. -/
theorem of_remove {new : Option SentPacket}
    (h : s.sentPackets[index]? = some (some sent)) (haccepted : sent.accepted)
    (hlost : sent.lost = false) (hslots : s'.sentPackets = s.sentPackets.set index new)
    (hpaths : s'.paths.map flightOrder = (s.paths.set sent.pathId q).map flightOrder)
    (hflight : q.congestion.bytesInFlight =
      (s.pathAt sent.pathId).congestion.bytesInFlight - sent.bytes)
    (horder : q.nextSendOrder = (s.pathAt sent.pathId).nextSendOrder)
    (hnew : ∀ o ∈ new, o.pathId = sent.pathId ∧ (o.lost → o.accepted) ∧ ∀ id, contribution id o = 0)
    (hnumber : s'.nextPacketNumber = s.nextPacketNumber) : FlightInv s' := by
  have hpath := hinv.valid sent (mem_of_getElem? h)
  have hat := mem_of_getElem? (paths_getElem?_of_lt hpath)
  have hle := hinv.le_flight h haccepted hlost
  have hzero : ∀ id, slotWeight (contribution id) new = 0 := by
    intro id
    cases new with
    | none => rfl
    | some o => exact (hnew o rfl).2.2 id
  refine hinv.of_set h hslots hpath hpaths ?_ ?_ ?_ ?_ ?_ (by rw [hnumber])
    (by rw [hnumber]; exact hinv.number)
  · intro id hid
    rw [hzero, slotWeight_some, contribution_of_ne (Ne.symm hid)]
  · rw [hzero, slotWeight_some, contribution_self haccepted hlost]
    omega
  · have := hinv.bound _ hat
    omega
  · intro o ho
    rw [(hnew o ho).1]
    exact ⟨hpath, (hnew o ho).2.1⟩
  · rw [horder, hnumber]
    exact hinv.order _ hat

/-- Every record becomes at most one; those in `g` stop counting, and the counters drop by their
bytes. -/
theorem of_bind {g : SentPacket → Bool}
    (hslots : s'.sentPackets = s.sentPackets.map (Option.bind · f))
    (hf : ∀ sent, some sent ∈ s.sentPackets → ∀ o ∈ f sent, o.pathId = sent.pathId ∧
      (o.lost → o.accepted)) (hstay : ∀ sent, some sent ∈ s.sentPackets → g sent = false →
      ∀ id, slotWeight (contribution id) (f sent) = contribution id sent)
    (hgone : ∀ sent, some sent ∈ s.sentPackets → g sent = true →
      ∀ id, slotWeight (contribution id) (f sent) = 0) (hlen : s'.paths.length = s.paths.length)
    (hpaths : ∀ id path', s'.paths[id]? = some path' → ∃ path, s.paths[id]? = some path ∧
      path'.congestion.bytesInFlight =
        path.congestion.bytesInFlight - ((s.records.filter g).map (contribution id)).sum ∧
      path'.nextSendOrder = path.nextSendOrder)
    (hnumber : s'.nextPacketNumber = s.nextPacketNumber) : FlightInv s' := by
  have hmem : ∀ sent, some sent ∈ s'.sentPackets → ∃ old, some old ∈ s.sentPackets ∧
      sent ∈ f old := by
    intro sent hsent
    rw [hslots, List.mem_map] at hsent
    obtain ⟨slot, hslot, heq⟩ := hsent
    cases slot with
    | none => cases heq
    | some old => exact ⟨old, hslot, heq⟩
  have hfind : ∀ path' ∈ s'.paths, ∃ path ∈ s.paths,
      path'.congestion.bytesInFlight ≤ path.congestion.bytesInFlight ∧
        path'.nextSendOrder = path.nextSendOrder := by
    intro path' hpath'
    obtain ⟨id, hid⟩ := getElem?_of_mem hpath'
    obtain ⟨path, hpath, hflight, horder⟩ := hpaths id path' hid
    exact ⟨path, mem_of_getElem? hpath, by omega, horder⟩
  refine ⟨?_, ?_, ?_, ?_, ?_, by rw [hnumber]; exact hinv.number⟩
  · intro id path' hpath'
    obtain ⟨path, hpath, hflight, -⟩ := hpaths id path' hpath'
    have hweight := weight_bind_add (contribution id) f g (fun a ha hq => hstay a ha hq id)
      (fun a ha hq => hgone a ha hq id)
    have hrecords : (entries s.sentPackets).filter g = s.records.filter g := rfl
    rw [hrecords] at hweight
    rw [hslots, hflight, hinv.exact id path hpath]
    omega
  · intro sent hsent
    obtain ⟨old, hold, hnew⟩ := hmem sent hsent
    rw [hlen, (hf old hold sent hnew).1]
    exact hinv.valid old hold
  · intro sent hsent
    obtain ⟨old, hold, hnew⟩ := hmem sent hsent
    exact (hf old hold sent hnew).2
  · intro path' hpath'
    obtain ⟨path, hpath, hle, -⟩ := hfind path' hpath'
    exact hle.trans (hinv.bound path hpath)
  · intro path' hpath'
    obtain ⟨path, hpath, -, horder⟩ := hfind path' hpath'
    rw [horder, hnumber]
    exact hinv.order path hpath

end

end FlightInv

/-! ## Outcomes of a submission -/

/-- Blocking a submission is exact unless its packet was declared lost meanwhile. -/
theorem packetSubmissionBlocked_flightInv (hinv : FlightInv s)
    (hok : ∀ index sent, s.findSent packetNumber = some (index, sent) →
      ¬(sent.accepted ∧ sent.lost)) :
    FlightInv (s.packetSubmissionBlocked packetNumber).1 := by
  cases hfind : s.findSent packetNumber with
  | none =>
    simp only [packetSubmissionBlocked, hfind]
    exact hinv
  | some found =>
  obtain ⟨index, sent⟩ := found
  obtain ⟨hrelabels, hpaths⟩ := packetSubmissionBlocked_relabels hfind
  have hpath := hinv.valid sent (mem_of_getElem? hrelabels.found)
  cases haccepted : sent.accepted with
  | true =>
    have hlost : sent.lost = false := by
      by_contra hlost
      exact hok index sent hfind ⟨haccepted, by simpa using hlost⟩
    rw [haccepted, modifyPath, modify_eq_set hpath] at hpaths
    refine hinv.of_remove hrelabels.found haccepted hlost hrelabels.slots hpaths rfl rfl ?_
      hrelabels.number
    intro o ho
    rw [← mem_some.mp ho]
    exact ⟨rfl, by simp [hlost], contribution_of_not_accepted rfl⟩
  | false =>
    rw [haccepted] at hpaths
    have hself : { sent with accepted := false } = sent := by
      cases sent
      simpa using haccepted.symm
    refine hinv.of_same ⟨?_, hrelabels.buffer, hpaths, by rw [hrelabels.number],
      by rw [hrelabels.number]; exact id⟩
    rw [hrelabels.slots, hself, set_getElem?_self hrelabels.found]

theorem packetSubmissionAccepted_flightInv (hinv : FlightInv s) {nowUs : Nat}
    (hroom : ∀ index sent, s.findSent packetNumber = some (index, sent) →
      (s.pathAt sent.pathId).congestion.bytesInFlight + sent.bytes ≤ u64Max) :
    FlightInv (s.packetSubmissionAccepted packetNumber nowUs).1 := by
  cases hfind : s.findSent packetNumber with
  | none =>
    simp only [packetSubmissionAccepted, hfind]
    exact hinv
  | some found =>
  obtain ⟨index, sent⟩ := found
  obtain ⟨new, hrelabels, hnew, hlost, hpaths⟩ := packetSubmissionAccepted_relabels nowUs hfind
  have hmem := mem_of_getElem? hrelabels.found
  have hpath := hinv.valid sent hmem
  have hat := mem_of_getElem? (paths_getElem?_of_lt hpath)
  have hcargo := hrelabels.cargo new rfl
  have hvalid : ∀ o ∈ some new, o.pathId < s.paths.length ∧ (o.lost → o.accepted) := by
    intro o ho
    rw [← mem_some.mp ho, hcargo.pathId]
    exact ⟨hpath, fun _ => hnew⟩
  have hnumber := hrelabels.number
  cases haccepted : sent.accepted with
  | true =>
    have hsame : ∀ id, contribution id new = contribution id sent :=
      contribution_congr hcargo.pathId hcargo.bytes (hnew.trans haccepted.symm) hlost
    rw [haccepted, if_pos rfl] at hpaths
    refine hinv.of_set (q := s.pathAt sent.pathId) hrelabels.found hrelabels.slots hpath ?_ ?_ ?_
      (hinv.bound _ hat) hvalid ?_ (by rw [hnumber]) (by rw [hnumber]; exact hinv.number)
    · rw [hpaths, set_getElem?_self (paths_getElem?_of_lt hpath)]
    · intro id _
      rw [slotWeight_some, slotWeight_some, hsame]
    · rw [slotWeight_some, slotWeight_some, hsame]
    · rw [hnumber]
      exact hinv.order _ hat
  | false =>
    have hunlost : sent.lost = false := by
      by_contra hcontra
      have := hinv.declared sent hmem (by simpa using hcontra)
      rw [haccepted] at this
      cases this
    have hroom := hroom index sent hfind
    have hcontribution : contribution sent.pathId new = sent.bytes := by
      rw [← hcargo.pathId, ← hcargo.bytes]
      exact contribution_self hnew (hlost.trans hunlost)
    have hflight : satAdd (s.pathAt sent.pathId).congestion.bytesInFlight sent.bytes =
        (s.pathAt sent.pathId).congestion.bytesInFlight + sent.bytes := min_eq_left hroom
    rw [haccepted, modifyPath, modify_eq_set hpath] at hpaths
    refine hinv.of_set hrelabels.found hrelabels.slots hpath hpaths ?_ ?_ ?_ hvalid ?_
      (by rw [hnumber])
      (by rw [hnumber]; exact hinv.number)
    · intro id hid
      rw [slotWeight_some, slotWeight_some, contribution_of_not_accepted haccepted,
        contribution_of_ne (by rw [hcargo.pathId]; exact Ne.symm hid)]
    · rw [slotWeight_some, slotWeight_some, contribution_of_not_accepted haccepted, hcontribution]
      exact hflight
    · show satAdd _ _ ≤ u64Max
      rw [hflight]
      exact hroom
    show (s.pathAt sent.pathId).nextSendOrder ≤ _
    rw [hnumber]
    exact hinv.order _ hat

variable {s' : EndpointState P}

theorem FlightInv.of_leaves (hinv : FlightInv s)
    {new : Option SentPacket} (h : Leaves s s' index sent new) : FlightInv s' := by
  obtain ⟨path, hflight, horder, hpaths⟩ := h.released
  have hpath := hinv.valid sent (mem_of_getElem? h.found)
  have hle := hinv.le_flight h.found h.accepted h.inFlight
  have hbound := hinv.bound _ (mem_of_getElem? (paths_getElem?_of_lt hpath))
  refine hinv.of_remove h.found h.accepted h.inFlight h.slots (hpaths hpath)
    (hflight (hle.trans hbound)) horder ?_
    h.number
  intro o ho
  obtain ⟨haccepted, hlost⟩ := h.marked o ho
  exact ⟨(h.cargo o ho).pathId, fun _ => haccepted, contribution_of_lost hlost⟩

/-! ## Paths -/

/-- What records in flight on one path add up to, there and elsewhere. -/
theorem sum_contribution {sents : List SentPacket} (h : ∀ sent ∈ sents, inFlightOn pathId sent)
    (id : Nat) :
    (sents.map (contribution id)).sum = if id = pathId then (sents.map (·.bytes)).sum else 0 := by
  induction sents with
  | nil => simp
  | cons sent sents ih =>
    have hsent := h sent mem_cons_self
    have ih := ih (forall_mem_cons.mp h).2
    have hid : sent.pathId = pathId := by
      simp only [inFlightOn, and_eq_true, beq_iff_eq] at hsent
      exact hsent.1.1
    rw [map_cons, sum_cons, ih, map_cons, sum_cons]
    by_cases heq : id = pathId
    · rw [if_pos heq, if_pos heq, heq, contribution, if_pos hsent]
    · rw [if_neg heq, if_neg heq, contribution_of_ne (by rw [hid]; exact Ne.symm heq)]

section

variable (hinv : FlightInv s)
include hinv

/-- One path's counter drops by the records in flight on it that become lost. -/
theorem FlightInv.of_losses
    {gone : SentPacket → Bool} (hpath : pathId < s.paths.length)
    (hslots : s'.sentPackets = s.sentPackets.map (Option.bind · f))
    (hgone : ∀ sent, gone sent → inFlightOn pathId sent)
    (hlost : ∀ sent, gone sent → ∀ o ∈ f sent, o.pathId = sent.pathId ∧ o.accepted ∧ o.lost)
    (hstay : ∀ sent, gone sent = false → f sent = some sent ∨ sent.lost ∧ f sent = none)
    (hpaths : s'.paths.map flightOrder = (s.paths.set pathId q).map flightOrder)
    (hflight : q.congestion.bytesInFlight =
      (s.pathAt pathId).congestion.bytesInFlight - min ((s.records.filter gone).map (·.bytes)).sum
        u64Max) (horder : q.nextSendOrder = (s.pathAt pathId).nextSendOrder)
    (hnumber : s'.nextPacketNumber = s.nextPacketNumber) : FlightInv s' := by
  have hsum : ∀ id, ((s.records.filter gone).map (contribution id)).sum =
      if id = pathId then ((s.records.filter gone).map (·.bytes)).sum else 0 :=
    sum_contribution fun sent hsent => hgone sent (mem_filter.mp hsent).2
  have hlen : s'.paths.length = s.paths.length := by simpa using congrArg length hpaths
  refine hinv.of_bind (g := gone) hslots ?_ ?_ ?_ hlen ?_ hnumber
  · intro sent hmem o ho
    cases hq : gone sent with
    | true =>
      obtain ⟨hid, haccepted, -⟩ := hlost sent hq o ho
      exact ⟨hid, fun _ => haccepted⟩
    | false =>
      rcases hstay sent hq with heq | ⟨-, heq⟩
      · rw [heq] at ho
        rw [← mem_some.mp ho]
        exact ⟨rfl, hinv.declared sent hmem⟩
      · rw [heq] at ho
        cases ho
  · intro sent _ hq id
    rcases hstay sent hq with heq | ⟨hsent, heq⟩
    · rw [heq, slotWeight_some]
    · rw [heq, slotWeight_none, contribution_of_lost hsent]
  · intro sent _ hq id
    cases heq : f sent with
    | none => rfl
    | some o => exact contribution_of_lost (hlost sent hq o heq).2.2 id
  · intro id path' hpath'
    have hget := congrArg (·[id]?) hpaths
    simp only [getElem?_map, hpath', map_some] at hget
    rw [hsum id]
    by_cases hid : id = pathId
    · subst hid
      rw [getElem?_set_self hpath, map_some, some.injEq] at hget
      refine ⟨s.pathAt id, paths_getElem?_of_lt hpath, ?_, ?_⟩
      · rw [if_pos rfl, show path'.congestion.bytesInFlight =
          q.congestion.bytesInFlight from congrArg fst hget]
        -- The counter is a machine integer, so the saturating sum removes as much.
        have := hinv.bound _ (mem_of_getElem? (paths_getElem?_of_lt hpath))
        omega
      · exact (congrArg snd hget).trans horder
    rw [getElem?_set_ne (Ne.symm hid)] at hget
    cases hold : s.paths[id]? with
    | none => simp [hold] at hget
    | some path =>
      have heq : flightOrder path' = flightOrder path := by simpa [hold] using hget
      exact ⟨path, rfl, by rw [if_neg hid]; exact congrArg fst heq, congrArg snd heq⟩

theorem suspendPath_flightInv (pathId : Nat) : FlightInv (s.suspendPath pathId) := by
  unfold suspendPath
  cases hget : s.paths[pathId]? with
  | none => exact hinv
  | some path =>
  have hpath : pathId < s.paths.length := (List.getElem?_eq_some_iff.mp hget).1
  have hat : s.pathAt pathId = path :=
    some.inj ((paths_getElem?_of_lt hpath).symm.trans hget)
  have hfold : ∀ (sents : List SentPacket) (p : PathState),
      (sents.foldl (fun path sent => { path with
        congestion := path.congestion.removeInFlight sent.bytes }.modifyEvent sent.packetNumber
          fun event => { event with excluded := true }) p).congestion.bytesInFlight =
        p.congestion.bytesInFlight - (sents.map (·.bytes)).sum ∧
      (sents.foldl (fun path sent => { path with
        congestion := path.congestion.removeInFlight sent.bytes }.modifyEvent sent.packetNumber
          fun event => { event with excluded := true }) p).nextSendOrder = p.nextSendOrder := by
    intro sents
    induction sents with
    | nil => exact fun p => ⟨rfl, rfl⟩
    | cons sent sents ih =>
      intro p
      rw [map_cons, sum_cons]
      obtain ⟨hflight, horder⟩ := ih ({ p with
        congestion := p.congestion.removeInFlight sent.bytes }.modifyEvent sent.packetNumber
          fun event => { event with excluded := true })
      refine ⟨hflight.trans ?_, horder⟩
      show p.congestion.bytesInFlight - sent.bytes - _ = _
      omega
  obtain ⟨hflight, horder⟩ :=
    hfold (s.records.filter fun sent => sent.pathId == pathId && sent.accepted && !sent.lost) path
  have hbound := hinv.bound path (mem_of_getElem? hget)
  refine hinv.of_losses (f := fun sent =>
    some (if inFlightOn pathId sent then { sent with lost := true } else sent))
    hpath ?_ (fun sent hsent => hsent) ?_ ?_ rfl ?_ ?_ rfl
  · show s.sentPackets.map _ = _
    refine map_congr_left fun slot _ => ?_
    cases slot <;> rfl
  · intro sent hsent o ho
    rw [if_pos hsent] at ho
    rw [← mem_some.mp ho]
    simp only [inFlightOn, and_eq_true] at hsent
    exact ⟨rfl, hsent.1.2, rfl⟩
  · intro sent hsent
    rw [hsent]
    exact .inl rfl
  · rw [hat]
    refine hflight.trans ?_
    show _ - ((s.records.filter (inFlightOn pathId)).map (·.bytes)).sum = _
    omega
  · rw [hat]
    exact horder

theorem addPathState_flightInv : FlightInv s.addPathState.1 := by
  unfold addPathState
  split
  · exact hinv
  have hnone : weight (contribution s.paths.length) s.sentPackets = 0 := by
    apply weight_eq_zero
    intro sent hsent
    have := hinv.valid sent hsent
    exact contribution_of_ne (by omega)
  refine ⟨?_, ?_, hinv.declared, ?_, ?_, hinv.number⟩
  · intro id path hpath
    rw [getElem?_append] at hpath
    split_ifs at hpath with hid
    · exact hinv.exact id path hpath
    obtain ⟨hzero, rfl⟩ := List.getElem?_eq_some_iff.mp hpath
    simp only [List.length_singleton] at hzero
    obtain rfl : id = s.paths.length := by omega
    rw [hnone]
    simp only [Nat.sub_self]
    rfl
  · intro sent hsent
    have := hinv.valid sent hsent
    simp only [length_append]
    omega
  · intro path hpath
    rcases mem_append.mp hpath with hpath | hpath
    · exact hinv.bound path hpath
    · rw [mem_singleton.mp hpath]
      exact zero_le _
  · intro path hpath
    rcases mem_append.mp hpath with hpath | hpath
    · exact hinv.order path hpath
    · rw [mem_singleton.mp hpath]
      exact zero_le _

theorem removePathState_flightInv (pathId : Nat) : FlightInv (s.removePathState pathId).1 := by
  unfold removePathState
  split
  · exact hinv
  split
  · exact hinv
  rename_i hid hunused
  have hne : ∀ sent, some sent ∈ s.sentPackets → sent.pathId ≠ pathId := by
    intro sent hsent heq
    apply hunused
    rw [List.any_eq_true]
    exact ⟨sent, mem_entries.mpr hsent, by simpa using heq⟩
  have hmem : ∀ p ∈ s.paths.eraseIdx pathId, p ∈ s.paths := fun p hp => List.mem_of_mem_eraseIdx hp
  refine ⟨?_, ?_, ?_, fun p hp => hinv.bound p (hmem p hp), fun p hp => hinv.order p (hmem p hp),
    hinv.number⟩
  · intro id path hpath
    -- Paths behind the removed one move down by one, and their records with them.
    have hweight : weight (contribution id) (s.sentPackets.map (.map fun packet =>
        if pathId < packet.pathId then { packet with pathId := packet.pathId - 1 } else packet)) =
        weight (contribution (if id < pathId then id else id + 1)) s.sentPackets := by
      rw [show (.map fun packet : SentPacket =>
          if pathId < packet.pathId then { packet with pathId := packet.pathId - 1 } else packet) =
        (Option.bind · fun packet => some (if pathId < packet.pathId then
          { packet with
            pathId := packet.pathId - 1 } else packet)) from funext fun o => by cases o <;> rfl,
        weight_bind]
      apply weight_congr
      intro sent hsent
      have := hne sent hsent
      rw [slotWeight_some]
      by_cases hbehind : pathId < sent.pathId
      · rw [if_pos hbehind]
        by_cases hmatch : sent.pathId - 1 = id
        · rw [if_neg (by omega), show id + 1 = sent.pathId by omega]
          simp [contribution, inFlightOn, hmatch]
        · rw [contribution_of_ne hmatch, contribution_of_ne (by split_ifs <;> omega)]
      rw [if_neg hbehind]
      by_cases hmatch : sent.pathId = id
      · rw [if_pos (by omega)]
      · rw [contribution_of_ne hmatch, contribution_of_ne (by split_ifs <;> omega)]
    refine Eq.trans ?_ hweight.symm
    apply hinv.exact
    rw [getElem?_eraseIdx] at hpath
    split_ifs at hpath ⊢ with hlt
    · exact hpath
    · exact hpath
  · intro sent hsent
    obtain ⟨slot, hslot, heq⟩ := mem_map.mp hsent
    obtain ⟨old, rfl, rfl⟩ := Option.map_eq_some_iff.mp heq
    have hold := hinv.valid old hslot
    have := hne old hslot
    rw [length_eraseIdx_of_lt (by omega)]
    split_ifs
    · show old.pathId - 1 < _
      omega
    · omega
  · intro sent hsent
    obtain ⟨slot, hslot, heq⟩ := mem_map.mp hsent
    obtain ⟨old, rfl, rfl⟩ := Option.map_eq_some_iff.mp heq
    have hold := hinv.declared old hslot
    split_ifs <;> exact hold

end

theorem weight_resizeSlots (w : α → Nat) (slots : List (Option α)) (limit : Nat) :
    weight w (resizeSlots slots limit) = weight w slots := by
  rw [weight_eq_sum_entries, entries_resizeSlots, ← weight_eq_sum_entries]

theorem mem_resizeSlots (slots : List (Option α)) (limit : Nat) (a : α) :
    some a ∈ resizeSlots slots limit ↔ some a ∈ slots := by
  rw [← mem_entries, entries_resizeSlots, mem_entries]

theorem setTransmissionCapacity_flightInv (hinv : FlightInv s) (limit : Nat) :
    FlightInv (s.setTransmissionCapacity limit).1 := by
  unfold setTransmissionCapacity
  split
  · exact hinv
  refine ⟨?_, ?_, ?_, ?_, ?_, hinv.number⟩
  · intro id path hpath
    rw [getElem?_map, map_eq_some_iff] at hpath
    obtain ⟨old, hold, rfl⟩ := hpath
    exact (hinv.exact id old hold).trans (weight_resizeSlots _ s.sentPackets limit).symm
  · intro sent hsent
    rw [length_map]
    exact hinv.valid sent ((mem_resizeSlots s.sentPackets limit sent).mp hsent)
  · intro sent hsent
    exact hinv.declared sent ((mem_resizeSlots s.sentPackets limit sent).mp hsent)
  · intro path hpath
    obtain ⟨old, hold, rfl⟩ := mem_map.mp hpath
    exact hinv.bound old hold
  · intro path hpath
    obtain ⟨old, hold, rfl⟩ := mem_map.mp hpath
    exact hinv.order old hold

/-! ## Losses -/

theorem isNewlyLost_inFlight {largestAcked packetThreshold timeThreshold clock : Nat}
    (h : isNewlyLost pathId largestAcked packetThreshold timeThreshold clock sent) :
    inFlightOn pathId sent := by
  simp only [isNewlyLost, and_eq_true] at h
  simp only [inFlightOn, and_eq_true]
  exact ⟨⟨h.1.1.2, h.1.1.1.1⟩, h.1.1.1.2⟩

theorem detectAckLosses_flightInv (hinv : FlightInv s) (pathId : Nat) (largestAcked : Option Nat) :
    FlightInv (s.detectAckLosses pathId largestAcked) := by
  unfold detectAckLosses
  split
  · rename_i largest path hget
    have hpath : pathId < s.paths.length := (List.getElem?_eq_some_iff.mp hget).1
    extract_lets newlyLost
    have hgone : ∀ sent, newlyLost sent → inFlightOn pathId sent :=
      fun sent h => isNewlyLost_inFlight h
    obtain ⟨hflight, horder, -⟩ :=
      declareLosses_spec (s.pathAt pathId) s.nextPacketNumber (s.records.filter newlyLost)
    let mark := fun sent : SentPacket => if newlyLost sent then
      { sent with lost := true, inferredLost := true } else sent
    refine hinv.of_losses (f := fun sent =>
        if (s.markNewlyLost newlyLost).isSpent pathId (mark sent) then none else some (mark sent))
      hpath ?_ hgone ?_ ?_ ?_ hflight horder rfl
    · show (s.sentPackets.map _).map _ = _
      rw [List.map_map]
      refine List.map_congr_left fun slot _ => ?_
      cases slot with
      | none => rfl
      | some sent =>
        show Option.filter (fun packet => !(s.markNewlyLost newlyLost).isSpent pathId packet)
          (some (mark sent)) =
          if (s.markNewlyLost newlyLost).isSpent pathId (mark sent) then none else some (mark sent)
        rw [Option.filter_some]
        cases (s.markNewlyLost newlyLost).isSpent pathId (mark sent) <;> rfl
    · intro sent hsent o ho
      have hmark : mark sent = { sent with lost := true, inferredLost := true } := if_pos hsent
      have haccepted := hgone sent hsent
      simp only [inFlightOn, and_eq_true] at haccepted
      split at ho
      · cases ho
      rw [hmark] at ho
      rw [← mem_some.mp ho]
      exact ⟨rfl, haccepted.1.2, rfl⟩
    · intro sent hsent
      have hmark : mark sent = sent := if_neg (by simp [hsent])
      rw [hmark]
      split
      · rename_i hspent
        simp only [isSpent, and_eq_true] at hspent
        exact .inr ⟨hspent.1.1.2, rfl⟩
      · exact .inl rfl
    · show (s.paths.modify pathId _).map flightOrder = _
      rw [modify_eq_set hpath]
  · exact hinv

/-! ## Acknowledgements -/

theorem ackPath_flight (sent : SentPacket) (p : PathState) :
    (ackPath sent p).congestion.bytesInFlight =
        p.congestion.bytesInFlight - (if sent.lost then 0 else sent.bytes) ∧
      (ackPath sent p).nextSendOrder = p.nextSendOrder := by
  unfold ackPath
  extract_lets p₁ p₂ p₃
  have h₁ : PathState.KeepsFlight p p₁ := by
    unfold p₁
    split
    · exact PathState.recordSpuriousLossAck_keeps p _ _
    · exact .refl p
  have h₂ : PathState.KeepsFlight p p₂ :=
    h₁.trans (PathState.recordDeliveryOutcome_keeps p₁ true p₁.sendClock)
  have h₃ : PathState.KeepsFlight p p₃ := ⟨h₂.flight, h₂.order, h₂.peer, h₂.owed⟩
  split
  · exact ⟨by rw [Nat.sub_zero]; exact h₃.flight, h₃.order⟩
  refine ⟨?_, h₃.order⟩
  show (p₃.congestion.onAckWithGrowth sent.bytes false).bytesInFlight = _
  rw [CongestionController.onAck_flight, h₃.flight]

/-- The walk over acknowledged records takes what each of them counted off its path. -/
theorem foldl_ackRecord_paths (ingressPath : Nat) (sents : List SentPacket)
    (haccepted : ∀ sent ∈ sents, sent.accepted) (scan : AckScan) :
    (sents.foldl (ackRecord ingressPath) scan).paths.length = scan.paths.length ∧
    ∀ (id : Nat) (path' : PathState), (sents.foldl (ackRecord ingressPath) scan).paths[id]? =
      some path' →
      ∃ path, scan.paths[id]? = some path ∧ path'.congestion.bytesInFlight =
        path.congestion.bytesInFlight - (sents.map (contribution id)).sum ∧
        path'.nextSendOrder = path.nextSendOrder := by
  induction sents generalizing scan with
  | nil => exact ⟨rfl, fun id path' h => ⟨path', h, rfl, rfl⟩⟩
  | cons sent sents ih =>
    obtain ⟨hlen, hpaths⟩ :=
      ih (fun o ho => haccepted o (mem_cons_of_mem _ ho)) (ackRecord ingressPath scan sent)
    have hsent := haccepted sent mem_cons_self
    refine ⟨hlen.trans (length_modify ..), ?_⟩
    intro id path' hpath'
    obtain ⟨path₁, hpath₁, hflight, horder⟩ := hpaths id path' hpath'
    rw [map_cons, sum_cons]
    have hmodify : (scan.paths.modify sent.pathId (ackPath sent))[id]? = some path₁ := hpath₁
    rw [getElem?_modify] at hmodify
    cases hold : scan.paths[id]? with
    | none => simp [hold] at hmodify
    | some path =>
    refine ⟨path, rfl, ?_⟩
    simp only [hold, Option.map_eq_map, Option.map_some, Option.some.injEq] at hmodify
    by_cases hid : sent.pathId = id
    · rw [if_pos hid] at hmodify
      obtain ⟨hack, hackOrder⟩ := ackPath_flight sent path
      have hcontribution : contribution id sent = if sent.lost then 0 else sent.bytes := by
        cases hlost : sent.lost <;> simp [contribution, inFlightOn, hid, hsent, hlost]
      rw [hflight, horder, ← hmodify, hackOrder]
      exact ⟨by omega, rfl⟩
    rw [if_neg hid] at hmodify
    rw [hflight, horder, ← hmodify, contribution_of_ne hid]
    exact ⟨by simp, rfl⟩

theorem retireTransmissions_flightInv (hinv : FlightInv s) (acknowledged : AckRangeSet)
    (ingressPath : Nat) : FlightInv
      (s.retireTransmissions acknowledged (s.ackScan acknowledged ingressPath)) := by
  obtain ⟨hlen, hpaths⟩ :=
    foldl_ackRecord_paths ingressPath (s.records.filter (isAcked acknowledged))
    (fun sent hsent => by
      have := (mem_filter.mp hsent).2
      simp only [isAcked, and_eq_true] at this
      exact this.1)
    ⟨s.paths, none, .replicate maxPathStates false, .replicate maxPathStates 0, [], [], [], false,
      s.receivePacketFloor⟩
  have hretired : FlightInv { s with
      paths := (s.ackScan acknowledged ingressPath).paths
      sentPackets := retireAcked acknowledged s.sentPackets : EndpointState P } := by
    refine hinv.of_bind (f := fun sent => if isAcked acknowledged sent then none else some sent)
      (g := isAcked acknowledged) ?_ ?_ ?_ ?_ hlen hpaths rfl
    · refine map_congr_left fun slot _ => ?_
      cases slot with
      | none => rfl
      | some sent =>
        show Option.filter (fun sent => !isAcked acknowledged sent) (some sent) =
          if isAcked acknowledged sent then none else some sent
        rw [Option.filter_some]
        cases isAcked acknowledged sent <;> rfl
    · intro sent hmem o ho
      split at ho
      · cases ho
      · rw [← mem_some.mp ho]
        exact ⟨rfl, hinv.declared sent hmem⟩
    · intro sent _ hq id
      rw [if_neg (by simp [hq]), slotWeight_some]
    · intro sent _ hq id
      rw [if_pos hq, slotWeight_none]
  refine (hretired.of_same (raiseReceiveFloor_same _ _)).of_same (.of_paths ?_)
  rw [acknowledgeStatuses_flightOrder, applyAckCongestionGrowth_flightOrder]

/-- Bringing records in line with their ranges drops lost ones only. -/
theorem settle_flightInv (hinv : FlightInv s) (data : List (Nat × Nat × Nat))
    (fins : List (Nat × Nat)) : FlightInv (s.settle data fins) := by
  have hrecord : ∀ (rangeAt : Nat → Option RetainedSendRange) (sent : SentPacket),
      (sent.lost ∧ settleRecord rangeAt sent = none) ∨ ∃ o, settleRecord rangeAt sent = some o ∧
        o.pathId = sent.pathId ∧ o.bytes = sent.bytes ∧ o.accepted = sent.accepted ∧
          o.lost = sent.lost := by
    intro rangeAt sent
    unfold settleRecord
    split
    · exact .inr ⟨_, rfl, rfl, rfl, rfl, rfl⟩
    split_ifs with _ _ hlost
    · exact .inr ⟨_, rfl, rfl, rfl, rfl, rfl⟩
    · exact .inr ⟨_, rfl, rfl, rfl, rfl, rfl⟩
    · exact .inl ⟨hlost, rfl⟩
    · exact .inr ⟨_, rfl, rfl, rfl, rfl, rfl⟩
  refine hinv.of_bind (g := fun _ => false) rfl ?_ ?_ (fun _ _ h => absurd h (by simp)) rfl ?_ rfl
  · intro sent hmem o ho
    rcases hrecord _ sent with ⟨-, hnone⟩ | ⟨new, hnew, hid, -, haccepted, hlost⟩
    · rw [hnone] at ho
      cases ho
    rw [hnew] at ho
    rw [← mem_some.mp ho, hid, haccepted, hlost]
    exact ⟨rfl, hinv.declared sent hmem⟩
  · intro sent _ _ id
    rcases hrecord _ sent with ⟨hlost, hnone⟩ | ⟨new, hnew, hid, hbytes, haccepted, hlost⟩
    · rw [hnone, slotWeight_none, contribution_of_lost hlost]
    · rw [hnew]
      exact contribution_congr hid hbytes haccepted hlost id
  · intro id path' hpath'
    exact ⟨path', hpath', by simp, rfl⟩

/-! ## Emissions -/

/-- No path's counter can overflow by one more packet of at most this size. -/
def Room (s : EndpointState P) (capacity : Nat) : Prop :=
  ∀ path ∈ s.paths, path.congestion.bytesInFlight + capacity ≤ u64Max

instance (s : EndpointState P) (capacity : Nat) : Decidable (s.Room capacity) :=
  inferInstanceAs (Decidable (∀ path ∈ s.paths, _))

variable {capacity : Nat}

theorem Room.of_same (h : s.Room capacity) (hsame : SameLedger s s') : s'.Room capacity := by
  intro path' hpath'
  obtain ⟨id, hid⟩ := getElem?_of_mem hpath'
  obtain ⟨path, hpath, heq⟩ := hsame.getElem? hid
  rw [show path'.congestion.bytesInFlight = path.congestion.bytesInFlight from congrArg fst heq]
  exact h path (mem_of_getElem? hpath)

/-- Declaring losses makes room. -/
theorem Room.detectAckLosses (h : s.Room capacity) (pathId : Nat)
    (largestAcked : Option Nat) : (s.detectAckLosses pathId largestAcked).Room capacity := by
  unfold EndpointState.detectAckLosses
  split
  · rename_i largest path hget
    have hpath : pathId < s.paths.length := (List.getElem?_eq_some_iff.mp hget).1
    intro path' hpath'
    have hset : path' ∈ s.paths.modify pathId _ := hpath'
    rw [modify_eq_set hpath] at hset
    rcases mem_or_eq_of_mem_set hset with hmem | rfl
    · exact h path' hmem
    rw [(declareLosses_spec _ _ _).1]
    have := h _ (mem_of_getElem? (paths_getElem?_of_lt hpath))
    omega
  · exact h

/-- A move keeps the accounting exact. -/
theorem FlightInv.of_moves (hinv : FlightInv s) (h : Moves s s') : FlightInv s' := by
  cases h with
  | declares h =>
    cases h with
    | same h => exact hinv.of_same h
    | idle h => exact hinv.of_idle h
    | losses pathId largestAcked => exact detectAckLosses_flightInv hinv pathId largestAcked
  | fails packetNumber =>
    rcases s.packetSubmissionFailed_leaves packetNumber with heq | ⟨index, sent, new, hleaves⟩
    · rwa [heq]
    · exact hinv.of_leaves hleaves
  | marks packetNumber =>
    rcases s.markLost_leaves packetNumber with heq | ⟨index, sent, new, hleaves⟩
    · rwa [heq]
    · exact hinv.of_leaves hleaves
  | ranges buffer limit =>
    -- the ranges do not count
    exact ⟨hinv.exact, hinv.valid, hinv.declared, hinv.bound, hinv.order, hinv.number⟩
  | suspends pathId => exact suspendPath_flightInv hinv pathId
  | opens => exact addPathState_flightInv hinv
  | removes pathId => exact removePathState_flightInv hinv pathId
  | resizes limit => exact setTransmissionCapacity_flightInv hinv limit
  | retires acknowledged ingressPath =>
    exact retireTransmissions_flightInv hinv acknowledged ingressPath
  | settles data fins => exact settle_flightInv hinv data fins

/-- Where no counter can overflow, so does every call but the reports of a submission's outcome. -/
theorem FlightInv.of_turn (hinv : FlightInv s) (hroom : s.Room capacity) (h : Turn s capacity s') :
    FlightInv s' := by
  cases h with
  | moves h => exact h.invariant of_moves hinv
  | @enrols s₀ s₁ before henrols after =>
  have hbefore : FlightInv s₀ ∧ s₀.Room capacity := by
    clear henrols
    induction before with
    | refl => exact ⟨hinv, hroom⟩
    | tail _ hdeclares ih =>
      obtain ⟨hinv, hroom⟩ := ih
      refine ⟨hinv.of_moves (.declares hdeclares), ?_⟩
      cases hdeclares with
      | same h => exact hroom.of_same h
      | idle h => exact hroom.of_same (.of_idle hinv.order_lt h)
      | losses pathId largestAcked => exact hroom.detectAckLosses pathId largestAcked
  obtain ⟨slot, sent, henters, -, hfits⟩ := henrols
  refine after.invariant of_moves (hbefore.1.of_enters henters ?_)
  have := hbefore.2 _ (mem_of_getElem? (paths_getElem?_of_lt henters.path))
  omega

/-! ## Whole runs -/

/-- The calls that keep the accounting exact: a submission is not blocked once its packet was
declared lost, and no counter overflows. -/
def KeepsFlightExact (s : EndpointState P) : Op → Prop
  | .packetSubmissionBlocked packetNumber =>
    ∀ found ∈ s.findSent packetNumber, ¬(found.2.accepted ∧ found.2.lost)
  | .packetSubmissionAccepted packetNumber _ =>
    ∀ found ∈ s.findSent packetNumber, (s.pathAt found.2.pathId).congestion.bytesInFlight +
      found.2.bytes ≤ u64Max
  | .encodeStreamPacket _ _ _ capacity | .encodeStreamPacketFromOwned _ _ _ capacity
  | .encodePathControlPacket _ _ _ capacity | .retransmitStreamPacket _ capacity
  | .retransmitStreamPacketOnPath _ _ capacity | .duplicateStreamPacket _ _ capacity
  | .duplicateCreditControl _ _ _ _ _ _ capacity | .retransmitMarkedLoss capacity
  | .retransmitPtoProbe _ capacity | .retransmitDue _ capacity => s.Room capacity
  | .sendDatagram _ _ _ storage _ => s.Room storage.mtu
  | _ => True

theorem KeepsFlightExact.room {op : Op} (hinv : FlightInv s) (h : s.KeepsFlightExact op) :
    s.Room (room op) := by
  cases op <;> first | exact h | exact hinv.bound

theorem step_flightInv (s : EndpointState P) (op : Op) (hinv : FlightInv s)
    (hok : s.KeepsFlightExact op) :
    FlightInv (s.step op) := by
  cases hreports : reports op with
  | false => exact hinv.of_turn (hok.room hinv) (s.step_turn hreports)
  | true =>
    cases op with
    | packetSubmissionBlocked packetNumber =>
      exact packetSubmissionBlocked_flightInv hinv fun index sent h => hok (index, sent) h
    | packetSubmissionAccepted packetNumber nowUs =>
      exact packetSubmissionAccepted_flightInv hinv fun index sent h => hok (index, sent) h
    | _ => cases hreports

/-- In every run whose calls keep the accounting exact, each path's counter is the sum of the bytes
of its records that are accepted and not lost. -/
theorem flight_exact_of_run {role : Role} {limits : ConnectionLimits}
    {maxPacketSize historyCapacity : Nat} {ops : List Op} (hrun : Runs.Along step KeepsFlightExact
      (newWithHistoryCapacity P role limits maxPacketSize historyCapacity) ops) {pathId : Nat}
    {path : PathState} (hpath :
      (Runs.exec step (newWithHistoryCapacity P role limits maxPacketSize historyCapacity)
        ops).paths[pathId]? = some path) : path.congestion.bytesInFlight =
      (Runs.exec step (newWithHistoryCapacity P role limits maxPacketSize historyCapacity)
        ops).flightBytes pathId := by
  have hinv := hrun.invariant step_flightInv (.new role limits maxPacketSize historyCapacity)
  rw [flightBytes_eq_weight]
  exact hinv.exact pathId path hpath

/-- Two packets leave, and the first is declared lost. -/
def lossRun : List Op :=
  [.config (.installConnectionIds clientId serverId), .openSendStream 4 50000,
    .encodeStreamPacket 0 serverId ⟨4, 0, false, [1, 2, 3]⟩ 1100,
    .encodeStreamPacket 0 serverId ⟨4, 3, true, [4, 5]⟩ 1100, .markLost 0]

theorem lossRun_flight_exact : Runs.Along step KeepsFlightExact freshClient lossRun ∧
      ((Runs.exec step freshClient lossRun).pathAt 0).congestion.bytesInFlight =
        (Runs.exec step freshClient lossRun).flightBytes 0 := by
  have hrun : Runs.Along step KeepsFlightExact freshClient lossRun := by
    refine ⟨trivial, trivial, ?_, ?_, trivial, trivial⟩
    · show Room _ 1100
      decide +kernel
    · show Room _ 1100
      decide +kernel
  exact ⟨hrun, flight_exact_of_run hrun (paths_getElem?_of_lt (by decide +kernel))⟩

/-- The first packet is declared lost, then its submission reported as blocked: its bytes are
removed twice. -/
theorem blocked_after_loss_not_exact :
    ((Runs.exec step freshClient (lossRun ++ [.packetSubmissionBlocked 0])).pathAt
      0).congestion.bytesInFlight ≠
      (Runs.exec step freshClient (lossRun ++ [.packetSubmissionBlocked 0])).flightBytes 0 := by
  decide +kernel

end EndpointState

end QuicLite
