import QuicLite.Discovery.Provenance
import QuicLite.Discovery.Rows

/-!
# Engines that crawl each other

Any number of engines with one clock hear devices, take rows of foreign observers, and take the rows
that they make for each other. `heard` has when a device was heard of from outside: sighted by an
engine, or named in a row of a foreign observer. The engines do not keep it.
-/

namespace QuicLite.Discovery

open Cbor List Option Function

/-! ## Runs -/

variable {announce : Announce}
variable {later : List (NodeKey × Int)} {facts : Option DiscoveryFacts} {authenticated : Bool}
variable {row : Observation} {engine : Engine}

structure Net (ι : Type) where
  engines : ι → Engine
  clock : Int
  heard : List (NodeKey × Int)

inductive NetOp (ι : Type) where
  /-- What an engine gets from outside. A crawled row is one of a foreign observer. -/
  | input (i : ι) (input : Input)
  /-- One of the rows that the exporter makes of its devices, encoded and decoded. -/
  | transfer (exporter importer : ι) (via : Bytes) (live : List UInt32)
      (liveScopesOnly retained : Bool) (index : Nat)

/-- The row that an engine gives to another. -/
def Engine.transferred (cbor : Codec) (self : Engine) (nowMs : Int) (live : List UInt32)
    (liveScopesOnly retained : Bool) (index : Nat) : Option Observation :=
  let devices := (self.devices nowMs).inventory.devices.entries.map fun entry => entry.2
  ((records cbor live liveScopesOnly retained nowMs devices)[index]?).bind fun row =>
    Observation.decode cbor row.bytes

namespace Net

variable {ι : Type}

def new (deviceId : ι → List.Vector UInt8 16) (replyWire : ι → Nat → Option Bytes) : Net ι :=
  ⟨fun i => .new (deviceId i) (replyWire i), 0, []⟩

variable [DecidableEq ι] (cbor : Codec) (verify : Announce → Bool)

def step (self : Net ι) (op : Int × NetOp ι) : Net ι :=
  let nowMs := op.1
  match op.2 with
  | .input i input =>
    let observer := Observer.step cbor verify ⟨self.engines i, self.clock, []⟩ (nowMs, input)
    ⟨update self.engines i observer.engine, nowMs,
      self.heard ++ observer.log.map fun entry => (entry.key, nowMs)⟩
  | .transfer exporter importer via live liveScopesOnly retained index =>
    let engines := update self.engines exporter ((self.engines exporter).devices nowMs)
    match (self.engines exporter).transferred cbor nowMs live liveScopesOnly retained index with
    | none => ⟨engines, nowMs, self.heard⟩
    | some row =>
      ⟨update engines importer
        ((engines importer).observeCrawled cbor verify nowMs via row).1, nowMs, self.heard⟩

end Net

/-! ## The specification -/

section Spec

variable {ι : Type} (cbor : Codec) (verify : Announce → Bool)

/-- No engine takes a device to have been seen later than it was heard of, and each device that is
listed was heard of within the time to live. -/
structure Mortal (s : Net ι) : Prop where
  lastSeen : ∀ i key device, (s.engines i).inventory.get key = some device →
    ∃ t, (key, t) ∈ s.heard ∧ device.lastSeenMs ≤ t
  listed : ∀ i nowMs key device, ((s.engines i).devices nowMs).inventory.get key = some device →
    ∃ t, (key, t) ∈ s.heard ∧ nowMs - (s.engines i).inventory.ttlMs ≤ t

/-- The clock does not go back, and counts in 64 bits. -/
def Clocked (s : Net ι) (op : Int × NetOp ι) : Prop := s.clock ≤ op.1 ∧ op.1 ≤ i64Max

/-- A row that one engine takes from another says when the device was last seen, unless the device
was heard of at this very time. -/
def Dated [DecidableEq ι] (s : Net ι) (op : Int × NetOp ι) : Prop :=
  match op.2 with
  | .input _ _ => True
  | .transfer exporter importer via live liveScopesOnly retained index =>
    ∀ row announce, (s.engines exporter).transferred cbor op.1 live liveScopesOnly retained index =
      some row →
      Admits cbor verify (update s.engines exporter ((s.engines exporter).devices op.1)
        importer) via row
          announce →
        row.lastSeenMs.isSome = true ∨ (hex announce.deviceId.used, op.1) ∈ s.heard

end Spec

/-! ## The invariant of a device -/

section Devices

variable {cbor : Codec} {heard : List (NodeKey × Int)} {key : NodeKey} {nowMs : Int}
    {device : Device} {carrier : Carrier} {payload : Bytes}

variable (cbor heard key) in
/-- The observations of the device under a key are not younger than what was heard, and its record
is its own. -/
structure Backed (device : Device) : Prop where
  id : device.id = key
  observed : ∀ bearer observation, device.observations.lookup bearer = some observation →
    ∃ t, (key, t) ∈ heard ∧ observation.lastSeenMs ≤ t
  record : ∀ record announce, device.record = some record →
    decodeAnnounce cbor record = some announce →
    hex announce.deviceId.used = key

namespace Backed

theorem new (announce : Option Announce) (authenticated : Bool) :
    Backed cbor heard key (.new key announce authenticated nowMs) where
  id := rfl
  observed := fun bearer observation
    h => by cases (AList.lookup_empty (β := fun _ => DiscoveryObservation) bearer).symm.trans h
  record := fun record announce h => by cases h

theorem mono (h : Backed cbor heard key device) (hsub : heard ⊆ later) :
    Backed cbor later key device where
  id := h.id
  observed := by
    intro bearer observation hlookup
    obtain ⟨t, ht, hle⟩ := h.observed bearer observation hlookup
    exact ⟨t, hsub ht, hle⟩
  record := h.record

theorem sight (h : Backed cbor heard key device) (hnow : (key, nowMs) ∈ heard) :
    Backed cbor heard key (device.sight nowMs carrier payload) where
  id := h.id
  observed := by
    intro bearer observation hlookup
    by_cases hbearer : bearer = carrier.bearer
    · obtain ⟨found, hfound, hseen⟩ :=
        recordObservation_same { device with lastSeenMs := nowMs } nowMs carrier payload
      rw [hbearer] at hlookup
      obtain rfl := some.inj (hfound.symm.trans hlookup)
      exact ⟨nowMs, hnow, hseen.le⟩
    · exact h.observed bearer observation ((recordObservation_other hbearer).symm.trans hlookup)
  record := h.record

/-- The record is the one that was there, the payload, or the encoding. -/
theorem record_takeAnnounce (hlawful : cbor.Lawful) (h : Backed cbor heard key device)
    (hkey : hex announce.deviceId.used = key) (authenticated : Bool) :
    ∀ record found, (device.takeAnnounce cbor announce authenticated payload).record = some record →
      decodeAnnounce cbor record = some found → hex found.deviceId.used = key := by
  intro record found hrecord hdecode
  rcases takeAnnounce_cases cbor device announce authenticated payload with ⟨-, -, hsame⟩ |
    ⟨-, hnew⟩
  · rw [hsame] at hrecord
    exact h.record record found hrecord hdecode
  rw [hnew] at hrecord
  split at hrecord
  · next hpayload =>
      rw [← some.inj hrecord, hpayload] at hdecode
      rw [← some.inj hdecode, hkey]
  · rw [deviceId_encode hlawful hrecord hdecode, hkey]

theorem observe (hlawful : cbor.Lawful) (h : Backed cbor heard key device)
    (hkey : hex announce.deviceId.used = key) (hnow : (key, nowMs) ∈ heard) :
    Backed cbor heard key (device.observe cbor nowMs carrier announce facts authenticated
      payload) where
  id := (takeAnnounce_same cbor device announce authenticated payload).1.trans h.id
  observed := by
    intro bearer observation hlookup
    by_cases hbearer : bearer = carrier.bearer
    · obtain ⟨found, hfound, hseen⟩ :=
        observe_same device cbor nowMs carrier announce facts authenticated payload
      rw [hbearer] at hlookup
      obtain rfl := some.inj (hfound.symm.trans hlookup)
      exact ⟨nowMs, hnow, hseen.le⟩
    · exact h.observed bearer observation ((observe_other hbearer).symm.trans hlookup)
  record := h.record_takeAnnounce hlawful hkey authenticated

end Backed

/-- The device under a key was heard of. -/
def HeardOf (heard : List (NodeKey × Int)) (key : NodeKey) (seenMs : Int) : Prop :=
  ∃ t, (key, t) ∈ heard ∧ seenMs ≤ t

/-- A row that is not younger than what was heard leaves the device so. -/
theorem Backed.setCrawled {bearer : Text} {found : DiscoveryObservation}
    (hfound : device.observations.lookup bearer = some found) (hid : device.id = key)
    (hother : ∀ other ≠ bearer, ∀ observation, device.observations.lookup other = some observation →
      HeardOf heard key observation.lastSeenMs)
    (hdevice : ∀ record announce, device.record = some record →
      decodeAnnounce cbor record = some announce →
      hex announce.deviceId.used = key) (via : Bytes) {lastSeen : Option Int}
    (hseen : HeardOf heard key (lastSeen.getD 0))
    (hnone : lastSeen = none → HeardOf heard key device.lastSeenMs) :
    Backed cbor heard key (device.setCrawled bearer via lastSeen) ∧
      HeardOf heard key (device.setCrawled bearer via lastSeen).lastSeenMs := by
  obtain ⟨hsame, -, hrecord, -, -, hobservations⟩ := setCrawled_eq hfound via lastSeen
  obtain ⟨hnewest, hkept⟩ := setCrawled_lastSeenMs hfound via lastSeen
  have hobserved : ∀ other observation,
      (device.setCrawled bearer via lastSeen).observations.lookup other = some observation →
      HeardOf heard key observation.lastSeenMs := by
    intro other observation hlookup
    rw [hobservations] at hlookup
    rcases Table.lookup_insert_cases hlookup with ⟨-, rfl⟩ | ⟨hne, hold⟩
    · exact hseen
    · exact hother other hne observation hold
  refine ⟨⟨hsame.trans hid, hobserved, fun record announce hr =>
    hdevice record announce (hrecord.symm.trans hr)⟩, ?_⟩
  cases lastSeen with
  | none => exact (hkept rfl).symm ▸ hnone rfl
  | some t =>
    have hinsert : (device.setCrawled bearer via (some t)).observations.lookup bearer =
        some { found with lastSeenMs := t } := by
      rw [hobservations, AList.lookup_insert]
      rfl
    obtain ⟨newest, hmax, -, other, observation, hlookup, heq⟩ := newestMs_of_lookup hinsert
    rw [← some.inj (hmax.symm.trans (hnewest rfl)), ← heq]
    exact hobserved other observation hlookup

end Devices

/-! ## The inventory -/

section Inventories

/-- Every device was heard of. -/
def AllHeard (cbor : Codec) (heard : List (NodeKey × Int)) (inventory : Inventory) : Prop :=
  ∀ key device, inventory.get key = some device →
    Backed cbor heard key device ∧ HeardOf heard key device.lastSeenMs

variable {cbor : Codec} {heard : List (NodeKey × Int)} {inventory : Inventory} {nowMs : Int}
    {carrier : Carrier} {payload : Bytes}

namespace AllHeard

section

variable (h : AllHeard cbor heard inventory)
include h

theorem mono (hsub : heard ⊆ later) : AllHeard cbor later inventory := by
  intro key device hget
  obtain ⟨hbacked, t, ht, hle⟩ := h key device hget
  exact ⟨hbacked.mono hsub, t, hsub ht, hle⟩

theorem prune (nowMs : Int) : AllHeard cbor heard (inventory.prune nowMs) :=
  fun key device hget => h key device (get_prune.mp hget).1

theorem base (nowMs : Int) {key : NodeKey} {fresh : Device} (hfresh : Backed cbor heard key fresh) :
    Backed cbor heard key (base inventory nowMs key fresh) := by
  unfold Discovery.base
  cases hget : (inventory.prune nowMs).get key with
  | none => exact hfresh
  | some device => exact (h.prune nowMs key device hget).1

end

theorem observe (hlawful : cbor.Lawful) (h : AllHeard cbor heard inventory)
    (hnow : (hex announce.deviceId.used, nowMs) ∈ heard) :
    AllHeard cbor heard (inventory.observe cbor nowMs carrier announce facts authenticated
      payload).1 := by
  intro key device hget
  by_cases hkey : key = hex announce.deviceId.used
  · subst hkey
    rw [get_observe_same] at hget
    obtain rfl := some.inj hget
    exact ⟨(h.base nowMs (.new _ _)).observe hlawful rfl hnow, nowMs, hnow, le_rfl⟩
  · rw [get_observe_other hkey] at hget
    exact h.prune nowMs key device hget

theorem observeProvisional (h : AllHeard cbor heard inventory) {id : Text}
    (hnow : (toAsciiLowercase id, nowMs) ∈ heard) :
    AllHeard cbor heard (inventory.observeProvisional nowMs carrier id payload).1 := by
  intro key device hget
  by_cases hkey : key = toAsciiLowercase id
  · subst hkey
    rw [get_observeProvisional_same] at hget
    obtain rfl := some.inj hget
    exact ⟨(h.base nowMs (.new _ _)).sight hnow, nowMs, hnow, le_rfl⟩
  · rw [get_observeProvisional_other hkey] at hget
    exact h.prune nowMs key device hget

/-- The row is as old as it says, or its device is heard of now. -/
theorem imported (hlawful : cbor.Lawful) (h : AllHeard cbor heard inventory) (hnow : 0 ≤ nowMs)
    (via : Bytes) (hrow : (hex announce.deviceId.used, nowMs) ∈ heard ∨
      ∃ t, Engine.crawledSeen nowMs row = some t ∧ HeardOf heard (hex announce.deviceId.used) t) :
    AllHeard cbor heard (imported cbor inventory nowMs announce via row) := by
  intro key device hget
  by_cases hkey : key = hex announce.deviceId.used
  · subst hkey
    rw [get_imported_same] at hget
    obtain rfl := some.inj hget
    have hbase : Backed cbor heard (hex announce.deviceId.used)
        (Discovery.base inventory nowMs (hex announce.deviceId.used)
        (.new (hex announce.deviceId.used) (some announce) true nowMs)) := h.base nowMs
          (Backed.new _ _)
    obtain ⟨found, hfound, -⟩ :=
      observe_same (Discovery.base inventory nowMs (hex announce.deviceId.used)
      (.new (hex announce.deviceId.used) (some announce) true nowMs)) cbor nowMs
        (Engine.crawledCarrier row) announce none
        true row.record
    refine Backed.setCrawled hfound ((takeAnnounce_same _ _ _ _ _).1.trans hbase.id)
      (fun other hother observation hlookup => ?_)
      (hbase.record_takeAnnounce hlawful rfl true) _ ?_ ?_
    · exact hbase.observed other observation ((observe_other hother).symm.trans hlookup)
    · rcases hrow with hheard | ⟨t, hseen, hheard⟩
      · refine ⟨nowMs, hheard, ?_⟩
        cases hseen : Engine.crawledSeen nowMs row with
        | none => exact hnow
        | some t => exact crawledSeen_le hnow hseen
      · rw [hseen]
        exact hheard
    intro hnone
    rcases hrow with hheard | ⟨t, hseen, -⟩
    · exact ⟨nowMs, hheard, le_rfl⟩
    · rw [hnone] at hseen
      cases hseen
  · rw [get_imported_other _ _ _ _ _ _ hkey] at hget
    exact h.prune nowMs key device hget

end AllHeard

/-- No input changes the time to live. -/
theorem ttlMs_step (cbor : Codec) (verify : Announce → Bool) (s : Observer) (op : Int × Input) :
    (s.step cbor verify op).engine.inventory.ttlMs = s.engine.inventory.ttlMs := by
  have hannounced : ∀ carrier announce facts replyId payload,
      (s.engine.observeAnnounceWith cbor verify op.1 carrier announce facts replyId
        payload).1.inventory.ttlMs =
        s.engine.inventory.ttlMs := by
    intro carrier announce facts replyId payload
    rcases observeAnnounceWith_cases cbor verify s.engine op.1 carrier announce facts replyId
      payload with
        ⟨hsame, -⟩ | ⟨-, -, hinventory, -⟩
    · rw [hsame]
    · rw [hinventory]
      rfl
  obtain ⟨nowMs, input⟩ := op
  cases input with
  | datagram carrier bytes =>
    show (s.engine.onDatagram cbor verify nowMs carrier bytes).1.inventory.ttlMs = _
    rcases onDatagram_cases cbor verify s.engine nowMs carrier bytes with
        ⟨hsame, -⟩ | ⟨announce, facts, replyId, -, hsame⟩
    · rw [hsame]
    · rw [hsame]
      exact hannounced _ _ _ _ _
  | announce carrier decoded payload => exact hannounced _ _ _ _ _
  | crawled via row =>
    show (s.engine.observeCrawled cbor verify nowMs via row).1.inventory.ttlMs = _
    rcases observeCrawled_cases cbor verify s.engine nowMs via row with hsame | ⟨announce, -, hsame⟩
    · rw [hsame]
    · rw [hsame]
      exact ttlMs_imported _ _ _ _ _ _
  | provisional carrier id payload => rfl
  | devices => rfl
  | expectResponse id => rfl
  | forgetResponse id => rfl

/-- What an engine gets from outside is heard of now. -/
theorem AllHeard.step (hlawful : cbor.Lawful) {verify : Announce → Bool} {clock : Int}
    {input : Input} (h : AllHeard cbor heard engine.inventory) (hnow : 0 ≤ nowMs) : AllHeard cbor
      (heard ++ (Observer.step cbor verify ⟨engine, clock, []⟩ (nowMs, input)).log.map fun entry =>
        (entry.key, nowMs)) (Observer.step cbor verify ⟨engine, clock, []⟩
          (nowMs, input)).engine.inventory := by
  have hsub : ∀ more, heard ⊆ heard ++ more := fun more => subset_append_left _ _
  have hlast : ∀ key, (key, nowMs) ∈ heard ++ [(key, nowMs)] :=
    fun key => mem_append_right _ mem_cons_self
  have hannounced : ∀ carrier announce facts replyId payload,
      AllHeard cbor (heard ++ ((Observer.record carrier.bearer .direct
          (engine.observeAnnounceWith cbor verify nowMs carrier announce facts replyId
            payload).2.recorded).map fun entry => (entry.key, nowMs)))
        (engine.observeAnnounceWith cbor verify nowMs carrier announce facts replyId
          payload).1.inventory := by
    intro carrier announce facts replyId payload
    rcases observeAnnounceWith_cases cbor verify engine nowMs carrier announce facts replyId
      payload with
        ⟨hsame, -⟩ | ⟨-, -, hinventory, hrecorded⟩
    · rw [hsame]
      exact h.mono (hsub _)
    have hobserve : AllHeard cbor (heard ++ [(hex announce.deviceId.used, nowMs)])
        (engine.inventory.observe cbor nowMs carrier announce facts announce.hasIdentity
          payload).1 :=
      (h.mono (hsub _)).observe hlawful (hlast _)
    rw [hinventory]
    rcases hrecorded with hkey | ⟨device, hget, hkey⟩
    · rw [hkey]
      exact hobserve
    · rw [hkey, (hobserve _ device hget).1.id]
      exact hobserve
  cases input with
  | datagram carrier bytes =>
    show AllHeard cbor (heard ++ ((Observer.record carrier.bearer .direct
        (engine.onDatagram cbor verify nowMs carrier bytes).2.recorded).map fun entry =>
          (entry.key, nowMs)))
      (engine.onDatagram cbor verify nowMs carrier bytes).1.inventory
    rcases onDatagram_cases cbor verify engine nowMs carrier bytes with
        ⟨hsame, -⟩ | ⟨announce, facts, replyId, -, hsame⟩
    · rw [hsame]
      exact h.mono (hsub _)
    · rw [hsame]
      exact hannounced carrier announce facts replyId bytes
  | announce carrier decoded payload => exact hannounced carrier decoded none none payload
  | provisional carrier id payload => exact (h.mono (hsub _)).observeProvisional (hlast _)
  | crawled via row =>
    show AllHeard cbor (heard ++
      map _ ([] ++ if (engine.observeCrawled cbor verify nowMs via row).2 = true then _ else []))
      (engine.observeCrawled cbor verify nowMs via row).1.inventory
    rcases observeCrawled_cases cbor verify engine nowMs via row with hsame |
      ⟨announce, hadmits, hsame⟩
    · rw [hsame]
      exact h.mono (hsub _)
    · rw [hsame, hadmits.decoded]
      exact ((h.mono (hsub _)).imported hlawful hnow via (.inl (hlast _))).prune nowMs
  | devices => exact (h.mono (hsub _)).prune nowMs
  | expectResponse id => exact h.mono (hsub _)
  | forgetResponse id => exact h.mono (hsub _)

end Inventories

/-! ## The rows that engines give each other -/

section Rows

variable {cbor : Codec} {nowMs : Int} {device : Device} {record : Bytes} {bearer : Text}
    {facts : DiscoveryObservation} {retained : Bool}

theorem rowOf_bounded (hseen : facts.lastSeenMs ≤ nowMs) (hnow : nowMs ≤ i64Max) :
    (rowOf retained nowMs device record bearer facts).Bounded := by
  have hbound : u64Bound = 2 ^ 64 := rfl
  have hmax : i64Max = 2 ^ 63 - 1 := rfl
  have hlast : ∀ t, (rowOf retained nowMs device record bearer facts).lastSeenMs = some t →
      t = facts.lastSeenMs.toNat := by
    intro t ht
    have ht : (if 0 < facts.lastSeenMs then some facts.lastSeenMs.toNat else none) = some t := ht
    split at ht
    · exact (some.inj ht).symm
    · cases ht
  refine ⟨fun t ht => (by cases ht), fun t ht => ?_, fun t ht => ?_⟩
  · rw [hlast t ht]
    omega
  obtain ⟨seen, -, rfl⟩ := map_eq_some_iff.mp
    (show (rowOf retained nowMs device record bearer facts).lastSeenMs.map (fun seen =>
      nowMs.toNat - seen) = some t from ht)
  omega

/-- A row with a time is imported at that time. -/
theorem crawledSeen_rowOf (hseen : facts.lastSeenMs ≤ nowMs) (hnow : nowMs ≤ i64Max)
    (hdated : (rowOf retained nowMs device record bearer facts).lastSeenMs.isSome = true) :
    Engine.crawledSeen nowMs (rowOf retained nowMs device record bearer facts) =
      some facts.lastSeenMs := by
  have hpos : 0 < facts.lastSeenMs := by
    by_contra hnot
    have hnone : (rowOf retained nowMs device record bearer facts).lastSeenMs = none := if_neg hnot
    rw [hnone] at hdated
    cases hdated
  have hage : (rowOf retained nowMs device record bearer facts).ageMs =
      some (nowMs.toNat - facts.lastSeenMs.toNat) := by
    show (if 0 < facts.lastSeenMs then some facts.lastSeenMs.toNat else none).map _ = _
    rw [if_pos hpos]
    rfl
  rw [Engine.crawledSeen, hage]
  show some (satSub64 nowMs (min ((nowMs.toNat - facts.lastSeenMs.toNat : Nat) : Int) i64Max)) = _
  unfold satSub64 i64Max at *
  congr 1
  omega

/-- A row is one of an observation of a device that has not expired. -/
theorem transferred_cases (hlawful : cbor.Lawful) {heard : List (NodeKey × Int)}
    {live : List UInt32} {liveScopesOnly : Bool} {index : Nat}
    (h : AllHeard cbor heard engine.inventory) (hpast : ∀ entry ∈ heard, entry.2 ≤ nowMs)
    (hnow : nowMs ≤ i64Max) (hrow : engine.transferred cbor nowMs live liveScopesOnly retained
      index = some row) : ∃ key device record bearer facts, engine.inventory.get key = some device ∧
      device.record = some record ∧
      device.observations.lookup bearer = some facts ∧ facts.lastSeenMs ≤ nowMs ∧
        row = rowOf retained nowMs device record bearer facts := by
  obtain ⟨out, hout, hdecode⟩ := bind_eq_some_iff.mp hrow
  obtain ⟨device, hdevice, hmem⟩ := mem_flatMap.mp (mem_of_getElem? hout)
  obtain ⟨⟨key, kept⟩, hentry, rfl⟩ := mem_map.mp hdevice
  have hget := (get_prune.mp (AList.mem_lookup_iff.mpr hentry)).1
  unfold recordsOf at hmem
  cases hrecord : kept.record with
  | none =>
    rw [hrecord] at hmem
    cases hmem
  | some record =>
  rw [hrecord] at hmem
  obtain ⟨⟨bearer, facts⟩, hfacts, hmade⟩ := mem_filterMap.mp hmem
  have hlookup := AList.mem_lookup_iff.mpr hfacts
  obtain ⟨t, ht, hle⟩ := (h key kept hget).1.observed bearer facts hlookup
  have hseen : facts.lastSeenMs ≤ nowMs := hle.trans (hpast _ ht)
  split at hmade
  · cases hmade
  split at hmade
  · cases hmade
  next hfits =>
    obtain ⟨bytes, hencode, rfl⟩ := map_eq_some_iff.mp hmade
    have hcapacity : record.length + 256 < u64Bound :=
      Nat.lt_of_le_of_lt (not_lt.mp hfits) (by decide)
    exact ⟨key, kept, record, bearer, facts, hget, hrecord, hlookup, hseen,
      Observation.decode_encode hlawful hcapacity (rowOf_bounded hseen hnow) hencode hdecode⟩

end Rows

/-! ## The invariant of a run -/

section Run

variable {ι : Type} (cbor : Codec) (verify : Announce → Bool)

structure NetInv (s : Net ι) : Prop where
  heard : ∀ i, AllHeard cbor s.heard (s.engines i).inventory
  ttl : ∀ i, (s.engines i).inventory.ttlMs = Inventory.default.ttlMs
  past : ∀ entry ∈ s.heard, entry.2 ≤ s.clock
  clock : 0 ≤ s.clock

variable {cbor verify}

namespace NetInv

variable {s : Net ι}

theorem new (deviceId : ι → List.Vector UInt8 16) (replyWire : ι → Nat → Option Bytes) :
    NetInv cbor (.new deviceId replyWire) where
  heard := fun i key device
    hget => by cases (AList.lookup_empty (β := fun _ => Device) key).symm.trans hget
  ttl := fun _ => rfl
  past := fun entry hentry => by cases hentry
  clock := le_rfl

theorem step [DecidableEq ι] (hlawful : cbor.Lawful) (h : NetInv cbor s) (op : Int × NetOp ι)
    (hok : Clocked s op ∧ Dated cbor verify s op) : NetInv cbor (s.step cbor verify op) := by
  obtain ⟨nowMs, op⟩ := op
  obtain ⟨⟨hclock, hmax⟩, hdated⟩ := hok
  have hnow : 0 ≤ nowMs := h.clock.trans hclock
  have hpast : ∀ entry ∈ s.heard, entry.2 ≤ nowMs :=
    fun entry hentry => (h.past entry hentry).trans hclock
  cases op with
  | input i input =>
    refine ⟨fun j => ?_, fun j => ?_, fun entry hentry => ?_, hnow⟩
    · show AllHeard cbor (s.heard ++ _) (update s.engines i _ j).inventory
      by_cases hj : j = i
      · rw [hj, update_self]
        exact (h.heard i).step hlawful hnow
      · rw [update_of_ne hj]
        exact (h.heard j).mono (subset_append_left _ _)
    · show (update s.engines i _ j).inventory.ttlMs = _
      by_cases hj : j = i
      · rw [hj, update_self, ttlMs_step]
        exact h.ttl i
      · rw [update_of_ne hj]
        exact h.ttl j
    · rcases mem_append.mp hentry with hold | hnew
      · exact hpast entry hold
      · obtain ⟨logged, -, rfl⟩ := mem_map.mp hnew
        exact le_rfl
  | transfer exporter importer via live liveScopesOnly retained index =>
    have hexported : ∀ j, AllHeard cbor s.heard
        (update s.engines exporter ((s.engines exporter).devices nowMs) j).inventory ∧
          (update s.engines exporter ((s.engines exporter).devices nowMs) j).inventory.ttlMs =
            Inventory.default.ttlMs := by
      intro j
      by_cases hj : j = exporter
      · rw [hj, update_self]
        exact ⟨(h.heard exporter).prune nowMs, h.ttl exporter⟩
      · rw [update_of_ne hj]
        exact ⟨h.heard j, h.ttl j⟩
    unfold Net.step
    dsimp only
    cases hrow : (s.engines exporter).transferred cbor nowMs live liveScopesOnly retained index with
    | none => exact ⟨fun j => (hexported j).1, fun j => (hexported j).2, hpast, hnow⟩
    | some row =>
    refine ⟨fun j => ?_, fun j => ?_, hpast, hnow⟩
    · dsimp only
      by_cases hj : j = importer
      · rw [hj, update_self]
        rcases observeCrawled_cases cbor verify (update s.engines exporter
            ((s.engines exporter).devices nowMs) importer) nowMs via row with hsame | ⟨announce,
              hadmits, hsame⟩
        · rw [hsame]
          exact (hexported importer).1
        rw [hsame]
        refine ((hexported importer).1.imported hlawful hnow via ?_).prune nowMs
        rcases hdated row announce hrow hadmits with hseen | hheard
        · obtain ⟨key, device, record, bearer, facts, hget, hrecord, hlookup, hle, rfl⟩ :=
            transferred_cases hlawful (h.heard exporter) hpast hmax hrow
          obtain ⟨hbacked, -⟩ := h.heard exporter key device hget
          have hkey : hex announce.deviceId.used = key :=
            hbacked.record record announce hrecord hadmits.decoded
          exact .inr ⟨facts.lastSeenMs, crawledSeen_rowOf hle hmax hseen,
            hkey ▸ hbacked.observed bearer facts hlookup⟩
        · exact .inl hheard
      · rw [update_of_ne hj]
        exact (hexported j).1
    · dsimp only
      by_cases hj : j = importer
      · rw [hj, update_self]
        rcases observeCrawled_cases cbor verify (update s.engines exporter
            ((s.engines exporter).devices nowMs) importer) nowMs via
              row with hsame | ⟨announce, -, hsame⟩
        · rw [hsame]
          exact (hexported importer).2
        · rw [hsame]
          exact (ttlMs_imported _ _ _ _ _ _).trans (hexported importer).2
      · rw [update_of_ne hj]
        exact (hexported j).2

theorem mortal (h : NetInv cbor s) : Mortal s where
  lastSeen := fun i key device hget => (h.heard i key device hget).2
  listed := by
    intro i nowMs key device hget
    obtain ⟨hold, hfresh⟩ := get_prune.mp hget
    obtain ⟨t, ht, hle⟩ := (h.heard i key device hold).2
    refine ⟨t, ht, ?_⟩
    have httl : (s.engines i).inventory.ttlMs = 3600000 := h.ttl i
    unfold satSub64 i64Max at hfresh
    omega

end NetInv

end Run

/-! ## The result -/

def twoEngines : Net Bool := .new (fun _ => List.Vector.replicate 16 0) fun _ _ => none

/-- A foreign row without a time, taken by one engine and an hour later by another from the
first. -/
def undatedTwice : List (Int × NetOp Bool) :=
  [(1, .input false (.crawled (replicate 8 9) (signedRow nan))),
    (3600000, .transfer false true (replicate 8 9) [] false true 0)]

/-- A row without a time is as new as its last import. -/
theorem undated_row_revived : ¬ ∀ (verify : Announce → Bool) (ops : List (Int × NetOp Bool)),
      Runs.Along (Net.step minimal verify) Clocked twoEngines ops →
        Mortal (Runs.exec (Net.step minimal verify) twoEngines ops) := by
  intro hall
  have hmortal := hall (fun _ => true) undatedTwice
    ⟨⟨show (0 : Int) ≤ 1 by decide, show (1 : Int) ≤ i64Max by decide⟩,
      ⟨show (1 : Int) ≤ 3600000 by decide, show (3600000 : Int) ≤ i64Max by decide⟩, trivial⟩
  generalize hs : Runs.exec (Net.step minimal fun _ => true) twoEngines undatedTwice =
    s at hmortal
  have hlisted : (((s.engines true).devices 7200000).inventory.get [48, 55]).isSome = true := by
    rw [← hs]
    decide +kernel
  have hheard : s.heard = [([48, 55], 1)] := by
    rw [← hs]
    decide +kernel
  have httl : (s.engines true).inventory.ttlMs = 3600000 := by
    rw [← hs]
    decide +kernel
  obtain ⟨device, hget⟩ := isSome_iff_exists.mp hlisted
  obtain ⟨t, ht, hle⟩ := hmortal.listed true 7200000 _ device hget
  rw [hheard] at ht
  obtain rfl : t = 1 := congrArg Prod.snd (mem_singleton.mp ht)
  rw [httl] at hle
  exact absurd hle (by decide)

/-- Crawling keeps no device alive, in every run in which the rows that the engines take from each
other say when the device was last seen. -/
theorem mortal_of_dated {ι : Type} [DecidableEq ι] (cbor : Codec) (hlawful : cbor.Lawful)
    (verify : Announce → Bool) (deviceId : ι → List.Vector UInt8 16)
    (replyWire : ι → Nat → Option Bytes) (ops : List (Int × NetOp ι))
    (hrun : Runs.Along (Net.step cbor verify) (fun s op => Clocked s op ∧ Dated cbor verify s op)
      (.new deviceId replyWire) ops) :
    Mortal (Runs.exec (Net.step cbor verify) (.new deviceId replyWire) ops) := by
  have hinv : NetInv cbor (Runs.exec (Net.step cbor verify) (.new deviceId replyWire) ops) :=
    Runs.Along.invariant (fun _ op h hok => h.step hlawful op hok) (.new deviceId replyWire) hrun
  exact hinv.mortal

/-- The same row with an age. -/
def datedTwice : List (Int × NetOp Bool) :=
  [(10, .input false (.crawled (replicate 8 9) { signedRow nan with ageMs := some 5 })),
    (100, .transfer false true (replicate 8 9) [] false true 0)]

theorem dated_row_mortal :
    Mortal (Runs.exec (Net.step minimal fun _ => true) twoEngines datedTwice) ∧
      ((Runs.exec (Net.step minimal fun _ => true) twoEngines datedTwice).engines
        true).inventory.devices.entries.map
        (fun entry => (entry.1, entry.2.lastSeenMs)) = [([48, 55], 5)] := by
  refine ⟨mortal_of_dated minimal minimal_lawful (fun _ => true) _ _ datedTwice
    ⟨⟨⟨show (0 : Int) ≤ 10 by decide, show (10 : Int) ≤ i64Max by decide⟩, trivial⟩,
      ⟨⟨show (10 : Int) ≤ 100 by decide, show (100 : Int) ≤ i64Max by decide⟩, ?_⟩, trivial⟩,
        by decide +kernel⟩
  intro row announce hrow _
  have hdated : (((Runs.exec (Net.step minimal fun _ => true) twoEngines
      (datedTwice.take 1)).engines
      false).transferred minimal 100 [] false true 0).all (fun row => row.lastSeenMs.isSome) =
        true := by
    decide +kernel
  rw [show ((Runs.exec (Net.step minimal fun _ => true) twoEngines (datedTwice.take 1)).engines
    false).transferred minimal 100 [] false true 0 = some row from hrow] at hdated
  exact .inl hdated

end QuicLite.Discovery
