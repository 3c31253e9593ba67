import QuicLite.Discovery.Effects
import QuicLite.Discovery.Lossless
import QuicLite.Lib.Runs

/-!
# Discovery provenance

Three entry points update a device: announces, sightings and rows of other observers. An `Observer`
is an engine with the log of what was recorded where, which the engine itself does not keep.
Signature verification is an arbitrary predicate.
-/

namespace QuicLite.Discovery

open Cbor List Option Bool Engine AList Runs

/-! ## Runs -/

variable {announce : Announce} {facts : Option DiscoveryFacts}

inductive Source where
  | direct
  | imported
deriving DecidableEq, Repr

inductive Input where
  | datagram (carrier : Carrier) (bytes : Bytes)
  | announce (carrier : Carrier) (announce : Announce) (payload : Bytes)
  | provisional (carrier : Carrier) (id : Text) (payload : Bytes)
  | crawled (via : Bytes) (row : Observation)
  | devices
  | expectResponse (id : Nat)
  | forgetResponse (id : Nat)

structure Entry where
  key : NodeKey
  bearer : Text
  source : Source
deriving DecidableEq, Repr

/-- The latest event that was recorded for a device on a bearer. -/
def latest (log : List Entry) (key : NodeKey) (bearer : Text) : Option Source :=
  ((log.filter fun entry => entry.key == key && entry.bearer == bearer).getLast?).map Entry.source

structure Observer where
  engine : Engine
  clock : Int
  log : List Entry

namespace Observer

def new (deviceId : List.Vector UInt8 16) (replyWire : Nat → Option Bytes) : Observer :=
  ⟨.new deviceId replyWire, 0, []⟩

def record (bearer : Text) (source : Source) (key : Option NodeKey) : List Entry :=
  (key.map fun key => ⟨key, bearer, source⟩).toList

/-- An input at a time. -/
def step (cbor : Codec) (verify : Announce → Bool) (self : Observer) (op : Int × Input) :
    Observer :=
  let nowMs := op.1
  match op.2 with
  | .datagram carrier bytes =>
    let received := self.engine.onDatagram cbor verify nowMs carrier bytes
    ⟨received.1, nowMs, self.log ++ record carrier.bearer .direct received.2.recorded⟩
  | .announce carrier announce payload =>
    let received := self.engine.observeAnnounce cbor verify nowMs carrier announce payload
    ⟨received.1, nowMs, self.log ++ record carrier.bearer .direct received.2.recorded⟩
  | .provisional carrier id payload =>
    ⟨(self.engine.observeProvisional nowMs carrier id payload).1, nowMs,
      self.log ++ record carrier.bearer .direct (some (toAsciiLowercase id))⟩
  | .crawled via row =>
    let imported := self.engine.observeCrawled cbor verify nowMs via row
    ⟨imported.1, nowMs, self.log ++ if imported.2 then
      record row.bearer .imported ((decodeAnnounce cbor row.record).map fun announce =>
        hex announce.deviceId.used)
    else []⟩
  | .devices => ⟨self.engine.devices nowMs, nowMs, self.log⟩
  | .expectResponse id => ⟨self.engine.expectResponse id, nowMs, self.log⟩
  | .forgetResponse id => ⟨self.engine.forgetResponse id, nowMs, self.log⟩

end Observer

open Observer

/-! ## The specification -/

section Spec

variable (cbor : Codec) (verify : Announce → Bool)

/-- The announce is the device's own, with a verified identity, and the record is where it was
read. -/
structure Authentic (device : Device) (announce : Announce) : Prop where
  identity : announce.hasIdentity = true
  verified : verify announce = true
  id : hex announce.deviceId.used = device.id
  record : ∀ record, device.record = some record → decodeAnnounce cbor record = some announce

/-- The announce in an input. -/
def Input.announced : Input → Option Announce
  | .datagram _ bytes => decodeAnnounce cbor bytes
  | .announce _ decoded _ => some decoded
  | .crawled _ row => decodeAnnounce cbor row.record
  | .provisional _ _ _ | .devices | .expectResponse _ | .forgetResponse _ => none

def Input.Verified (input : Input) : Prop :=
  ∃ announce, input.announced cbor = some announce ∧ announce.hasIdentity = true ∧
    verify announce = true

/-- What was verified of the devices that have not expired is there still. -/
def KeepsAuthentic (before after : Engine) (nowMs : Int) : Prop :=
  ∀ key device, (before.inventory.prune nowMs).get key = some device → device.authenticated = true →
    ∃ kept, after.inventory.get key = some kept ∧ kept.announce = device.announce ∧
      kept.record = device.record ∧
      kept.authenticated = true

def Engine.observation (self : Engine) (key : NodeKey) (bearer : Text) :
    Option DiscoveryObservation :=
  (self.inventory.get key).bind fun device => device.observations.lookup bearer

/-- What was seen directly is unchanged, or expired and gone. -/
def KeepsDirect (before : Observer) (after : Engine) (nowMs : Int) : Prop :=
  ∀ key bearer observation, before.engine.observation key bearer = some observation →
    latest before.log key bearer = some .direct → after.observation key bearer = some observation ∨
        (after.observation key bearer = none ∧
          before.engine.inventory.ttlMs < satSub64 nowMs observation.lastSeenMs)

/-- Provenance is sound in a state, and stays so whatever comes next. -/
structure Sound (s : Observer) : Prop where
  authentic : ∀ key device, s.engine.inventory.get key = some device → device.authenticated = true →
    device.id = key ∧ ∃ announce, device.announce = some announce ∧
      Authentic cbor verify device announce
  crawled : ∀ key device bearer, s.engine.inventory.get key = some device →
    ((device.crawledVia.lookup bearer).isSome = true ↔
      (device.observations.lookup bearer).isSome = true ∧ latest s.log key bearer = some .imported)
  unverified : ∀ nowMs input, s.clock ≤ nowMs → ¬ input.Verified cbor verify →
    KeepsAuthentic s.engine (s.step cbor verify (nowMs, input)).engine nowMs
  imports : ∀ nowMs via row, s.clock ≤ nowMs →
    (s.step cbor verify (nowMs, .crawled via row)).engine.waiters = s.engine.waiters ∧
      (s.step cbor verify (nowMs, .crawled via row)).engine.delivered = s.engine.delivered ∧
        KeepsDirect s (s.step cbor verify (nowMs, .crawled via row)).engine nowMs

/-- The clock does not go back. -/
def Timed (s : Observer) (op : Int × Input) : Prop := s.clock ≤ op.1

/-- No identifier is sighted on a bearer on which its device was crawled, and an announce that an
adapter has decoded is what its payload or its encoding decodes to. -/
def Attested (s : Observer) (op : Int × Input) : Prop :=
  match op.2 with
  | .provisional carrier id _ =>
    ∀ device, (s.engine.inventory.prune op.1).get (toAsciiLowercase id) = some device →
      device.crawledVia.lookup carrier.bearer = none
  | .announce _ announce payload => announce.hasIdentity = true → verify announce = true →
      s.engine.isOwn announce = false → decodeAnnounce cbor payload = some announce ∨
        ∀ record, encode cbor 512 announce = some record →
          decodeAnnounce cbor record = some announce
  | .datagram _ _ | .crawled _ _ | .devices | .expectResponse _ | .forgetResponse _ => True

end Spec

/-! ## The log -/

section Log

variable {log : List Entry} {entry : Entry} {key : NodeKey} {bearer : Text}

theorem latest_append_same (log : List Entry) (key : NodeKey) (bearer : Text) (source : Source) :
    latest (log ++ [⟨key, bearer, source⟩]) key bearer = some source := by
  simp [latest]

theorem latest_append_other (h : entry.key ≠ key ∨ entry.bearer ≠ bearer) :
    latest (log ++ [entry]) key bearer = latest log key bearer := by
  have hfilter : ([entry].filter fun entry => entry.key == key && entry.bearer == bearer) = [] := by
    rcases h with h | h <;> simp [h]
  rw [latest, filter_append, hfilter, append_nil, latest]

end Log

/-! ## The invariant of a device -/

section Invariant

variable (cbor : Codec) (verify : Announce → Bool)

/-- What holds of the device under a key. -/
structure Kept (log : List Entry) (key : NodeKey) (clock : Int) (device : Device) : Prop where
  id : device.id = key
  authentic : device.authenticated = true → ∃ announce, device.announce = some announce ∧
    Authentic cbor verify device announce
  crawled : ∀ bearer, (device.crawledVia.lookup bearer).isSome = true ↔
    (device.observations.lookup bearer).isSome = true ∧ latest log key bearer = some .imported
  logged : ∀ bearer, (device.observations.lookup bearer).isSome = true →
    (latest log key bearer).isSome = true
  newest : ∀ bearer observation, device.observations.lookup bearer = some observation →
    observation.lastSeenMs ≤ device.lastSeenMs
  clock : device.lastSeenMs ≤ clock

variable {cbor : Codec} {verify : Announce → Bool} {log : List Entry} {key : NodeKey}
    {clock nowMs : Int} {device : Device} {carrier : Carrier} {payload : Bytes}

namespace Kept

theorem new {found : Option Announce} {authenticated : Bool}
    (hfound : authenticated = true → ∃ announce, found = some announce ∧
      announce.hasIdentity = true ∧
      verify announce = true ∧ hex announce.deviceId.used = key) (log : List Entry) (nowMs : Int) :
    Kept cbor verify log key nowMs (.new key found authenticated nowMs) where
  id := rfl
  authentic := by
    intro h
    obtain ⟨announce, hannounce, hidentity, hverified, hid⟩ := hfound h
    exact ⟨announce, hannounce, hidentity, hverified, hid, fun record hrecord => by cases hrecord⟩
  crawled := fun bearer => by simp [Device.new]
  logged := fun bearer h => by simp [Device.new] at h
  newest := fun bearer observation h => by simp [Device.new] at h
  clock := le_rfl

section

variable (h : Kept cbor verify log key clock device)
include h

theorem later (hclock : clock ≤ nowMs) : Kept cbor verify log key nowMs device :=
  ⟨h.id, h.authentic, h.crawled, h.logged, h.newest, h.clock.trans hclock⟩

theorem other {entry : Entry} (hkey : entry.key ≠ key) :
    Kept cbor verify (log ++ [entry]) key clock device := by
  have hlatest : ∀ bearer, latest (log ++ [entry]) key bearer = latest log key bearer :=
    fun bearer => latest_append_other (.inl hkey)
  refine ⟨h.id, h.authentic, fun bearer => ?_, fun bearer => ?_, h.newest, h.clock⟩
  · rw [hlatest]
    exact h.crawled bearer
  · rw [hlatest]
    exact h.logged bearer

/-- A direct event: the bearer's observation is new and nothing says that it was crawled. -/
theorem recorded (hclock : clock ≤ nowMs) {after : Device} (hid : after.id = key)
    (hauthentic : after.authenticated = true → ∃ announce, after.announce = some announce ∧
      Authentic cbor verify after announce)
    (hcrawled : after.crawledVia.lookup carrier.bearer = none)
    (hcrawledOther : ∀ bearer ≠ carrier.bearer,
      after.crawledVia.lookup bearer = device.crawledVia.lookup bearer)
    (hobserved : ∃ observation, after.observations.lookup carrier.bearer = some observation ∧
      observation.lastSeenMs = nowMs) (hother : ∀ bearer ≠ carrier.bearer,
      after.observations.lookup bearer = device.observations.lookup bearer)
    (hlast : after.lastSeenMs = nowMs) :
    Kept cbor verify (log ++ [⟨key, carrier.bearer, .direct⟩]) key nowMs after := by
  obtain ⟨observation, hobservation, hseen⟩ := hobserved
  have hlatest : ∀ bearer ≠ carrier.bearer,
      latest (log ++ [⟨key, carrier.bearer, .direct⟩]) key bearer = latest log key bearer :=
    fun bearer hbearer => latest_append_other (.inr hbearer.symm)
  refine ⟨hid, hauthentic, fun bearer => ?_, fun bearer hsome => ?_, fun bearer found hfound =>
    ?_, hlast.le⟩
  · by_cases hbearer : bearer = carrier.bearer
    · rw [hbearer, hcrawled, latest_append_same]
      simp
    · rw [hcrawledOther bearer hbearer, hother bearer hbearer, hlatest bearer hbearer]
      exact h.crawled bearer
  · by_cases hbearer : bearer = carrier.bearer
    · rw [hbearer, latest_append_same]
      rfl
    rw [hother bearer hbearer] at hsome
    rw [hlatest bearer hbearer]
    exact h.logged bearer hsome
  · rw [hlast]
    by_cases hbearer : bearer = carrier.bearer
    · rw [hbearer, hobservation] at hfound
      obtain rfl := some.inj hfound
      exact hseen.le
    · rw [hother bearer hbearer] at hfound
      exact ((h.newest bearer found hfound).trans h.clock).trans hclock

theorem observe (hclock : clock ≤ nowMs) (hkey : hex announce.deviceId.used = key)
    (hverify : announce.hasIdentity = true → verify announce = true)
    (hrecord : announce.hasIdentity = true → decodeAnnounce cbor payload = some announce ∨
      ∀ record, encode cbor 512 announce = some record →
        decodeAnnounce cbor record = some announce) :
    Kept cbor verify (log ++ [⟨key, carrier.bearer, .direct⟩]) key nowMs
      (device.observe cbor nowMs carrier announce facts announce.hasIdentity payload) := by
  obtain ⟨hid, hcrawled, -⟩ := takeAnnounce_same cbor device announce announce.hasIdentity payload
  refine h.recorded hclock (hid.trans h.id) (fun hauthenticated => ?_) (lookup_erase _ _)
    (fun bearer hbearer => ?_) (observe_same _ _ _ _ _ _ _ _) (fun bearer hbearer => ?_) rfl
  · rcases takeAnnounce_cases cbor device announce announce.hasIdentity payload with ⟨-, hold,
      hsame⟩ | ⟨-, hnew⟩
    · obtain ⟨kept, hkept, hauthentic⟩ := h.authentic hold
      refine ⟨kept, ?_, hauthentic.identity, hauthentic.verified, hauthentic.id.trans hid.symm, ?_⟩
      · exact (congrArg Device.announce hsame).trans hkept
      · intro record hr
        exact hauthentic.record record ((congrArg Device.record hsame).symm.trans hr)
    have hidentity : announce.hasIdentity = true :=
      (congrArg Device.authenticated hnew).symm.trans hauthenticated
    refine ⟨announce, congrArg Device.announce hnew, hidentity, hverify hidentity, ?_,
      fun record hr => ?_⟩
    · exact hkey.trans (h.id.symm.trans hid.symm)
    have hr := (congrArg Device.record hnew).symm.trans hr
    split at hr
    · next hdecoded => exact some.inj hr ▸ hdecoded
    · next hne => exact ((hrecord hidentity).resolve_left hne) record hr
  · show (erase carrier.bearer (device.takeAnnounce cbor announce _ payload).crawledVia).lookup
      bearer = _
    rw [lookup_erase_ne hbearer, hcrawled]
  · exact observe_other hbearer

theorem sight (hclock : clock ≤ nowMs) (hcrawled : device.crawledVia.lookup carrier.bearer = none) :
    Kept cbor verify (log ++ [⟨key, carrier.bearer, .direct⟩])
      key nowMs (device.sight nowMs carrier payload) :=
  h.recorded hclock h.id
    (fun hauthenticated => by
      obtain ⟨announce, hannounce, hauthentic⟩ := h.authentic hauthenticated
      exact ⟨announce, hannounce, hauthentic.identity, hauthentic.verified, hauthentic.id,
        hauthentic.record⟩)
    hcrawled (fun _ _ => rfl) (recordObservation_same _ _ _ _) (fun _ hbearer =>
      recordObservation_other hbearer) rfl

end

/-- The observation that was just recorded turns out to be an imported one. -/
theorem imported {bearer : Text}
    (h : Kept cbor verify (log ++ [⟨key, bearer, .direct⟩]) key nowMs device)
    {row : DiscoveryObservation} (hrow : device.observations.lookup bearer = some row)
    (hlast : device.lastSeenMs = nowMs) (hnow : 0 ≤ nowMs) (via : Bytes) {lastSeen : Option Int}
    (hseen : ∀ t, lastSeen = some t → t ≤ nowMs) :
    Kept cbor verify (log ++ [⟨key, bearer, .imported⟩])
      key nowMs (device.setCrawled bearer via lastSeen) := by
  obtain ⟨hid, hannounce, hrecord, hauthenticated, hcrawled, hobservations⟩ :=
    setCrawled_eq hrow via lastSeen
  obtain ⟨hsome, hnone⟩ := setCrawled_lastSeenMs hrow via lastSeen
  have hlatest : ∀ other ≠ bearer, ∀ source, latest (log ++ [⟨key, bearer, source⟩]) key other =
      latest log key other :=
    fun other hother source => latest_append_other (.inr hother.symm)
  have hfound : ∀ other found, (device.setCrawled bearer via lastSeen).observations.lookup other =
      some found →
      found.lastSeenMs ≤ nowMs := by
    intro other found hfound
    rw [hobservations] at hfound
    rcases Table.lookup_insert_cases hfound with ⟨-, rfl⟩ | ⟨-, hold⟩
    · cases lastSeen with
      | none => exact hnow
      | some t => exact hseen t rfl
    · exact hlast ▸ h.newest other found hold
  have hinsert : (device.setCrawled bearer via lastSeen).observations.lookup bearer =
      some { row with lastSeenMs := lastSeen.getD 0 } := by
    rw [hobservations, lookup_insert]
  refine ⟨hid.trans h.id, fun hauth => ?_, fun other => ?_, fun other =>
    ?_, fun other found hother => ?_, ?_⟩
  · obtain ⟨announce, hold, hauthentic⟩ := h.authentic (hauthenticated.symm.trans hauth)
    exact ⟨announce, hannounce.trans hold, hauthentic.identity, hauthentic.verified,
      hauthentic.id.trans hid.symm, fun record hr =>
      hauthentic.record record (hrecord.symm.trans hr)⟩
  · rw [hcrawled, hobservations]
    by_cases hbearer : other = bearer
    · rw [hbearer, latest_append_same]
      simp
    rw [lookup_insert_ne hbearer, lookup_insert_ne hbearer, hlatest other hbearer]
    have hold := h.crawled other
    rwa [hlatest other hbearer] at hold
  · rw [hobservations]
    by_cases hbearer : other = bearer
    · rw [hbearer, latest_append_same]
      exact fun _ => rfl
    rw [lookup_insert_ne hbearer, hlatest other hbearer]
    have hold := h.logged other
    rwa [hlatest other hbearer] at hold
  · cases lastSeen with
    | none =>
      rw [hnone rfl, hlast]
      exact hfound other found hother
    | some t =>
      obtain ⟨newest, hnewest, hle, -⟩ := newestMs_of_lookup hinsert
      have heq := some.inj (hnewest.symm.trans (hsome rfl))
      exact heq ▸ hle other found hother
  · cases lastSeen with
    | none => exact (hnone rfl).trans_le (hlast.le)
    | some t =>
      obtain ⟨newest, hnewest, -, other, found, hother, hmax⟩ := newestMs_of_lookup hinsert
      have heq := some.inj (hnewest.symm.trans (hsome rfl))
      rw [← heq, ← hmax]
      exact hfound other found hother

end Kept

end Invariant

/-! ## The invariant of a run -/

section Run

variable (cbor : Codec) (verify : Announce → Bool)

/-- Every device is what the log says. -/
def AllKept (log : List Entry) (clock : Int) (inventory : Inventory) : Prop :=
  ∀ key device, inventory.get key = some device → Kept cbor verify log key clock device

structure ObserverInv (s : Observer) : Prop where
  kept : AllKept cbor verify s.log s.clock s.engine.inventory
  clock : 0 ≤ s.clock

variable {cbor : Codec} {verify : Announce → Bool} {log : List Entry} {clock nowMs : Int}
    {inventory : Inventory} {carrier : Carrier} {payload : Bytes}

namespace AllKept

section

variable (h : AllKept cbor verify log clock inventory)
include h

section

variable (hclock : clock ≤ nowMs)
include hclock

theorem prune : AllKept cbor verify log nowMs (inventory.prune nowMs) :=
  fun key device hget => (h key device (get_prune.mp hget).1).later hclock

theorem base {key : NodeKey} {fresh : Device} (hfresh : Kept cbor verify log key nowMs fresh) :
    Kept cbor verify log key nowMs (base inventory nowMs key fresh) := by
  unfold Discovery.base
  cases hget : (inventory.prune nowMs).get key with
  | none => exact hfresh
  | some device => exact h.prune hclock key device hget

theorem observe (hverify : announce.hasIdentity = true → verify announce = true)
    (hrecord : announce.hasIdentity = true → decodeAnnounce cbor payload = some announce ∨
      ∀ record, encode cbor 512 announce = some record →
        decodeAnnounce cbor record = some announce) :
    AllKept cbor verify (log ++ [⟨hex announce.deviceId.used, carrier.bearer, .direct⟩]) nowMs
      (inventory.observe cbor nowMs carrier announce facts announce.hasIdentity payload).1 := by
  intro key device hget
  by_cases hkey : key = hex announce.deviceId.used
  · rw [hkey, get_observe_same] at hget
    obtain rfl := some.inj hget
    rw [hkey]
    refine .observe (h.base hclock (.new (fun hidentity => ?_) log nowMs)) le_rfl rfl
      hverify hrecord
    exact ⟨announce, rfl, hidentity, hverify hidentity, rfl⟩
  · rw [get_observe_other hkey] at hget
    exact (h.prune hclock key device hget).other fun hsame => hkey hsame.symm

theorem observeProvisional {id : Text}
    (hcrawled : ∀ device, (inventory.prune nowMs).get (toAsciiLowercase id) = some device →
      device.crawledVia.lookup carrier.bearer = none) :
    AllKept cbor verify (log ++ [⟨toAsciiLowercase id, carrier.bearer, .direct⟩]) nowMs
      (inventory.observeProvisional nowMs carrier id payload).1 := by
  intro key device hget
  by_cases hkey : key = toAsciiLowercase id
  · rw [hkey, get_observeProvisional_same] at hget
    obtain rfl := some.inj hget
    rw [hkey]
    refine .sight (h.base hclock (.new (fun hfalse => absurd hfalse false_ne_true) log nowMs))
      le_rfl ?_
    unfold Discovery.base
    cases hbase : (inventory.prune nowMs).get (toAsciiLowercase id) with
    | none => exact lookup_empty _
    | some device => exact hcrawled device hbase
  · rw [get_observeProvisional_other hkey] at hget
    exact (h.prune hclock key device hget).other fun hsame => hkey hsame.symm

/-- An import is an event that is recorded and then marked. -/
theorem imported (hnow : 0 ≤ nowMs) {row : Observation} (hidentity : announce.hasIdentity = true)
    (hverify : verify announce = true) (hdecoded : decodeAnnounce cbor row.record = some announce)
    (via : Bytes) :
    AllKept cbor verify (log ++ [⟨hex announce.deviceId.used, row.bearer, .imported⟩]) nowMs
      (imported cbor inventory nowMs announce via row) := by
  have hobserve : AllKept cbor verify (log ++ [⟨hex announce.deviceId.used, row.bearer, .direct⟩])
      nowMs
      (inventory.observe cbor nowMs (crawledCarrier row) announce none announce.hasIdentity
        row.record).1 :=
    h.observe hclock (fun _ => hverify) (fun _ => .inl hdecoded)
  rw [hidentity] at hobserve
  intro key device hget
  by_cases hkey : key = hex announce.deviceId.used
  · rw [hkey, get_imported_same] at hget
    obtain rfl := some.inj hget
    rw [hkey]
    obtain ⟨found, hfound, -⟩ :=
      observe_same (Discovery.base inventory nowMs (hex announce.deviceId.used)
      (.new (hex announce.deviceId.used) (some announce) true nowMs)) cbor nowMs
        (crawledCarrier row) announce none
        true row.record
    exact (hobserve _ _ get_observe_same).imported hfound rfl hnow _ fun t ht =>
      crawledSeen_le hnow ht
  · rw [get_imported_other _ _ _ _ _ _ hkey] at hget
    exact (h.prune hclock key device hget).other fun hsame => hkey hsame.symm

end

end

end AllKept

namespace ObserverInv

theorem new (deviceId : List.Vector UInt8 16) (replyWire : Nat → Option Bytes) :
    ObserverInv cbor verify (.new deviceId replyWire) where
  kept := fun key device hget => by cases (lookup_empty (β := fun _ => Device) key).symm.trans hget
  clock := le_rfl

variable {s : Observer}

theorem announced (h : ObserverInv cbor verify s) (hclock : s.clock ≤ nowMs) {replyId : Option Nat}
    (hrecord : announce.hasIdentity = true → verify announce = true →
      s.engine.isOwn announce = false →
      decodeAnnounce cbor payload = some announce ∨
        ∀ record, encode cbor 512 announce = some record →
          decodeAnnounce cbor record = some announce) : ObserverInv cbor verify
      ⟨(s.engine.observeAnnounceWith cbor verify nowMs carrier announce facts replyId payload).1,
        nowMs, s.log ++ record carrier.bearer .direct
          (s.engine.observeAnnounceWith cbor verify nowMs carrier announce facts replyId
            payload).2.recorded⟩ := by
  refine ⟨?_, h.clock.trans hclock⟩
  rcases observeAnnounceWith_cases cbor verify s.engine nowMs carrier announce facts replyId
    payload with
      ⟨hsame, hnone⟩ | ⟨hverified, hown, hinventory, hrecorded⟩
  · rw [hsame, hnone]
    show AllKept cbor verify (s.log ++ []) nowMs s.engine.inventory
    rw [append_nil]
    exact fun key device hget => (h.kept key device hget).later hclock
  have hverify : announce.hasIdentity = true → verify announce = true := by
    intro hidentity
    rw [verifyIdentity, hidentity] at hverified
    simpa using hverified
  have hobserve : AllKept cbor verify
      (s.log ++ [⟨hex announce.deviceId.used, carrier.bearer, .direct⟩]) nowMs
      (s.engine.inventory.observe cbor nowMs carrier announce facts announce.hasIdentity
        payload).1 :=
    h.kept.observe hclock hverify fun hidentity => hrecord hidentity (hverify hidentity) hown
  rw [hinventory]
  rcases hrecorded with hkey | ⟨device, hget, hkey⟩
  · rw [hkey]
    exact hobserve
  · rw [hkey, (hobserve _ device hget).id]
    exact hobserve

theorem step (h : ObserverInv cbor verify s) (op : Int × Input)
    (hok : Timed s op ∧ Attested cbor verify s op) :
    ObserverInv cbor verify (s.step cbor verify op) := by
  obtain ⟨nowMs, input⟩ := op
  obtain ⟨hclock, hattested⟩ := hok
  have hnow : 0 ≤ nowMs := h.clock.trans hclock
  cases input with
  | datagram carrier bytes =>
    show ObserverInv cbor verify ⟨(s.engine.onDatagram cbor verify nowMs carrier bytes).1, nowMs,
      s.log ++ record carrier.bearer .direct
        (s.engine.onDatagram cbor verify nowMs carrier bytes).2.recorded⟩
    rcases onDatagram_cases cbor verify s.engine nowMs carrier bytes with
        ⟨hsame, hnone⟩ | ⟨announce, facts, replyId, hdecoded, hsame⟩
    · rw [hsame, hnone]
      refine ⟨?_, hnow⟩
      show AllKept cbor verify (s.log ++ []) nowMs s.engine.inventory
      rw [append_nil]
      exact fun key device hget => (h.kept key device hget).later hclock
    · rw [hsame]
      exact h.announced hclock fun _ _ _ => .inl hdecoded
  | announce carrier decoded payload => exact h.announced hclock hattested
  | provisional carrier id payload => exact ⟨h.kept.observeProvisional hclock hattested, hnow⟩
  | crawled via row =>
    refine ⟨?_, hnow⟩
    show AllKept cbor verify
      (s.log ++ if (s.engine.observeCrawled cbor verify nowMs via row).2 = true then _ else [])
      nowMs (s.engine.observeCrawled cbor verify nowMs via row).1.inventory
    rcases observeCrawled_cases cbor verify s.engine nowMs via row with
        hsame | ⟨announce, ⟨hdecoded, hidentity, hverify, -, -, -⟩, hsame⟩
    · rw [hsame, if_neg Bool.false_ne_true, append_nil]
      exact fun key device hget => (h.kept key device hget).later hclock
    · rw [hsame, hdecoded]
      exact (h.kept.imported hclock hnow hidentity hverify hdecoded via).prune le_rfl
  | devices => exact ⟨h.kept.prune hclock, hnow⟩
  | expectResponse id => exact ⟨fun key device hget => (h.kept key device hget).later hclock, hnow⟩
  | forgetResponse id => exact ⟨fun key device hget => (h.kept key device hget).later hclock, hnow⟩

theorem unverified (s : Observer) {input : Input} (hinput : ¬ input.Verified cbor verify) :
    KeepsAuthentic s.engine (s.step cbor verify (nowMs, input)).engine nowMs := by
  have hpruned : ∀ {engine : Engine}, engine.inventory = s.engine.inventory →
      KeepsAuthentic s.engine engine nowMs := by
    intro engine hsame key device hget hauthenticated
    exact ⟨device, hsame ▸ (get_prune.mp hget).1, rfl, rfl, hauthenticated⟩
  have hannounced : ∀ carrier announce facts replyId payload, input.announced cbor = some announce →
      KeepsAuthentic s.engine
        (s.engine.observeAnnounceWith cbor verify nowMs carrier announce facts replyId payload).1
          nowMs := by
    intro carrier announce facts replyId payload hannounce
    rcases observeAnnounceWith_cases cbor verify s.engine nowMs carrier announce facts replyId
      payload with
        ⟨hsame, -⟩ | ⟨hverified, -, hinventory, -⟩
    · exact hpruned (congrArg inventory hsame)
    have hplain : announce.hasIdentity = false := by
      by_contra hidentity
      rw [not_eq_false] at hidentity
      rw [verifyIdentity, hidentity] at hverified
      exact hinput ⟨announce, hannounce, hidentity, by simpa using hverified⟩
    intro key device hget hauthenticated
    rw [hinventory]
    by_cases hkey : key = hex announce.deviceId.used
    · subst hkey
      refine ⟨_, get_observe_same, ?_⟩
      rw [base_of_get hget, hplain]
      exact observe_unverified hauthenticated
    · exact ⟨device, (get_observe_other hkey).trans hget, rfl, rfl, hauthenticated⟩
  cases input with
  | datagram carrier bytes =>
    show KeepsAuthentic s.engine (s.engine.onDatagram cbor verify nowMs carrier bytes).1 nowMs
    rcases onDatagram_cases cbor verify s.engine nowMs carrier bytes with
        ⟨hsame, -⟩ | ⟨announce, facts, replyId, hdecoded, hsame⟩
    · exact hpruned (congrArg inventory hsame)
    · rw [hsame]
      exact hannounced carrier announce facts replyId bytes hdecoded
  | announce carrier decoded payload => exact hannounced carrier decoded none none payload rfl
  | provisional carrier id payload =>
    intro key device hget hauthenticated
    show ∃ kept, (s.engine.inventory.observeProvisional nowMs carrier id payload).1.get key =
      some kept ∧ _
    by_cases hkey : key = toAsciiLowercase id
    · subst hkey
      refine ⟨_, get_observeProvisional_same id, ?_⟩
      rw [base_of_get hget]
      exact ⟨rfl, rfl, hauthenticated⟩
    · exact ⟨device, (get_observeProvisional_other hkey).trans hget, rfl, rfl, hauthenticated⟩
  | crawled via row =>
    show KeepsAuthentic s.engine (s.engine.observeCrawled cbor verify nowMs via row).1 nowMs
    rcases observeCrawled_cases cbor verify s.engine nowMs via row with
        hsame | ⟨announce, ⟨hdecoded, hidentity, hverify, -, -, -⟩, -⟩
    · exact hpruned (congrArg (fun result => result.1.inventory) hsame)
    · exact absurd ⟨announce, hdecoded, hidentity, hverify⟩ hinput
  | devices => exact fun key device hget hauthenticated => ⟨device, hget, rfl, rfl, hauthenticated⟩
  | expectResponse id => exact hpruned rfl
  | forgetResponse id => exact hpruned rfl

theorem imports (h : ObserverInv cbor verify s) (hclock : s.clock ≤ nowMs) (via : Bytes)
    (row : Observation) :
    KeepsDirect s (s.engine.observeCrawled cbor verify nowMs via row).1 nowMs := by
  intro key bearer observation hobservation hdirect
  obtain ⟨device, hget, hlookup⟩ := bind_eq_some_iff.mp hobservation
  have hkept := h.kept key device hget
  rcases observeCrawled_cases cbor verify s.engine nowMs via row with
      hsame | ⟨announce, ⟨hdecoded, hidentity, hverify, -, -, hseen⟩, hsame⟩
  · rw [hsame]
    exact .inl hobservation
  have hexpired : ∀ {other : Device}, observation.lastSeenMs ≤ other.lastSeenMs →
      ¬ satSub64 nowMs other.lastSeenMs ≤ s.engine.inventory.ttlMs →
        s.engine.inventory.ttlMs < satSub64 nowMs observation.lastSeenMs := fun hle hold =>
    (not_le.mp hold).trans_le (satSub64_le hle)
  have hold := hkept.newest bearer observation hlookup
  have hfinal := h.kept.imported hclock (h.clock.trans hclock) hidentity hverify hdecoded via
  rw [hsame]
  by_cases hkey : key = hex announce.deviceId.used
  · subst hkey
    have hbearer : bearer ≠ row.bearer := by
      rintro rfl
      have hcrawled : ¬ (device.crawledVia.lookup row.bearer).isSome = true := by
        rw [hkept.crawled, hdirect]
        simp
      rw [seenDirectly, hget] at hseen
      simp [hlookup, hcrawled] at hseen
    have hother := importedDevice_other cbor s.engine.inventory nowMs announce via row hbearer
    by_cases hfresh : satSub64 nowMs device.lastSeenMs ≤ s.engine.inventory.ttlMs
    · rw [base_of_get (get_prune.mpr ⟨hget, hfresh⟩), hlookup] at hother
      have hnewest := (hfinal _ _ (get_imported_same ..)).newest bearer observation hother
      by_cases hyoung : satSub64 nowMs
        (importedDevice cbor s.engine.inventory nowMs announce via row).lastSeenMs ≤
          s.engine.inventory.ttlMs
      · refine .inl (bind_eq_some_iff.mpr ⟨_, get_prune.mpr ⟨get_imported_same .., ?_⟩, hother⟩)
        rw [ttlMs_imported]
        exact hyoung
      refine .inr ⟨bind_eq_none_iff.mpr fun found hfound => ?_, hexpired hnewest hyoung⟩
      obtain ⟨hsome, hkeep⟩ := get_prune.mp hfound
      rw [get_imported_same] at hsome
      rw [ttlMs_imported, ← some.inj hsome] at hkeep
      exact absurd hkeep hyoung
    · have hnone : (s.engine.inventory.prune nowMs).get (hex announce.deviceId.used) = none := by
        refine eq_none_iff_forall_ne_some.mpr fun found hfound => ?_
        obtain ⟨hsome, hyoung⟩ := get_prune.mp hfound
        rw [hget] at hsome
        exact hfresh (some.inj hsome ▸ hyoung)
      rw [base_of_none hnone] at hother
      refine .inr ⟨bind_eq_none_iff.mpr fun found hfound => ?_, hexpired hold hfresh⟩
      have hsome := (get_prune.mp hfound).1
      rw [get_imported_same] at hsome
      rw [← some.inj hsome, hother]
      exact lookup_empty _
  · have hother := get_imported_other cbor s.engine.inventory nowMs announce via row hkey
    by_cases hfresh : satSub64 nowMs device.lastSeenMs ≤ s.engine.inventory.ttlMs
    · refine .inl (bind_eq_some_iff.mpr ⟨device, get_prune.mpr ⟨?_, ?_⟩, hlookup⟩)
      · rw [hother]
        exact get_prune.mpr ⟨hget, hfresh⟩
      · rw [ttlMs_imported]
        exact hfresh
    refine .inr ⟨bind_eq_none_iff.mpr fun found hfound => ?_, hexpired hold hfresh⟩
    have hpruned := (get_prune.mp hfound).1
    rw [hother] at hpruned
    obtain ⟨hsome, hyoung⟩ := get_prune.mp hpruned
    rw [hget] at hsome
    exact absurd (some.inj hsome ▸ hyoung) hfresh

theorem sound (h : ObserverInv cbor verify s) : Sound cbor verify s where
  authentic := fun key device hget hauthenticated =>
    ⟨(h.kept key device hget).id, (h.kept key device hget).authentic hauthenticated⟩
  crawled := fun key device bearer hget => (h.kept key device hget).crawled bearer
  unverified := fun nowMs input _ hinput => unverified s hinput
  imports := by
    intro nowMs via row hclock
    have hsame : (s.engine.observeCrawled cbor verify nowMs via row).1.waiters = s.engine.waiters ∧
        (s.engine.observeCrawled cbor verify nowMs via row).1.delivered = s.engine.delivered := by
      rcases observeCrawled_cases cbor verify s.engine nowMs via row with hsame |
        ⟨_, -, hsame⟩ <;> rw [hsame] <;>
        exact ⟨rfl, rfl⟩
    exact ⟨hsame.1, hsame.2, h.imports hclock via row⟩

end ObserverInv

end Run

/-! ## The result -/

/-- A signed announce as another observer supplies it. -/
def signedRow (bearer : Text) : Observation :=
  .new ((encode minimal 512 (signedAnnounce 2 (flatSignature 1))).getD []) bearer

def nan : Text := [110, 97, 110]

def ble : Text := [98, 108, 101]

/-- A follow-up without an announce. -/
def followup (bearer : Text) : Carrier := ⟨bearer, [], none, none, none, none, .followup⟩

/-- The device is crawled and then sighted directly on the same bearer. -/
def crawledThenSighted : List (Int × Input) :=
  [(1, .crawled (replicate 8 9) (signedRow nan)), (2, .provisional (followup nan) [48, 55] [])]

/-- A direct sighting leaves the bearer in `crawledVia`. -/
theorem sighting_stays_crawled :
    ¬ ∀ (verify : Announce → Bool) (deviceId : List.Vector UInt8 16) (replyWire : Nat →
      Option Bytes) (ops : List (Int × Input)),
      Along (step minimal verify) Timed (.new deviceId replyWire) ops →
        Sound minimal verify
          (exec (step minimal verify) (.new deviceId replyWire) ops) := by
  intro hall
  have hsound := hall (fun _ => true) (.replicate 16 0) (fun _ => none) crawledThenSighted
    ⟨show (0 : Int) ≤ 1 by decide, show (1 : Int) ≤ 2 by decide, trivial⟩
  generalize hs : exec (step minimal fun _ => true) (.new (.replicate 16 0) fun _ => none)
    crawledThenSighted = s at hsound
  have hcrawled : ((s.engine.inventory.get [48, 55]).bind fun device =>
    device.crawledVia.lookup nan) =
      some (.replicate 8 9) := by
    rw [← hs]
    decide +kernel
  have hlatest : latest s.log [48, 55] nan = some .direct := by
    rw [← hs]
    decide +kernel
  obtain ⟨device, hget, hvia⟩ := bind_eq_some_iff.mp hcrawled
  have himported := ((hsound.crawled _ device nan hget).mp (by rw [hvia]; rfl)).2
  rw [hlatest] at himported
  cases himported

/-- Provenance is sound in every run in which no crawled bearer sights its device by identifier and
every verified announce is what it was decoded from. -/
theorem sound_of_attested (cbor : Codec) (verify : Announce → Bool)
    (deviceId : List.Vector UInt8 16) (replyWire : Nat → Option Bytes) (ops : List (Int × Input))
    (hrun : Along (step cbor verify) (fun s op =>
      Timed s op ∧ Attested cbor verify s op) (.new deviceId replyWire) ops) :
    Sound cbor verify (exec (step cbor verify) (.new deviceId replyWire) ops) := by
  have hinv : ObserverInv cbor verify (exec (.step cbor verify) (.new deviceId replyWire) ops) :=
    Along.invariant (fun _ op h hok => h.step op hok) (.new deviceId replyWire) hrun
  exact hinv.sound

/-- The device is crawled on one bearer, sighted on another, and then heard on the first. -/
def crawledThenHeard : List (Int × Input) :=
  [(1, .crawled (replicate 8 9) (signedRow nan)), (2, .provisional (followup ble) [48, 55] []),
    (3, .announce (followup nan) (signedAnnounce 2 (flatSignature 1)) (signedRow nan).record),
    (4, .crawled (replicate 8 9) (signedRow nan))]

theorem crawled_then_heard_sound : Sound minimal (fun _ => true) (exec (step minimal fun _ => true)
        (.new (List.Vector.replicate 16 0) fun _ => none) crawledThenHeard) ∧
      (exec (step minimal fun _ => true)
        (.new (List.Vector.replicate 16 0) fun _ => none) crawledThenHeard).log =
        [⟨[48, 55], nan, .imported⟩, ⟨[48, 55], ble, .direct⟩, ⟨[48, 55], nan, .direct⟩] := by
  refine ⟨sound_of_attested _ _ _ _ _ ⟨⟨show (0 : Int) ≤ 1 by decide, trivial⟩,
    ⟨show (1 : Int) ≤ 2 by decide, ?_⟩,
    ⟨show (2 : Int) ≤ 3 by decide, fun _ _ _ => .inl (by decide +kernel)⟩,
    ⟨show (3 : Int) ≤ 4 by decide, trivial⟩, trivial⟩, by decide +kernel⟩
  intro device hget
  have hnone : ((((exec (step minimal fun _ => true) (.new (.replicate 16 0) fun _ => none)
      (crawledThenHeard.take 1)).engine.inventory.prune 2).get [48, 55]).all fun found =>
        (found.crawledVia.lookup ble).isNone) = true := by decide +kernel
  rw [show ((exec (step minimal fun _ => true) (.new (.replicate 16 0) fun _ => none)
    (crawledThenHeard.take 1)).engine.inventory.prune 2).get [48, 55] =
      some device from hget] at hnone
  exact isNone_iff_eq_none.mp hnone

end QuicLite.Discovery
