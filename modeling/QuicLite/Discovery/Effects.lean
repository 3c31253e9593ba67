import QuicLite.Discovery.Engine

/-!
# What the engine's inputs do

One lemma for each thing that an input can do to a device, to the inventory and to the engine.
-/

namespace QuicLite.Discovery

open Cbor List Option Engine AList Inventory

/-! ## Times -/

theorem satSub64_le {a b b' : Int} (h : b ≤ b') : satSub64 a b' ≤ satSub64 a b := by
  unfold satSub64
  omega

theorem crawledSeen_le {nowMs : Int} {row : Observation} {t : Int} (hnow : 0 ≤ nowMs)
    (h : crawledSeen nowMs row = some t) :
    t ≤ nowMs := by
  unfold crawledSeen at h
  cases hage : row.ageMs with
  | some age =>
    rw [hage] at h
    have ht : satSub64 nowMs (min (age : Int) i64Max) = t := some.inj h
    unfold satSub64 i64Max at ht
    omega
  | none =>
    rw [hage] at h
    obtain ⟨seen, hseen, ht⟩ := bind_eq_some_iff.mp (show row.lastSeenMs.bind _ = some t from h)
    split at ht
    · obtain rfl := some.inj ht
      exact min_le_right _ _
    · cases ht

/-! ## Devices -/

section DeviceLemmas

variable {cbor : Codec} {device : Device} {nowMs : Int} {carrier : Carrier} {announce : Announce}
  {facts : Option DiscoveryFacts} {authenticated : Bool} {payload : Bytes} {bearer : Text}

section

variable (cbor : Codec) (device : Device) (announce : Announce) (authenticated : Bool)
    (payload : Bytes)

theorem takeAnnounce_cases : (authenticated = false ∧ device.authenticated = true ∧
        device.takeAnnounce cbor announce authenticated payload = device) ∨
      ((authenticated = true ∨ device.authenticated = false) ∧
        device.takeAnnounce cbor announce authenticated payload =
          { device with
            announce := some announce
            record := if decodeAnnounce cbor payload = some announce then
              some payload else encode cbor 512 announce
            authenticated := authenticated }) := by
  unfold Device.takeAnnounce
  cases authenticated <;> cases device.authenticated <;> simp

theorem takeAnnounce_same :
    (device.takeAnnounce cbor announce authenticated payload).id = device.id ∧
      (device.takeAnnounce cbor announce authenticated payload).crawledVia = device.crawledVia ∧
        (device.takeAnnounce cbor announce authenticated payload).observations =
          device.observations := by
  rcases takeAnnounce_cases cbor device announce authenticated payload with ⟨-, -, h⟩ |
    ⟨-, h⟩ <;> rw [h] <;>
    exact ⟨rfl, rfl, rfl⟩

end

/-- An announce that was not verified does not replace one that was. -/
theorem observe_unverified (h : device.authenticated = true) :
    (device.observe cbor nowMs carrier announce facts false payload).announce = device.announce ∧
      (device.observe cbor nowMs carrier announce facts false payload).record = device.record ∧
        (device.observe cbor nowMs carrier announce facts false payload).authenticated = true := by
  rcases takeAnnounce_cases cbor device announce false payload with ⟨-, -, hsame⟩ | ⟨hnew, -⟩
  · show (device.takeAnnounce cbor announce false payload).announce = _ ∧
      (device.takeAnnounce cbor announce false payload).record = _ ∧
        (device.takeAnnounce cbor announce false payload).authenticated = true
    rw [hsame]
    exact ⟨rfl, rfl, h⟩
  · rw [h] at hnew
    exact absurd hnew (by simp)

/-- Another bearer's observation stays. -/
theorem observe_other (h : bearer ≠ carrier.bearer) :
    (device.observe cbor nowMs carrier announce facts authenticated payload).observations.lookup
      bearer =
      device.observations.lookup bearer := by
  show (insert carrier.bearer _
    (device.takeAnnounce cbor announce authenticated payload).observations).lookup bearer = _
  rw [lookup_insert_ne h, (takeAnnounce_same cbor device announce authenticated payload).2.2]

theorem observe_same (device : Device) (cbor : Codec) (nowMs : Int) (carrier : Carrier)
    (announce : Announce) (facts : Option DiscoveryFacts) (authenticated : Bool) (payload : Bytes) :
    ∃ row, (device.observe cbor nowMs carrier announce facts authenticated
      payload).observations.lookup carrier.bearer =
      some row ∧ row.lastSeenMs = nowMs :=
  ⟨_, lookup_insert _, rfl⟩

theorem recordObservation_same (device : Device) (nowMs : Int) (carrier : Carrier)
    (payload : Bytes) :
    ∃ observation, (device.recordObservation nowMs carrier payload).observations.lookup
      carrier.bearer = some observation ∧
      observation.lastSeenMs = nowMs :=
  ⟨_, lookup_insert _, rfl⟩

theorem recordObservation_other (h : bearer ≠ carrier.bearer) :
    (device.recordObservation nowMs carrier payload).observations.lookup bearer =
      device.observations.lookup bearer :=
  lookup_insert_ne h

/-- The newest observation is one of them. -/
theorem newestMs_of_lookup {observation : DiscoveryObservation}
    (h : device.observations.lookup bearer = some observation) :
    ∃ newest, device.newestMs = some newest ∧
      (∀ other found, device.observations.lookup other = some found → found.lastSeenMs ≤ newest) ∧
        ∃ other found, device.observations.lookup other = some found ∧
          found.lastSeenMs = newest := by
  have hmem : ∀ {other : Text} {found : DiscoveryObservation},
      device.observations.lookup other = some found →
      found.lastSeenMs ∈ device.observations.entries.map fun entry => entry.2.lastSeenMs :=
    fun hfound => mem_map.mpr ⟨_, mem_lookup_iff.mp hfound, rfl⟩
  cases hnewest : device.newestMs with
  | none =>
    have hnil := max?_eq_none_iff.mp hnewest
    rw [map_eq_nil_iff] at hnil
    have hentry := mem_lookup_iff.mp h
    rw [hnil] at hentry
    cases hentry
  | some newest =>
    obtain ⟨hin, hle⟩ := max?_eq_some_iff.mp hnewest
    obtain ⟨entry, hentry, hseen⟩ := mem_map.mp hin
    exact ⟨newest, rfl, fun other found hfound => hle _ (hmem hfound), entry.1, entry.2,
      mem_lookup_iff.mpr hentry, hseen⟩

section

variable {row : DiscoveryObservation} (h : device.observations.lookup bearer = some row)
    (via : Bytes) (lastSeen : Option Int)
include h

theorem setCrawled_eq : (device.setCrawled bearer via lastSeen).id = device.id ∧
      (device.setCrawled bearer via lastSeen).announce = device.announce ∧
      (device.setCrawled bearer via lastSeen).record = device.record ∧
      (device.setCrawled bearer via lastSeen).authenticated = device.authenticated ∧
      (device.setCrawled bearer via lastSeen).crawledVia = device.crawledVia.insert bearer via ∧
      (device.setCrawled bearer via lastSeen).observations =
        device.observations.insert bearer { row with lastSeenMs := lastSeen.getD 0 } := by
  have hmarked : (device.markCrawled bearer via (lastSeen.getD 0)).observations =
      device.observations.insert bearer { row with lastSeenMs := lastSeen.getD 0 } := by
    unfold Device.markCrawled
    rw [h]
  unfold Device.setCrawled
  split
  · exact ⟨rfl, rfl, rfl, rfl, rfl, hmarked⟩
  · exact ⟨rfl, rfl, rfl, rfl, rfl, hmarked⟩

/-- The device is as old as its newest observation, or was seen just now. -/
theorem setCrawled_lastSeenMs :
    (lastSeen.isSome = true → (device.setCrawled bearer via lastSeen).newestMs =
        some (device.setCrawled bearer via lastSeen).lastSeenMs) ∧
      (lastSeen = none → (device.setCrawled bearer via lastSeen).lastSeenMs =
        device.lastSeenMs) := by
  have hinsert : (device.setCrawled bearer via lastSeen).observations.lookup bearer =
      some { row with lastSeenMs := lastSeen.getD 0 } := by
    rw [(setCrawled_eq h via lastSeen).2.2.2.2.2, lookup_insert]
  obtain ⟨newest, hnewest, -, -⟩ := newestMs_of_lookup hinsert
  cases lastSeen with
  | some t =>
    refine ⟨fun _ => hnewest.trans (congrArg some ?_), fun h => by cases h⟩
    have hmarked : (device.markCrawled bearer via t).newestMs = some newest := hnewest
    show newest = (device.markCrawled bearer via t).newestMs.getD _
    rw [hmarked]
    rfl
  | none => exact ⟨fun h => (by cases h), fun _ => rfl⟩

end

end DeviceLemmas

/-! ## The inventory -/

section Lookups

variable {cbor : Codec} {inventory : Inventory} {nowMs : Int} {carrier : Carrier}
    {announce : Announce} {facts : Option DiscoveryFacts} {authenticated : Bool} {payload : Bytes}
    {key : NodeKey} {device : Device}
variable {fresh : Device}

theorem get_prune : (inventory.prune nowMs).get key = some device ↔
    inventory.get key = some device ∧ satSub64 nowMs device.lastSeenMs ≤ inventory.ttlMs := by
  rw [Inventory.get, Inventory.prune, Table.lookup_retain_eq_some, Inventory.fresh,
    decide_eq_true_iff]
  rfl

/-- The device that an event is recorded for: the one that has not expired, or a new one. -/
def base (inventory : Inventory) (nowMs : Int) (key : NodeKey) (fresh : Device) : Device :=
  ((inventory.prune nowMs).get key).getD fresh

theorem base_of_get (h : (inventory.prune nowMs).get key = some device) :
    base inventory nowMs key fresh = device := by
  rw [base, h]
  rfl

theorem base_of_none (h : (inventory.prune nowMs).get key = none) :
    base inventory nowMs key fresh = fresh := by
  rw [base, h]
  rfl

theorem get_observe_same :
    (inventory.observe cbor nowMs carrier announce facts authenticated payload).1.get
    (hex announce.deviceId.used) = some ((base inventory nowMs (hex announce.deviceId.used)
        (.new (hex announce.deviceId.used) (some announce) authenticated nowMs)).observe cbor nowMs
          carrier announce facts authenticated payload) :=
  lookup_insert _

theorem get_observe_other (h : key ≠ hex announce.deviceId.used) :
    (inventory.observe cbor nowMs carrier announce facts authenticated payload).1.get key =
      (inventory.prune nowMs).get key :=
  lookup_insert_ne h

theorem get_observeProvisional_same (id : Text) :
    (inventory.observeProvisional nowMs carrier id payload).1.get (toAsciiLowercase id) =
      some ((base inventory nowMs (toAsciiLowercase id)
        (.new (toAsciiLowercase id) none false nowMs)).sight nowMs carrier payload) :=
  lookup_insert _

theorem get_observeProvisional_other {id : Text} (h : key ≠ toAsciiLowercase id) :
    (inventory.observeProvisional nowMs carrier id payload).1.get key =
      (inventory.prune nowMs).get key :=
  lookup_insert_ne h

theorem get_setCrawledSource_same (h : inventory.get key = some device) (bearer : Text)
    (via : Bytes) (lastSeen : Option Int) :
    (inventory.setCrawledSource key bearer via lastSeen).get key =
      some (device.setCrawled bearer via lastSeen) := by
  rw [setCrawledSource, h]
  exact lookup_insert _

theorem ttlMs_setCrawledSource (inventory : Inventory) (key : NodeKey) (bearer : Text) (via : Bytes)
    (lastSeen : Option Int) :
    (inventory.setCrawledSource key bearer via lastSeen).ttlMs = inventory.ttlMs := by
  unfold setCrawledSource
  cases inventory.get key <;> rfl

theorem get_setCrawledSource_other {other : NodeKey} (hother : other ≠ key) (bearer : Text)
    (via : Bytes) (lastSeen : Option Int) :
    (inventory.setCrawledSource key bearer via lastSeen).get other = inventory.get other := by
  unfold setCrawledSource
  cases inventory.get key with
  | none => rfl
  | some device => exact lookup_insert_ne hother

/-- The inventory after a row was imported, before it is pruned, and the row's device in it. -/
def imported (cbor : Codec) (inventory : Inventory) (nowMs : Int) (announce : Announce)
    (via : Bytes) (row : Observation) : Inventory :=
  (inventory.observe cbor nowMs (crawledCarrier row) announce none true
    row.record).1.setCrawledSource
    (hex announce.deviceId.used) row.bearer (row.via.getD via) (crawledSeen nowMs row)

def importedDevice (cbor : Codec) (inventory : Inventory) (nowMs : Int) (announce : Announce)
    (via : Bytes) (row : Observation) : Device :=
  ((base inventory nowMs (hex announce.deviceId.used)
    (.new (hex announce.deviceId.used) (some announce) true nowMs)).observe cbor nowMs
      (crawledCarrier row) announce
      none true row.record).setCrawled row.bearer (row.via.getD via) (crawledSeen nowMs row)

section Imported

variable (cbor : Codec) (inventory : Inventory) (nowMs : Int) (announce : Announce) (via : Bytes)
    (row : Observation)

theorem get_imported_same :
    (imported cbor inventory nowMs announce via row).get (hex announce.deviceId.used) =
    some (importedDevice cbor inventory nowMs announce via row) :=
  get_setCrawledSource_same get_observe_same _ _ _

theorem get_imported_other (hkey : key ≠ hex announce.deviceId.used) :
    (imported cbor inventory nowMs announce via row).get key = (inventory.prune nowMs).get key := by
  rw [imported, get_setCrawledSource_other hkey, get_observe_other hkey]

theorem ttlMs_imported : (imported cbor inventory nowMs announce via row).ttlMs = inventory.ttlMs :=
  ttlMs_setCrawledSource _ _ _ _ _

theorem importedDevice_other {bearer : Text} (hbearer : bearer ≠ row.bearer) :
    (importedDevice cbor inventory nowMs announce via row).observations.lookup bearer =
      (base inventory nowMs (hex announce.deviceId.used)
        (.new (hex announce.deviceId.used) (some announce) true nowMs)).observations.lookup
          bearer := by
  obtain ⟨found, hfound, -⟩ := observe_same (base inventory nowMs (hex announce.deviceId.used)
    (.new (hex announce.deviceId.used) (some announce) true nowMs)) cbor nowMs (crawledCarrier row)
      announce none
      true row.record
  have hmarked := (@setCrawled_eq _ row.bearer _ hfound (row.via.getD via)
    (crawledSeen nowMs row)).2.2.2.2.2
  rw [importedDevice, hmarked, lookup_insert_ne hbearer]
  exact observe_other hbearer

end Imported

end Lookups

/-! ## The engine -/

/-- The device that a received datagram was recorded for. -/
def Received.recorded : Received → Option NodeKey
  | .announce key _ => some key
  | .response _ device => some device.id
  | .request _ _ | .own | .rejected | .ignored => none

section Engines

variable {cbor : Codec} {verify : Announce → Bool} {engine : Engine} {nowMs : Int}
    {carrier : Carrier} {announce : Announce} {facts : Option DiscoveryFacts} {replyId : Option Nat}
    {payload : Bytes}

section

variable (cbor : Codec) (verify : Announce → Bool) (engine : Engine) (nowMs : Int)
    (carrier : Carrier)

/-- An announce is refused, or recorded. -/
theorem observeAnnounceWith_cases (announce : Announce) (facts : Option DiscoveryFacts)
    (replyId : Option Nat) (payload : Bytes) :
    ((engine.observeAnnounceWith cbor verify nowMs carrier announce facts replyId payload).1 =
      engine ∧
        (engine.observeAnnounceWith cbor verify nowMs carrier announce facts replyId
          payload).2.recorded = none) ∨
      (verifyIdentity verify announce = true ∧ engine.isOwn announce = false ∧
        (engine.observeAnnounceWith cbor verify nowMs carrier announce facts replyId
          payload).1.inventory =
          (engine.inventory.observe cbor nowMs carrier announce facts announce.hasIdentity
            payload).1 ∧
        ((engine.observeAnnounceWith cbor verify nowMs carrier announce facts replyId
          payload).2.recorded = some (hex announce.deviceId.used) ∨
          ∃ device, (engine.inventory.observe cbor nowMs carrier announce facts announce.hasIdentity
            payload).1.get (hex announce.deviceId.used) = some device ∧
            (engine.observeAnnounceWith cbor verify nowMs carrier announce facts replyId
              payload).2.recorded = some device.id)) := by
  unfold observeAnnounceWith
  split
  · exact .inl ⟨rfl, rfl⟩
  next hverified =>
    have hverified : verifyIdentity verify announce = true := by simpa using hverified
    split
    · exact .inl ⟨rfl, rfl⟩
    next hown =>
      have hown : engine.isOwn announce = false := by simpa using hown
      dsimp only
      split
      · next id device hdevice =>
          split
          · exact .inr ⟨hverified, hown, rfl, .inr ⟨device, hdevice, rfl⟩⟩
          · exact .inr ⟨hverified, hown, rfl, .inr ⟨device, hdevice, rfl⟩⟩
      · exact .inr ⟨hverified, hown, rfl, .inl rfl⟩

theorem onDatagram_cases (bytes : Bytes) :
    ((engine.onDatagram cbor verify nowMs carrier bytes).1 = engine ∧
        (engine.onDatagram cbor verify nowMs carrier bytes).2.recorded = none) ∨
      ∃ announce facts replyId, decodeAnnounce cbor bytes = some announce ∧
        engine.onDatagram cbor verify nowMs carrier bytes =
          engine.observeAnnounceWith cbor verify nowMs carrier announce facts replyId bytes := by
  unfold onDatagram
  split
  · split
    · exact .inl ⟨rfl, rfl⟩
    · exact .inl ⟨rfl, rfl⟩
  split
  · exact .inl ⟨rfl, rfl⟩
  split
  · exact .inl ⟨rfl, rfl⟩
  · next announce hannounce => exact .inr ⟨announce, _, _, hannounce, rfl⟩

end

/-- The engine takes the row of another observer, about the announce that it carries. -/
structure Admits (cbor : Codec) (verify : Announce → Bool) (engine : Engine) (via : Bytes)
    (row : Observation) (announce : Announce) : Prop where
  decoded : decodeAnnounce cbor row.record = some announce
  identity : announce.hasIdentity = true
  verified : verify announce = true
  via : via.length = 8
  foreign : engine.isOwn announce = false
  unseen : engine.seenDirectly (hex announce.deviceId.used) row.bearer = false

/-- The row is refused, or its announce is recorded as seen by the other observer. -/
theorem observeCrawled_cases (cbor : Codec) (verify : Announce → Bool) (engine : Engine)
    (nowMs : Int) (via : Bytes) (row : Observation) :
    engine.observeCrawled cbor verify nowMs via row = (engine, false) ∨
      ∃ announce, Admits cbor verify engine via row announce ∧
        engine.observeCrawled cbor verify nowMs via row =
          ({ engine with
            inventory := (imported cbor engine.inventory nowMs announce via row).prune nowMs },
            true) := by
  unfold observeCrawled
  cases hannounce : decodeAnnounce cbor row.record with
  | none => exact .inl rfl
  | some announce =>
  dsimp only
  split
  · exact .inl rfl
  next hverified =>
    simp only [Bool.or_eq_true, Bool.not_eq_true', not_or, Bool.not_eq_false, bne_iff_ne,
      not_not] at hverified
    obtain ⟨⟨hidentity, hverify⟩, hvia⟩ := hverified
    split
    · exact .inl rfl
    next hown =>
      split
      · exact .inl rfl
      next hdirect =>
        rw [verifyIdentity, hidentity] at hverify
        refine .inr ⟨announce, ⟨hannounce, hidentity, by simpa using hverify, hvia,
          by simpa using hown,
          by simpa using hdirect⟩, ?_⟩
        rw [hidentity]
        rfl

end Engines

end QuicLite.Discovery
