import QuicLite.Discovery.Lossless
import QuicLite.Discovery.Nodes

/-!
# What an engine tells other observers

`records` makes the rows of an engine's devices. A row that was encoded is read back as it was, if
it is read at all.
-/

namespace QuicLite.Discovery

open Cbor Writer List Option Nat Announce

/-! ## The rows of the devices -/

variable {cbor : Codec} {capacity : Nat} {announce : Announce}

def bearerUdp : Text := [117, 100, 112, 95, 109, 117, 108, 116, 105, 99, 97, 115, 116]

/-- A link-local peer is reached through an interface that is there. `live` has the interfaces. -/
def hasScopeIn (live : List UInt32) (peer : SocketAddr) : Bool :=
  if peer.ip.length = 16 ∧ peer.ip.take 1 = [0xfe] ∧ (peer.ip.getD 1 0) &&& 0xc0 = 0x80 then
    peer.scope != 0 && live.contains peer.scope
  else true

def hexValue (b : UInt8) : Option Nat :=
  if 48 ≤ b ∧ b ≤ 57 then some (b.toNat - 48)
  else if 97 ≤ b ∧ b ≤ 102 then some (b.toNat - 87)
  else if 65 ≤ b ∧ b ≤ 70 then some (b.toNat - 55)
  else none

/-- `u8::from_str_radix(b, 16)` of two bytes. The first may be a plus sign. -/
def macByte (text : Text) : Option UInt8 :=
  match text with
  | [high, low] => do
      let digit ← hexValue low
      if high = 43 then return UInt8.ofNat digit
      else
        let upper ← hexValue high
        return UInt8.ofNat (16 * upper + digit)
  | _ => none

/-- Only six bytes between colons are a radio address. -/
def macOf (peer : Text) : Option (List.Vector UInt8 6) :=
  ((peer.splitOn 58).mapM macByte).bind (toVector 6)

/-- One observation of a device as a row. -/
def rowOf (retained : Bool) (nowMs : Int) (device : Device) (record : Bytes) (bearer : Text)
    (facts : DiscoveryObservation) : Observation :=
  let lastSeenMs := if 0 < facts.lastSeenMs then some facts.lastSeenMs.toNat else none
  { Observation.new record bearer with
    peer := macOf facts.lastPeer
    rssiDbm := facts.lastRssiDbm
    channel := facts.lastChannel
    lastSeenMs := lastSeenMs
    ageMs := lastSeenMs.map fun t => nowMs.toNat - t
    retained := retained
    origin := if (device.crawledVia.lookup bearer).isSome then .crawled else .direct
    via := device.crawledVia.lookup bearer }

/-- A row, with the key and the stamp by which a stream knows what it has sent. -/
structure Row where
  key : Text
  stamp : Int × Nat
  bytes : Bytes

/-- The largest vector. -/
def isizeMax : Nat := 2 ^ 63 - 1

section Records

variable (cbor : Codec) (live : List UInt32) (liveScopesOnly retained : Bool) (nowMs : Int)

def recordsOf (device : Device) : List Row :=
  match device.record with
  | none => []
  | some record =>
    device.observations.entries.filterMap fun entry =>
      if liveScopesOnly && entry.1 == bearerUdp && device.udpSender.any fun peer =>
        !hasScopeIn live peer then none
      -- The buffer of a longer record could not be allocated.
      else if isizeMax < record.length + 256 then none
      else (Observation.encode cbor (record.length + 256)
        (rowOf retained nowMs device record entry.1 entry.2)).map
        fun bytes => ⟨device.id ++ 58 :: entry.1, (entry.2.lastSeenMs, entry.2.packets), bytes⟩

def records (devices : List Device) : List Row :=
  devices.flatMap (recordsOf cbor live liveScopesOnly retained nowMs)

end Records

/-! ## The fields of a row -/

inductive RowField where
  | kind
  | peer (mac : List.Vector UInt8 6)
  | rssiDbm (dbm : Int16)
  | channel (number : UInt8)
  | receivedUs (n : Nat)
  | record (bs : Bytes)
  | lastSeenMs (n : Nat)
  | origin (found : Origin)
  | bearer (bs : Text)
  | retained (b : Bool)
  | via (bs : Bytes)
  | ageMs (n : Nat)

namespace RowField

def key : RowField → Nat
  | .kind => 0
  | .peer _ => 1
  | .rssiDbm _ => 2
  | .channel _ => 3
  | .receivedUs _ => 4
  | .record _ => 6
  | .lastSeenMs _ => 7
  | .origin _ => 8
  | .bearer _ => 9
  | .retained _ => 10
  | .via _ => 11
  | .ageMs _ => 12

def value (cbor : Codec) : RowField → Bytes
  | .kind => cbor.uint 1
  | .peer mac => cbor.bytesValue mac.toList
  | .rssiDbm dbm => cbor.int dbm.toInt
  | .channel number => cbor.uint number.toNat
  | .receivedUs n | .lastSeenMs n | .ageMs n => cbor.uint n
  | .record bs | .via bs => cbor.bytesValue bs
  | .origin found => cbor.uint found.toNat
  | .bearer bs => cbor.textValue bs
  | .retained b => cbor.boolean b

def bytes (cbor : Codec) (field : RowField) : Bytes := cbor.uint field.key ++ field.value cbor

/-- The row when the field is read. -/
def set (row : Observation) : RowField → Observation
  | .kind => row
  | .peer mac => { row with peer := some mac }
  | .rssiDbm dbm => { row with rssiDbm := some dbm }
  | .channel number => { row with channel := some number }
  | .receivedUs n => { row with receivedUs := some n }
  | .record bs => { row with record := bs }
  | .lastSeenMs n => { row with lastSeenMs := some n }
  | .origin found => { row with origin := found }
  | .bearer bs => { row with bearer := bs }
  | .retained b => { row with retained := b }
  | .via bs => { row with via := some bs }
  | .ageMs n => { row with ageMs := some n }

/-- The value is one that CBOR can carry. -/
def Bounded : RowField → Prop
  | .receivedUs n | .lastSeenMs n | .ageMs n => n < u64Bound
  | .record bs | .bearer bs | .via bs => bs.length < u64Bound
  | .kind | .peer _ | .rssiDbm _ | .channel _ | .origin _ | .retained _ => True

theorem key_lt (field : RowField) : field.key < 24 := by
  cases field <;> simp only [key] <;> decide

end RowField

namespace Observation

variable {self : Observation}

/-- The fields of a row, in the order in which they are written. -/
def fields (self : Observation) : List RowField :=
  [.kind] ++ ((self.peer.map RowField.peer).toList ++ ((self.rssiDbm.map RowField.rssiDbm).toList ++
    ((self.channel.map RowField.channel).toList ++
      ((self.receivedUs.map RowField.receivedUs).toList ++ ([.record self.record] ++
      ((self.lastSeenMs.map RowField.lastSeenMs).toList ++ ([.origin self.origin] ++
    ([.bearer self.bearer] ++ ([.retained self.retained] ++ ((self.via.map RowField.via).toList ++
    (self.ageMs.map RowField.ageMs).toList))))))))))

/-- The times are 64-bit ones. -/
def Bounded (self : Observation) : Prop :=
  (∀ t, self.receivedUs = some t → t < u64Bound) ∧ (∀ t, self.lastSeenMs = some t → t < u64Bound) ∧
    ∀ t, self.ageMs = some t → t < u64Bound

def rowBytes (cbor : Codec) (self : Observation) : Bytes :=
  cbor.map self.fields.length ++ self.fields.flatMap (RowField.bytes cbor)

/-! ## What is written -/

open RowField

section Write

variable (cbor : Codec) (capacity : Nat)

theorem writes_putOptional {α : Type} (key : Nat) (value : α → Bytes) (make : α → RowField)
    (hkey : ∀ found, (make found).key = key)
    (hvalue : ∀ found, (make found).value cbor = value found) (field : Option α) :
    Writes () capacity (putOptional cbor capacity key value field)
      ((field.map make).toList.flatMap (bytes cbor)) True := by
  cases field with
  | none => exact .nothing () capacity
  | some found =>
    refine (writes_putEntry cbor capacity key (value found)).congr Iff.rfl ?_
    simp [bytes, hkey, hvalue]

/-- A row that may be encoded is written whole. -/
theorem writes_row (self : Observation) :
    ∃ step, Writes () capacity step (rowBytes cbor self) True ∧
    encode cbor capacity self =
      if self.record.isEmpty || self.bearer.isEmpty || self.via.any (fun via => via.length != 8)
      then none else (step []).toOption := by
  have hentry : ∀ (field : RowField),
      Writes () capacity (putEntry cbor capacity field.key (field.value cbor))
      ([field].flatMap (bytes cbor)) True := fun field =>
    (writes_putEntry cbor capacity _ _).congr Iff.rfl (by simp [bytes])
  refine ⟨_, .congr (writes_bind (writes_put capacity _) <| writes_bind (hentry .kind) <|
    writes_bind (writes_putOptional cbor capacity 1 _ .peer (fun _ => rfl) (fun _ => rfl) _) <|
    writes_bind (writes_putOptional cbor capacity 2 _ .rssiDbm (fun _ => rfl) (fun _ => rfl) _) <|
    writes_bind (writes_putOptional cbor capacity 3 _ .channel (fun _ => rfl) (fun _ => rfl) _) <|
    writes_bind (writes_putOptional cbor capacity 4 _ .receivedUs (fun _ => rfl) (fun _ =>
      rfl) _) <|
    writes_bind (hentry (.record _)) <|
    writes_bind (writes_putOptional cbor capacity 7 _ .lastSeenMs (fun _ => rfl) (fun _ =>
      rfl) _) <|
    writes_bind (hentry (.origin _)) <| writes_bind (hentry (.bearer _)) <|
      writes_bind (hentry (.retained _)) <|
    writes_bind (writes_putOptional cbor capacity 11 _ .via (fun _ => rfl) (fun _ => rfl) _)
      (writes_putOptional cbor capacity 12 _ .ageMs (fun _ => rfl) (fun _ => rfl) _)) Iff.rfl ?_,
        rfl⟩
  have hlength : ∀ {α : Type} (make : α → RowField) (field : Option α),
      (field.map make).toList.length =
        field.isSome.toNat := fun make field => by cases field <;> rfl
  simp only [rowBytes, fields, flatMap_append, length_append, hlength, length_singleton]
  congr 2
  omega

end Write

theorem encode_eq_some {bs : Bytes} (h : encode cbor capacity self = some bs) :
    self.record ≠ [] ∧ self.bearer ≠ [] ∧ (∀ via, self.via = some via → via.length = 8) ∧
      (rowBytes cbor self).length ≤ capacity ∧ bs = rowBytes cbor self := by
  obtain ⟨step, hstep, hencode⟩ := writes_row cbor capacity self
  rw [hencode] at h
  split at h
  · cases h
  next hvalid =>
    simp only [Bool.or_eq_true, List.isEmpty_iff, not_or] at hvalid
    obtain ⟨⟨hrecord, hbearer⟩, hvia⟩ := hvalid
    refine ⟨hrecord, hbearer, fun via hsome => ?_, (toOption_eq_some hstep bs).mp h⟩
    rw [hsome] at hvia
    simpa using hvia

/-! ## What is read -/

section Read

variable {cbor : Codec} (h : cbor.Lawful)
include h

section

variable (read : Read) (field : RowField) (hbound : field.Bounded) (rest : Bytes)
    {next : Read × Bytes}
include hbound

theorem readValue_value (hread : readValue cbor read field.key (field.value cbor ++ rest) =
    some next) :
    next.1.row = field.set read.row ∧ next.2 = rest := by
  cases field with
  | kind =>
    rw [key, value, readValue, h.readUint (by decide)] at hread
    cases hread
    exact ⟨rfl, rfl⟩
  | peer mac =>
    have hlength : mac.toList.length < u64Bound := by
      rw [mac.toList_length]
      decide
    rw [key, value, readValue, h.readBytes hlength] at hread
    simp only [bind_eq_bind, bind_some, toVector, dif_pos mac.toList_length] at hread
    cases hread
    exact ⟨rfl, rfl⟩
  | rssiDbm dbm =>
    have hrange : -2 ^ 15 ≤ dbm.toInt ∧ dbm.toInt < 2 ^ 15 := ⟨dbm.le_toInt, dbm.toInt_lt⟩
    rw [key, value, readValue, h.readInt (by omega)] at hread
    simp only [bind_eq_bind, bind_some, if_pos hrange, Int16.ofInt_toInt] at hread
    cases hread
    exact ⟨rfl, rfl⟩
  | channel number =>
    have hlt : number.toNat < 2 ^ 8 := number.toNat_lt
    rw [key, value, readValue, h.readUint (lt_of_lt_of_le hlt (by decide))] at hread
    simp only [bind_eq_bind, bind_some, if_pos hlt, UInt8.ofNat_toNat] at hread
    cases hread
    exact ⟨rfl, rfl⟩
  | receivedUs n | lastSeenMs n | ageMs n =>
    rw [key, value, readValue, h.readUint (show n < u64Bound from hbound)] at hread
    cases hread
    exact ⟨rfl, rfl⟩
  | record bs =>
    rw [key, value, readValue, h.readBytes (show bs.length < u64Bound from hbound)] at hread
    cases hread
    exact ⟨rfl, rfl⟩
  | origin found =>
    cases found with
    | direct | crawled =>
      rw [key, value, readValue, h.readUint (by decide)] at hread
      cases hread
      exact ⟨rfl, rfl⟩
  | bearer bs =>
    rw [key, value, readValue, h.readText (show bs.length < u64Bound from hbound)] at hread
    simp only [bind_eq_bind, bind_some, fromUtf8] at hread
    split at hread
    · cases hread
      exact ⟨rfl, rfl⟩
    · cases hread
  | retained b =>
    rw [key, value, readValue, h.readBoolean] at hread
    cases hread
    exact ⟨rfl, rfl⟩
  | via bs =>
    rw [key, value, readValue, h.readBytes (show bs.length < u64Bound from hbound)] at hread
    simp only [bind_eq_bind, bind_some] at hread
    split at hread
    · cases hread
      exact ⟨rfl, rfl⟩
    · cases hread

theorem decodeEntry_bytes (hread : decodeEntry cbor read (field.bytes cbor ++ rest) = some next) :
    next.1.row = field.set read.row ∧ next.2 = rest := by
  rw [bytes, append_assoc, decodeEntry] at hread
  simp only [h.readUint (lt_trans field.key_lt (by decide)), bind_eq_bind, bind_some] at hread
  split at hread
  · split at hread
    · cases hread
    · have hvalue := readValue_value h _ field hbound rest hread
      exact hvalue
  · exact readValue_value h _ field hbound rest hread

end

theorem decodeEntries_bytes (fields : List RowField) (hbound : ∀ field ∈ fields, field.Bounded)
    (rest : Bytes) : ∀ (read : Read) (next : Read × Bytes),
      decodeEntries cbor fields.length read (fields.flatMap (bytes cbor) ++ rest) = some next →
        next.1.row = fields.foldl set read.row ∧ next.2 = rest := by
  induction fields with
  | nil =>
    intro read next hread
    cases hread
    exact ⟨rfl, rfl⟩
  | cons field fields ih =>
    intro read next hread
    rw [flatMap_cons, append_assoc, length_cons] at hread
    obtain ⟨first, hfirst, hrest⟩ := bind_eq_some_iff.mp hread
    obtain ⟨hrow, htail⟩ := decodeEntry_bytes h read field (hbound field mem_cons_self) _ hfirst
    rw [htail] at hrest
    have := ih (forall_mem_cons.mp hbound).2 first.1 next hrest
    rwa [hrow] at this

end Read

theorem foldl_fields (self : Observation) : self.fields.foldl set (new [] []) = self := by
  obtain ⟨record, peer, rssiDbm, channel, receivedUs, bearer, lastSeenMs, ageMs, origin, retained,
      via⟩ := self
  cases peer <;> cases rssiDbm <;> cases channel <;> cases receivedUs <;> cases lastSeenMs <;>
    cases ageMs <;>
    cases via <;> rfl

theorem length_fields_le (self : Observation) : self.fields.length ≤ 12 := by
  have hone : ∀ {α : Type} (make : α → RowField) (field : Option α),
      (field.map make).toList.length ≤ 1 :=
    fun make field => by cases field <;> simp
  have hpeer := hone .peer self.peer
  have hrssi := hone .rssiDbm self.rssiDbm
  have hchannel := hone .channel self.channel
  have hreceived := hone .receivedUs self.receivedUs
  have hseen := hone .lastSeenMs self.lastSeenMs
  have hage := hone .ageMs self.ageMs
  have hvia := hone .via self.via
  simp only [fields, length_append, length_singleton]
  omega

theorem fields_bounded (hbounded : self.Bounded) (hrecord : self.record.length < u64Bound)
    (hbearer : self.bearer.length < u64Bound) (hvia : ∀ via, self.via = some via → via.length = 8) :
    ∀ field ∈ self.fields, field.Bounded := by
  obtain ⟨hreceived, hseen, hage⟩ := hbounded
  intro field hfield
  simp only [fields, mem_append, mem_singleton, mem_toList, map_eq_some_iff] at hfield
  rcases hfield with rfl | ⟨_, -, rfl⟩ | ⟨_, -, rfl⟩ | ⟨_, -, rfl⟩ | ⟨n, hn, rfl⟩ | rfl |
    ⟨n, hn, rfl⟩ | rfl | rfl | rfl |
    ⟨bs, hbs, rfl⟩ | ⟨n, hn, rfl⟩
  · trivial
  · trivial
  · trivial
  · trivial
  · exact hreceived n hn
  · exact hrecord
  · exact hseen n hn
  · trivial
  · exact hbearer
  · trivial
  · show bs.length < u64Bound
    rw [hvia bs hbs]
    decide
  · exact hage n hn

/-- A row that was encoded is read back as it was. -/
theorem decode_encode (h : cbor.Lawful) (hcapacity : capacity < u64Bound)
    {found : Observation} (hbounded : self.Bounded) {bs : Bytes}
    (hencode : encode cbor capacity self = some bs) (hdecode : decode cbor bs = some found) :
    found = self := by
  obtain ⟨-, -, hvia, hfits, rfl⟩ := encode_eq_some hencode
  have hpart : ∀ field ∈ self.fields, (field.value cbor).length ≤ capacity := by
    intro field hfield
    obtain ⟨front, back, hsplit⟩ := append_of_mem hfield
    rw [rowBytes, hsplit] at hfits
    simp only [flatMap_append, flatMap_cons, length_append, bytes] at hfits
    omega
  have hrecord : self.record.length < u64Bound := by
    have hle := hpart (.record self.record) (by simp [fields])
    rw [value, h.length_bytesValue] at hle
    omega
  have hbearer : self.bearer.length < u64Bound := by
    have hle := hpart (.bearer self.bearer) (by simp [fields])
    rw [value, h.length_textValue] at hle
    omega
  have hcount : self.fields.length < indefinite :=
    lt_of_le_of_lt (length_fields_le self) (by decide)
  rw [decode, rowBytes, h.readHead hcount] at hdecode
  simp only [bind_eq_bind, bind_some] at hdecode
  obtain ⟨⟨read, rest⟩, hread, hchecked⟩ := bind_eq_some_iff.mp hdecode
  rw [← append_nil (self.fields.flatMap _)] at hread
  have hrow := (decodeEntries_bytes h self.fields (fields_bounded hbounded hrecord hbearer hvia) []
    _ _ hread).1
  split at hchecked
  · rw [← some.inj hchecked, hrow, foldl_fields]
  · cases hchecked

end Observation

/-! ## The device of a record -/

/-- Only the field of the device id changes it. -/
theorem accept_deviceId {next : Announce} {field : Field} (h : announce.accept field = some next)
    (hfield : ∀ id, field ≠ .deviceId id) : next.deviceId = announce.deviceId := by
  cases field with
  | deviceId id => exact absurd rfl (hfield id)
  | uptimeSecs n | deviceClass n | probeCapabilities n | wifiChannel n | udpPort n | recovery b =>
    simp only [accept] at h
    split at h <;> cases h
    rfl
  | publicKey bs | deviceName bs | deviceDomain bs | networkName bs =>
    obtain ⟨_, -, rfl⟩ := map_eq_some_iff.mp h
    rfl
  | signature bs =>
    simp only [accept] at h
    split at h
    · obtain ⟨_, -, rfl⟩ := map_eq_some_iff.mp h
      rfl
    · cases h
  | staLinkLocalV6 bs | udpLinkLocalV6 bs =>
    simp only [accept] at h
    split at h
    · cases h
    · obtain ⟨_, -, rfl⟩ := map_eq_some_iff.mp h
      rfl

theorem foldlM_accept_deviceId {fields : List Field}
    (hfields : ∀ field ∈ fields, ∀ id, field ≠ .deviceId id) :
    ∀ {announce next : Announce}, fields.foldlM accept announce = some next →
      next.deviceId = announce.deviceId := by
  induction fields with
  | nil =>
    intro announce next h
    cases h
    rfl
  | cons field fields ih =>
    intro announce next h
    obtain ⟨first, hfirst, hrest⟩ := bind_eq_some_iff.mp h
    rw [ih (forall_mem_cons.mp hfields).2 hrest]
    exact accept_deviceId hfirst (hfields field mem_cons_self)

theorem foldlM_fields_deviceId {start next : Announce} {includeSignature : Bool}
    (h : (announce.fields includeSignature).foldlM accept start = some next) :
    next.deviceId.used = announce.deviceId.used := by
  rw [fields, foldlM_append] at h
  obtain ⟨first, hfirst, hrest⟩ := bind_eq_some_iff.mp h
  obtain ⟨stored, hstored, hnil⟩ := bind_eq_some_iff.mp hfirst
  obtain rfl := some.inj hnil
  have hlater : next.deviceId = stored.deviceId := by
    refine foldlM_accept_deviceId ?_ hrest
    intro field hfield id
    simp only [mem_append] at hfield
    rcases hfield with h | h | h | h | h | h | h | h | h | h | h | h |
      h <;> rw [mem_optional h] <;> exact Field.noConfusion
  rw [accept] at hstored
  split at hstored
  · next hid =>
      rw [hlater, ← some.inj hstored]
      show ((announce.deviceId.used ++ _).take (min announce.deviceId.used.length 16)) = _
      rw [min_eq_left hid.2, take_left]
  · cases hstored

/-- The encoding of an announce is read as one of the same device. -/
theorem deviceId_encode (h : cbor.Lawful) {found : Announce} {record : Bytes}
    (hencode : encode cbor capacity announce = some record)
    (hdecode : decodeAnnounce cbor record = some found) :
    found.deviceId.used = announce.deviceId.used := by
  obtain rfl := encodeInner_sound cbor capacity announce true none hencode
  rw [decodeAnnounce, decode_announceBytes h announce true (by simp)] at hdecode
  have hrecord : decodeRecord cbor
      (recordOf announce.kind.toNat none (fieldsBytes cbor (announce.fields true)) none) =
      some found := hdecode
  obtain ⟨kind, -, hrecord⟩ := bind_eq_some_iff.mp hrecord
  obtain ⟨fields, hfields, hrecord⟩ := bind_eq_some_iff.mp hrecord
  obtain rfl : fieldsBytes cbor (announce.fields true) = fields := some.inj hfields
  obtain ⟨⟨⟨major, count⟩, d⟩, hhead, hrecord⟩ := bind_eq_some_iff.mp hrecord
  have hfold := decodeFields_announce h announce true kind
  rw [hhead, bind_some] at hfold
  dsimp only at hrecord
  split at hrecord
  · cases hrecord
  obtain ⟨⟨next, rest⟩, hnext, hchecked⟩ := bind_eq_some_iff.mp hrecord
  rw [hnext] at hfold
  obtain ⟨folded, hfolded, hpair⟩ := map_eq_some_iff.mp hfold.symm
  obtain rfl : folded = next := congrArg Prod.fst hpair
  split at hchecked
  · exact some.inj hchecked ▸ foldlM_fields_deviceId hfolded
  · cases hchecked

end QuicLite.Discovery
