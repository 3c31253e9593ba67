import QuicLite.Discovery.Announce

/-!
# The fields of an announce

What `encodeInner` writes is a list of fields, and `decodeRecord` folds it back into the announce.
The signed form is the same list without the signature. A field is taken when what it stores to is
still empty: there is one lemma `fold_` for each, and `foldlM_fields` chains them in the order in
which they are written.
-/

namespace QuicLite.Discovery

open Cbor Writer List Option Bool Announce QuicLite.Discovery.Field Nat

/-! ## Well-formed announces -/

variable {max : Nat} {field : Field} {cbor : Codec} {present : Bool}

/-- Bytes in use, then zeros. -/
structure Padded.Zeroed {max : Nat} (field : Padded max) : Prop where
  len : field.len ≤ max
  zeros : field.bytes.toList.drop field.len = replicate (max - field.len) 0

namespace Announce

structure WellFormed (announce : Announce) : Prop where
  kind : announce.kind.toNat ∈ decodableKinds
  id : announce.deviceId.len ≠ 0
  deviceId : announce.deviceId.Zeroed
  publicKey : announce.publicKey.Zeroed
  signature : announce.signature.Zeroed
  deviceName : announce.deviceName.Zeroed
  deviceDomain : announce.deviceDomain.Zeroed
  networkName : announce.networkName.Zeroed
  staLinkLocalV6 : announce.staLinkLocalV6Present = false →
    announce.staLinkLocalV6 = List.Vector.replicate 16 0
  udpLinkLocalV6 : announce.udpLinkLocalV6Present = false →
    announce.udpLinkLocalV6 = List.Vector.replicate 16 0
  identity : announce.publicKey.len = 0 ↔ announce.signature.len = 0
  names : (fromUtf8 announce.deviceName.used).isSome = true ∧
    (fromUtf8 announce.deviceDomain.used).isSome = true ∧
    (fromUtf8 announce.networkName.used).isSome = true
  channel : announce.wifiChannel.toNat ≤ 13
  port : announce.udpPort = 0 ∨ announce.udpLinkLocalV6Present = true

/-- A signature is there in full or not at all. -/
def WholeSignature (self : Announce) : Prop :=
  self.signature.len = 0 ∨ self.signature.len = signatureLen

/-- What is signed. -/
def unsigned (self : Announce) : Announce := { self with signature := .empty }

end Announce

/-! ## What is written -/

namespace Field

def key : Field → Nat
  | .deviceId _ => fieldDeviceId
  | .uptimeSecs _ => fieldUptimeSecs
  | .deviceClass _ => fieldDeviceClass
  | .probeCapabilities _ => fieldProbeCapabilities
  | .publicKey _ => fieldPublicKey
  | .signature _ => fieldSignature
  | .deviceName _ => fieldDeviceName
  | .deviceDomain _ => fieldDeviceDomain
  | .networkName _ => fieldNetworkName
  | .wifiChannel _ => fieldWifiChannel
  | .staLinkLocalV6 _ => fieldStaLinkLocalV6
  | .udpPort _ => fieldUdpPort
  | .udpLinkLocalV6 _ => fieldUdpLinkLocalV6
  | .recovery _ => fieldRecovery

def value (cbor : Codec) : Field → Bytes
  | .uptimeSecs n | .deviceClass n | .probeCapabilities n | .wifiChannel n
    | .udpPort n => cbor.uint n
  | .deviceId bs | .publicKey bs | .signature bs | .deviceName bs | .deviceDomain bs
  | .networkName bs | .staLinkLocalV6 bs | .udpLinkLocalV6 bs => cbor.bytesValue bs
  | .recovery b => cbor.boolean b

def bytes (cbor : Codec) (field : Field) : Bytes := cbor.uint field.key ++ field.value cbor

/-- The value is one that CBOR can carry. -/
def Bounded : Field → Prop
  | .uptimeSecs n | .deviceClass n | .probeCapabilities n | .wifiChannel n
    | .udpPort n => n < u64Bound
  | .deviceId bs | .publicKey bs | .signature bs | .deviceName bs | .deviceDomain bs
  | .networkName bs | .staLinkLocalV6 bs | .udpLinkLocalV6 bs => bs.length < u64Bound
  | .recovery _ => True

end Field

def optional (present : Bool) (field : Field) : List Field := if present then [field] else []

/-- The fields of an announce, in the order in which they are written. -/
def Announce.fields (self : Announce) (includeSignature : Bool) : List Field :=
  let hasDescriptor := self.deviceClass != 0 || self.probeCapabilities != 0
  optional true (.deviceId self.deviceId.used) ++
    (optional true (.uptimeSecs self.uptimeSecs.toNat) ++
  (optional hasDescriptor (.deviceClass self.deviceClass.toNat) ++
  (optional hasDescriptor (.probeCapabilities self.probeCapabilities.toNat) ++
  (optional (!self.publicKey.used.isEmpty) (.publicKey self.publicKey.used) ++
  (optional (includeSignature && !self.signature.used.isEmpty) (.signature self.signature.used) ++
  (optional (text self.deviceName).isSome (.deviceName self.deviceName.used) ++
  (optional (text self.deviceDomain).isSome (.deviceDomain self.deviceDomain.used) ++
  (optional (text self.networkName).isSome (.networkName self.networkName.used) ++
  (optional (self.wifiChannel != 0) (.wifiChannel self.wifiChannel.toNat) ++
  (optional self.staLinkLocalV6Present (.staLinkLocalV6 self.staLinkLocalV6.toList) ++
  (optional (self.udpPort != 0) (.udpPort self.udpPort.toNat) ++
  (optional self.udpLinkLocalV6Present (.udpLinkLocalV6 self.udpLinkLocalV6.toList) ++
  optional self.recovery (.recovery true)))))))))))))

/-- A map of fields. -/
def fieldsBytes (cbor : Codec) (fields : List Field) : Bytes :=
  cbor.map fields.length ++ fields.flatMap (bytes cbor)

section Write

variable (cbor : Codec) (capacity : Nat)

theorem writes_putEntry (key : Nat) (value : Bytes) :
    Writes () capacity (putEntry cbor capacity key value) (cbor.uint key ++ value) True :=
  writes_bind (writes_put capacity _) (writes_put capacity _)

variable (present : Bool) (field : Field)

theorem length_optional : (optional present field).length = present.toNat := by
  cases present <;> rfl

theorem flatMap_optional : (optional present field).flatMap (bytes cbor) = if present then
      field.bytes cbor else [] := by
  cases present <;> simp [optional]

theorem writes_optional :
    Writes () capacity (putWhen present (putEntry cbor capacity field.key (field.value cbor)))
      ((optional present field).flatMap (bytes cbor)) True := by
  rw [flatMap_optional]
  exact writes_putWhen present (writes_putEntry cbor capacity _ _)

theorem writes_putFields (announce : Announce) (includeSignature : Bool) :
    Writes () capacity (putFields cbor capacity announce includeSignature)
      (fieldsBytes cbor (announce.fields includeSignature)) True := by
  have hfield := writes_optional cbor capacity
  refine .congr (writes_bind (writes_put capacity _) <| writes_bind (hfield true (.deviceId _)) <|
    writes_bind (hfield true (.uptimeSecs _)) <| writes_bind (hfield _ (.deviceClass _)) <|
    writes_bind (hfield _ (.probeCapabilities _)) <| writes_bind (hfield _ (.publicKey _)) <|
    writes_bind (hfield _ (.signature _)) <| writes_bind (hfield _ (.deviceName _)) <|
    writes_bind (hfield _ (.deviceDomain _)) <| writes_bind (hfield _ (.networkName _)) <|
    writes_bind (hfield _ (.wifiChannel _)) <| writes_bind (hfield _ (.staLinkLocalV6 _)) <|
    writes_bind (hfield _ (.udpPort _)) <|
      writes_bind (hfield _ (.udpLinkLocalV6 _)) (hfield _ (.recovery true)))
    Iff.rfl ?_
  simp only [fieldsBytes, fields, flatMap_append, length_append, length_optional]
  congr 2
  simp only [toNat_true]
  omega

end Write

/-! ## What is read -/

theorem Field.key_lt (field : Field) : field.key < 24 := by
  cases field <;> simp only [key] <;> decide

/-- A key and its value are two items. -/
theorem items_bytes {k : Nat} {rest : Bytes} (field : Field) (hbound : field.Bounded)
    (h : cbor.Items k rest) : cbor.Items (k + 2) (field.bytes cbor ++ rest) := by
  rw [bytes, append_assoc]
  refine .uint field.key (lt_trans field.key_lt (by decide)) ?_
  cases field with
  | recovery b => exact .boolean b h
  | uptimeSecs n | deviceClass n | probeCapabilities n | wifiChannel n | udpPort n =>
    exact .uint n hbound h
  | deviceId bs | publicKey bs | signature bs | deviceName bs | deviceDomain bs | networkName bs
  | staLinkLocalV6 bs | udpLinkLocalV6 bs => exact .bytesValue bs hbound h

theorem items_fields {fields : List Field} (hbound : ∀ field ∈ fields, field.Bounded) :
    cbor.Items (2 * fields.length) (fields.flatMap (bytes cbor)) := by
  induction fields with
  | nil => exact .none
  | cons field fields ih =>
    exact items_bytes field (hbound field mem_cons_self)
      (ih (forall_mem_cons.mp hbound).2)

section Read

variable {cbor : Codec} (h : cbor.Lawful)
include h

theorem readField_value (field : Field) (hbound : field.Bounded) (rest : Bytes) :
    readField cbor (field.value cbor ++ rest) field.key = some (some field, rest) := by
  cases field with
  | recovery b =>
    show (cbor.readBoolean (cbor.boolean b ++ rest)).map _ = _
    rw [h.readBoolean]
    rfl
  | uptimeSecs n | deviceClass n | probeCapabilities n | wifiChannel n | udpPort n =>
    show readUintField cbor (cbor.uint n ++ rest) _ = _
    rw [readUintField, h.readUint (show n < u64Bound from hbound) rest]
    rfl
  | deviceId bs | publicKey bs | signature bs | deviceName bs | deviceDomain bs | networkName bs
  | staLinkLocalV6 bs | udpLinkLocalV6 bs =>
    show readBytesField cbor (cbor.bytesValue bs ++ rest) _ = _
    rw [readBytesField, h.readBytes (show bs.length < u64Bound from hbound) rest]
    rfl

theorem decodeField_bytes (announce : Announce) (field : Field) (hbound : field.Bounded)
    (rest : Bytes) :
    decodeField cbor announce (field.bytes cbor ++ rest) = (announce.accept field).map fun next =>
      (next, rest) := by
  have hkey : field.key < u64Bound := lt_trans field.key_lt (by decide)
  rw [bytes, append_assoc, decodeField]
  simp only [h.readUint hkey, bind_eq_bind, bind_some, readField_value h field hbound]

/-- The loop folds the fields. -/
theorem decodeFields_bytes (fields : List Field) (hbound : ∀ field ∈ fields, field.Bounded)
    (rest : Bytes) : ∀ announce : Announce, decodeFields cbor fields.length announce
      (fields.flatMap (bytes cbor) ++ rest) =
      (fields.foldlM accept announce).map fun next => (next, rest) := by
  induction fields with
  | nil => exact fun _ => rfl
  | cons field fields ih =>
    intro announce
    rw [flatMap_cons, append_assoc, length_cons, decodeFields,
      decodeField_bytes h announce field (hbound field mem_cons_self), foldlM_cons]
    cases announce.accept field with
    | none => rfl
    | some => exact ih (forall_mem_cons.mp hbound).2 ..

end Read

/-! ## The fields of a well-formed announce -/

namespace Padded

variable {max : Nat} {self : Padded max}

section

variable (hz : self.Zeroed)
include hz

theorem Zeroed.used_eq_nil (h : self.used = []) : self = .empty := by
  have hlength : self.used.length = self.len := by
    simp only [used, length_take, Vector.toList_length]
    have := hz.len
    omega
  rw [h] at hlength
  have hlen : self.len = 0 := hlength.symm
  have hzeros := hz.zeros
  obtain ⟨bytes, len⟩ := self
  obtain rfl : len = 0 := hlen
  exact congrArg (Padded.mk · 0) (Subtype.ext hzeros)

theorem Zeroed.length_used : self.used.length = self.len := by
  simp only [used, length_take, Vector.toList_length]
  have := hz.len
  omega

/-- Storing the bytes in use into an empty array gives the array. -/
theorem Zeroed.store_used (h : self.used.length ≤ max) :
    (empty : Padded max).store self.used h = self := by
  have hbytes : self.used ++ (replicate max (0 : UInt8)).drop self.used.length =
      self.bytes.toList := by
    rw [hz.length_used, drop_replicate, ← hz.zeros, used, min_eq_left hz.len, take_append_drop]
  have hlen := hz.length_used
  unfold store
  congr 1
  exact Subtype.ext hbytes

theorem Zeroed.acceptOnce (hused : self.used.isEmpty = false) :
    (empty : Padded max).acceptOnce self.used = some self := by
  have hfits : self.used.length ≤ max := hz.length_used ▸ hz.len
  have hempty : (empty : Padded max).used.isEmpty = true := by simp [used, empty]
  rw [Padded.acceptOnce, dif_pos ⟨hused, hfits, hempty⟩, hz.store_used]

theorem Zeroed.acceptText (hused : self.used.isEmpty = false)
    (htext : (fromUtf8 self.used).isSome = true) :
    (empty : Padded max).acceptText self.used = some self := by
  have hfits : self.used.length ≤ max := hz.length_used ▸ hz.len
  have hnil : (empty : Padded max).used = [] := by simp [used, empty]
  have hempty : (text (empty : Padded max)).isNone = true := by
    rw [text, fromUtf8]
    split <;> rfl
  rw [Padded.acceptText, dif_pos ⟨hused, hfits, htext, hempty⟩, hz.store_used]

theorem isEmpty_used (h : self.used.isEmpty = true) : self = .empty :=
  hz.used_eq_nil (isEmpty_iff.mp h)

end

end Padded

theorem isSome_text {field : Padded max} (htext : (fromUtf8 field.used).isSome = true) :
    (text field).isSome = !field.used.isEmpty := by
  unfold text
  unfold fromUtf8 at htext ⊢
  split at htext
  · next hvalid =>
      rw [if_pos hvalid]
      cases field.used <;> rfl
  · cases htext

section Fold

variable {announce next : Announce} {present : Bool}
variable {old : Padded max} {n : UInt8} {address : List.Vector UInt8 16}

theorem foldlM_optional (hpresent : present = true → announce.accept field = some next)
    (habsent : present = false → announce = next) :
    (optional present field).foldlM accept announce = some next := by
  cases present with
  | true =>
    show (announce.accept field).bind (fun a => some a) = some next
    rw [hpresent rfl]
    rfl
  | false => exact congrArg some (habsent rfl)

theorem foldlM_step {rest : List Field} {result : Option Announce}
    (hfield : (optional present field).foldlM accept announce = some next)
    (hrest : rest.foldlM accept next = result) :
    (optional present field ++ rest).foldlM accept announce = result := by
  rw [foldlM_append, hfield]
  exact hrest

/-- A text is taken, or there is none. -/
theorem accept_text {field : Padded max} (hold : old = .empty) (hz : field.Zeroed)
    (htext : (fromUtf8 field.used).isSome = true) :
    ((text field).isSome = true → old.acceptText field.used = some field) ∧
      ((text field).isSome = false → field = .empty) := by
  rw [isSome_text htext]
  refine ⟨fun h => ?_, fun h => Padded.isEmpty_used hz (by simpa using h)⟩
  rw [hold]
  exact hz.acceptText (by simpa using h) htext

/-! One field after the other. `announce` is what the fields before have made. -/

variable (announce)

theorem fold_deviceId {id : Padded 16} (hold : announce.deviceId = .empty) (hz : id.Zeroed)
    (hid : id.len ≠ 0) :
    (optional true (.deviceId id.used)).foldlM accept announce = some { announce with
      deviceId := id } := by
  refine foldlM_optional (fun _ => ?_) (fun h => absurd h (by decide))
  have hfits : id.used.length ≤ 16 := hz.length_used ▸ hz.len
  have hused : id.used.isEmpty = false := by
    rw [isEmpty_eq_false_iff, ← length_pos_iff, hz.length_used]
    omega
  rw [accept, dif_pos ⟨hused, hfits⟩, hold, hz.store_used]

theorem fold_uptimeSecs (n : UInt32) :
    (optional true (.uptimeSecs n.toNat)).foldlM accept announce = some { announce with
      uptimeSecs := n } := by
  refine foldlM_optional (fun _ => ?_) (fun h => absurd h (by decide))
  rw [accept, if_pos n.toNat_lt, UInt32.ofNat_toNat]

theorem fold_deviceClass (hold : announce.deviceClass = 0) (habsent : present = false → n = 0) :
    (optional present (.deviceClass n.toNat)).foldlM accept announce = some { announce with
      deviceClass := n } := by
  refine foldlM_optional (fun _ => ?_) (fun h => ?_)
  · rw [accept, if_pos n.toNat_lt, UInt8.ofNat_toNat]
  · rw [habsent h, ← hold]

theorem fold_probeCapabilities {n : UInt16} (hold : announce.probeCapabilities = 0)
    (habsent : present = false → n = 0) :
    (optional present (.probeCapabilities n.toNat)).foldlM accept announce =
      some { announce with probeCapabilities := n } := by
  refine foldlM_optional (fun _ => ?_) (fun h => ?_)
  · rw [accept, if_pos n.toNat_lt, UInt16.ofNat_toNat]
  · rw [habsent h, ← hold]

theorem fold_publicKey {key : Padded 128} (hold : announce.publicKey = .empty) (hz : key.Zeroed) :
    (optional (!key.used.isEmpty) (.publicKey key.used)).foldlM accept announce =
      some { announce with publicKey := key } := by
  refine foldlM_optional (fun h => ?_) (fun h => ?_)
  · rw [accept, hold, hz.acceptOnce (by simpa using h), map_some]
  · rw [Padded.isEmpty_used hz (by simpa using h), ← hold]

theorem fold_signature (includeSignature : Bool) {signature : Padded 64}
    (hold : announce.signature = .empty) (hz : signature.Zeroed)
    (hwhole : includeSignature = true → signature.len = 0 ∨ signature.len = signatureLen) :
    (optional (includeSignature && !signature.used.isEmpty) (.signature signature.used)).foldlM
      accept announce =
      some { announce with signature := if includeSignature then signature else .empty } := by
  refine foldlM_optional (fun h => ?_) (fun h => ?_)
  · obtain ⟨hinclude, hused⟩ := Bool.and_eq_true_iff.mp h
    have hused : signature.used.isEmpty = false := by simpa using hused
    have hlength : signature.used.length = signatureLen := by
      rcases hwhole hinclude with hzero | hlen
      · rw [isEmpty_eq_false_iff, ← length_pos_iff, hz.length_used] at hused
        omega
      · rw [hz.length_used, hlen]
    rw [accept, if_pos hlength, hold, hz.acceptOnce hused, if_pos hinclude, map_some]
  cases includeSignature with
  | true =>
    have hempty : signature = .empty := Padded.isEmpty_used hz (by simpa using h)
    rw [if_pos rfl, hempty, ← hold]
  | false => rw [if_neg Bool.false_ne_true, ← hold]

/-- `put` writes the text where `old` is. -/
theorem fold_text {text : Padded max} {entry : Field} {put : Padded max → Announce}
    (haccept : announce.accept entry = (old.acceptText text.used).map put)
    (hput : put .empty = announce) (hold : old = .empty) (hz : text.Zeroed)
    (htext : (fromUtf8 text.used).isSome = true) :
    (optional (Announce.text text).isSome entry).foldlM Announce.accept announce =
      some (put text) := by
  obtain ⟨hpresent, habsent⟩ := accept_text hold hz htext
  refine foldlM_optional (fun h => ?_) (fun h => ?_)
  · rw [haccept, hpresent h, map_some]
  · rw [habsent h, hput]

theorem fold_wifiChannel (hold : announce.wifiChannel = 0) (hn : n.toNat ≤ 13) :
    (optional (n != 0) (.wifiChannel n.toNat)).foldlM accept announce =
      some { announce with wifiChannel := n } := by
  refine foldlM_optional (fun h => ?_) (fun h => ?_)
  · have hpos : n.toNat ≠ 0 := by simpa [← UInt8.toNat_inj] using h
    rw [accept, if_pos ⟨hold, n.toNat_lt, by omega, hn⟩, UInt8.ofNat_toNat]
  · obtain rfl : n = 0 := by simpa using h
    rw [← hold]

theorem fold_linkLocalV6 (habsent : present = false → address = List.Vector.replicate 16 0) :
    (announce.staLinkLocalV6Present = false ∧ announce.staLinkLocalV6 = List.Vector.replicate 16 0 →
      (optional present (.staLinkLocalV6 address.toList)).foldlM accept announce =
        some { announce with staLinkLocalV6 := address, staLinkLocalV6Present := present }) ∧
    (announce.udpLinkLocalV6Present = false ∧ announce.udpLinkLocalV6 = List.Vector.replicate 16 0 →
      (optional present (.udpLinkLocalV6 address.toList)).foldlM accept announce =
        some { announce with udpLinkLocalV6 := address, udpLinkLocalV6Present := present }) := by
  constructor <;> refine fun hold => foldlM_optional (fun h => ?_) (fun h => ?_)
  iterate 2
    · rw [accept, hold.1, toVector, dif_pos address.toList_length, h]
      rfl
    · rw [habsent h, h, ← hold.1, ← hold.2]

theorem fold_udpPort {n : UInt16} (hold : announce.udpPort = 0) :
    (optional (n != 0) (.udpPort n.toNat)).foldlM accept announce = some { announce with
      udpPort := n } := by
  refine foldlM_optional (fun h => ?_) (fun h => ?_)
  · have hpos : n.toNat ≠ 0 := by simpa [← UInt16.toNat_inj] using h
    rw [accept, if_pos ⟨hold, n.toNat_lt, hpos⟩, UInt16.ofNat_toNat]
  · obtain rfl : n = 0 := by simpa using h
    rw [← hold]

theorem fold_recovery (hold : announce.recovery = false) :
    (optional present (.recovery true)).foldlM accept announce = some { announce with
      recovery := present } := by
  refine foldlM_optional (fun h => ?_) (fun h => ?_)
  · rw [accept, if_neg (by simp [hold]), h]
  · rw [h, ← hold]

variable {announce}

end Fold

/-- The fields fold into the announce, or into what is signed. -/
theorem foldlM_fields {announce : Announce} (hwf : announce.WellFormed) {includeSignature : Bool}
    (hwhole : includeSignature = true → announce.WholeSignature) :
    (announce.fields includeSignature).foldlM accept (.blank announce.kind) =
      some (if includeSignature then announce else announce.unsigned) := by
  obtain ⟨hname, hdomain, hnetwork⟩ := hwf.names
  have hdescriptor : (announce.deviceClass != 0 || announce.probeCapabilities != 0) = false →
      announce.deviceClass = 0 ∧ announce.probeCapabilities = 0 := by simp
  refine foldlM_step (fold_deviceId _ rfl hwf.deviceId hwf.id) ?_
  refine foldlM_step (fold_uptimeSecs _ _) ?_
  refine foldlM_step (fold_deviceClass _ rfl fun h => (hdescriptor h).1) ?_
  refine foldlM_step (fold_probeCapabilities _ rfl fun h => (hdescriptor h).2) ?_
  refine foldlM_step (fold_publicKey _ rfl hwf.publicKey) ?_
  refine foldlM_step (fold_signature _ includeSignature rfl hwf.signature hwhole) ?_
  refine foldlM_step (fold_text _ rfl rfl rfl hwf.deviceName hname) ?_
  refine foldlM_step (fold_text _ rfl rfl rfl hwf.deviceDomain hdomain) ?_
  refine foldlM_step (fold_text _ rfl rfl rfl hwf.networkName hnetwork) ?_
  refine foldlM_step (fold_wifiChannel _ rfl hwf.channel) ?_
  refine foldlM_step ((fold_linkLocalV6 _ hwf.staLinkLocalV6).1 ⟨rfl, rfl⟩) ?_
  refine foldlM_step (fold_udpPort _ rfl) ?_
  refine foldlM_step ((fold_linkLocalV6 _ hwf.udpLinkLocalV6).2 ⟨rfl, rfl⟩) ?_
  refine (fold_recovery _ rfl).trans ?_
  cases includeSignature <;> rfl

/-! ## The size of what is written -/

theorem Padded.length_used_le (field : Padded max) : field.used.length ≤ max := by
  simp only [Padded.used, length_take]
  omega

theorem mem_optional {other : Field} (h : other ∈ optional present field) : other = field := by
  cases present with
  | true => exact mem_singleton.mp h
  | false => cases h

theorem fields_bounded (announce : Announce) (includeSignature : Bool) :
    ∀ field ∈ announce.fields includeSignature, field.Bounded := by
  have hused : ∀ {max : Nat} (field : Padded max), max ≤ 128 → field.used.length < u64Bound :=
    fun field hmax => lt_of_le_of_lt (field.length_used_le.trans hmax) (by decide)
  have haddress : ∀ address : List.Vector UInt8 16, address.toList.length < u64Bound := by
    intro address
    rw [address.toList_length]
    decide
  have hbound : ∀ {n k : Nat}, n < k → k ≤ u64Bound → n < u64Bound := lt_of_lt_of_le
  intro field hfield
  simp only [fields, mem_append] at hfield
  rcases hfield with h | h | h | h | h | h | h | h | h | h | h | h | h | h <;> rw [mem_optional h]
  · exact hused _ (by decide)
  · exact hbound announce.uptimeSecs.toNat_lt (by decide)
  · exact hbound announce.deviceClass.toNat_lt (by decide)
  · exact hbound announce.probeCapabilities.toNat_lt (by decide)
  · exact hused _ (by decide)
  · exact hused _ (by decide)
  · exact hused _ (by decide)
  · exact hused _ (by decide)
  · exact hused _ (by decide)
  · exact hbound announce.wifiChannel.toNat_lt (by decide)
  · exact haddress _
  · exact hbound announce.udpPort.toNat_lt (by decide)
  · exact haddress _
  · trivial

theorem length_fields_le (announce : Announce) (includeSignature : Bool) :
    (announce.fields includeSignature).length ≤ 14 := by
  have hone : ∀ (present : Bool) (field : Field), (optional present field).length ≤ 1 := by
    intro present field
    rw [length_optional]
    exact toNat_le _
  have hsum : ∀ {a b n : Nat}, a ≤ 1 → b ≤ n → a + b ≤ n + 1 := by omega
  simp only [fields, length_append]
  iterate 13 refine hsum (hone _ _) ?_
  exact hone _ _

section Size

variable {cbor : Codec} (h : cbor.Lawful)
include h

theorem length_bytes (field : Field) :
    (field.bytes cbor).length = 1 + (field.value cbor).length := by
  rw [bytes, length_append, h.length_uint, headLength, if_pos field.key_lt]

theorem length_uint_le {n : Nat} (bound : Nat) (hn : n < bound + 1) :
    (cbor.uint n).length ≤ headLength bound := by
  rw [h.length_uint]
  exact headLength_le (le_of_lt_succ hn)

theorem length_used_bytes_le (field : Padded max) :
    (cbor.bytesValue field.used).length ≤ headLength max + max := by
  rw [h.length_bytesValue]
  have hle := field.length_used_le
  have := headLength_le hle
  omega

theorem length_address (address : List.Vector UInt8 16) :
    (cbor.bytesValue address.toList).length ≤ 17 := by
  rw [h.length_bytesValue, address.toList_length]
  decide

theorem length_optional_le {bound : Nat} (hvalue : (field.value cbor).length ≤ bound) :
    ((optional present field).flatMap (bytes cbor)).length ≤ 1 + bound := by
  rw [flatMap_optional]
  cases present with
  | true =>
    rw [if_pos rfl, length_bytes h]
    omega
  | false => exact Nat.zero_le _

/-- With every field in full length. -/
theorem length_flatMap_fields_le (announce : Announce) (includeSignature : Bool) :
    ((announce.fields includeSignature).flatMap (bytes cbor)).length ≤ 337 := by
  have hfield : ∀ {present : Bool} {field : Field} {bound : Nat},
      (field.value cbor).length ≤ bound →
      ((optional present field).flatMap (bytes cbor)).length ≤ 1 + bound := length_optional_le h
  have hused : ∀ {max : Nat} (field : Padded max),
      (cbor.bytesValue field.used).length ≤ headLength max + max :=
    length_used_bytes_le h
  simp only [fields, flatMap_append, length_append]
  refine (Nat.add_le_add (hfield (hused _)) <|
    Nat.add_le_add (hfield (length_uint_le h 4294967295 announce.uptimeSecs.toNat_lt)) <|
    Nat.add_le_add (hfield (length_uint_le h 255 announce.deviceClass.toNat_lt)) <|
    Nat.add_le_add (hfield (length_uint_le h 65535 announce.probeCapabilities.toNat_lt)) <|
    Nat.add_le_add (hfield (hused _)) <| Nat.add_le_add (hfield (hused _)) <|
      Nat.add_le_add (hfield (hused _)) <|
    Nat.add_le_add (hfield (hused _)) <| Nat.add_le_add (hfield (hused _)) <|
    Nat.add_le_add (hfield (length_uint_le h 255 announce.wifiChannel.toNat_lt)) <|
    Nat.add_le_add (hfield (length_address h _)) <|
    Nat.add_le_add (hfield (length_uint_le h 65535 announce.udpPort.toNat_lt)) <|
    Nat.add_le_add (hfield (length_address h _)) (hfield (h.length_boolean true).le)).trans
      (by decide)

end Size

end QuicLite.Discovery
