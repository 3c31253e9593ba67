import QuicLite.Discovery.Fields

/-!
# The announce record is lossless

An announce comes back from every record it is sent in, and no two announces that differ in anything
but their signatures have the same signing bytes. Encoder and decoder never meet: both are compared
with `announceBytes`, in `encodeInner_sound` and `decodeRecord_announce`, of any codec that reads
back what it writes.
-/

namespace QuicLite.Discovery

open Cbor Writer List Option Bool Nat Record Padded

/-! ## The specification -/

variable {cbor : Codec} {kind : Nat} {bs : Bytes}

/-- The announce comes back from every form in which it is sent. -/
structure Lossless (cbor : Codec) (announce : Announce) : Prop where
  encoded : ∃ wire, encode cbor 384 announce = some wire ∧ decodeAnnounce cbor wire = some announce
  directed : announce.kind.toNat = announceDiscovery → ∀ id < u64Bound, ∃ wire record,
    encodeDiscoveryResponse cbor 384 announce id = some wire ∧
      decodeAnnounce cbor wire = some announce ∧
      decode cbor wire = some record ∧ record.id = some id
  facts : announce.kind.toNat = announceDiscovery → ∀ (id : Option Nat) (facts : DiscoveryFacts),
    (∀ n, id = some n → n < u64Bound) → ∃ wire out record,
      encodeInner cbor 384 announce true id = some wire ∧
        encodeWithDiscoveryFacts cbor 448 wire facts = some out ∧
        decodeAnnounce cbor out = some announce ∧ decode cbor out = some record ∧ record.id = id ∧
          discoveryFacts cbor record = some facts
  signed : ∀ wire decoded, encode cbor 384 announce = some wire →
    decodeAnnounce cbor wire = some decoded →
    signingBytes cbor 384 decoded = signingBytes cbor 384 announce

/-! ## The record around the fields -/

/-- An envelope with fields, and extensions or not. -/
def recordBytes (cbor : Codec) (kind : Nat) (id : Option Nat) (fields : Bytes)
    (extensions : Option Bytes) : Bytes :=
  cbor.map (3 + id.isSome.toNat + extensions.isSome.toNat) ++
    ((cbor.uint 1 ++ cbor.uint announceComponent) ++ ((cbor.uint 2 ++ cbor.uint kind) ++
      ((if id.isSome then cbor.uint 3 ++ cbor.uint (id.getD 0) else []) ++
      ((cbor.uint 5 ++ fields) ++
        (if extensions.isSome then cbor.uint 11 ++ extensions.getD [] else [])))))

def recordOf (kind : Nat) (id : Option Nat) (fields : Bytes) (extensions : Option Bytes) : Record :=
  ⟨some (.tag announceComponent), some (.tag kind), id, none, some fields, none, none, none, none,
    none, extensions⟩

section Record

variable {cbor : Codec} {kind : Nat} {id : Option Nat} {fields : Bytes} {extensions : Option Bytes}

section

variable (h : cbor.Lawful) (hkind : kind < u64Bound) (hid : ∀ n, id = some n → n < u64Bound)
  (hfields : cbor.Items 1 fields) (hextensions : ∀ bs, extensions = some bs → cbor.Items 1 bs)
include h hkind hid hfields hextensions

theorem decodePrefix_recordBytes (rest : Bytes) :
    decodePrefix cbor (recordBytes cbor kind id fields extensions ++ rest) =
      some (recordOf kind id fields extensions, rest) := by
  have hcomponent : announceComponent < u64Bound := by decide
  have hhead := fun n (hn : n < 6) rest =>
    h.readHead (Nat.lt_trans hn (by decide : 6 < indefinite)) rest
  have hentries : ∀ n < 6, n ≠ indefinite := fun n hn => Nat.ne_of_lt (Nat.lt_trans hn (by decide))
  cases id with
  | none =>
    cases extensions with
    | none =>
      simp [decodePrefix, recordBytes, recordOf, hhead 3 (by decide), hentries 3 (by decide),
        decodeEntries, decodeEntry_component h _ hcomponent, decodeEntry_method h _ hkind,
        decodeEntry_fields h _ _ hfields, Record.default]
    | some bs =>
      simp [decodePrefix, recordBytes, recordOf, hhead 4 (by decide), hentries 4 (by decide),
        decodeEntries, decodeEntry_component h _ hcomponent, decodeEntry_method h _ hkind,
        decodeEntry_fields h _ _ hfields, decodeEntry_extensions h _ _ (hextensions bs rfl),
        Record.default]
  | some n =>
    cases extensions with
    | none =>
      simp [decodePrefix, recordBytes, recordOf, hhead 4 (by decide), hentries 4 (by decide),
        decodeEntries, decodeEntry_component h _ hcomponent, decodeEntry_method h _ hkind,
        decodeEntry_id h _ (hid n rfl), decodeEntry_fields h _ _ hfields, Record.default]
    | some bs =>
      simp [decodePrefix, recordBytes, recordOf, hhead 5 (by decide), hentries 5 (by decide),
        decodeEntries, decodeEntry_component h _ hcomponent, decodeEntry_method h _ hkind,
        decodeEntry_id h _ (hid n rfl), decodeEntry_fields h _ _ hfields,
        decodeEntry_extensions h _ _ (hextensions bs rfl), Record.default]

theorem decode_recordBytes : decode cbor (recordBytes cbor kind id fields extensions) =
      some (recordOf kind id fields extensions) := by
  have hprefix := decodePrefix_recordBytes h hkind hid hfields hextensions []
  rw [append_nil] at hprefix
  simp [decode, hprefix]

end

end Record

theorem decodable_lt (hkind : kind ∈ decodableKinds) : kind < 24 := by
  have : ∀ kind ∈ decodableKinds, kind < 24 := by decide
  exact this kind hkind

theorem length_recordBytes_le (h : cbor.Lawful) (hkind : kind < 24) (id : Option Nat)
    (fields : Bytes) (extensions : Option Bytes) :
    (recordBytes cbor kind id fields extensions).length ≤
      16 + fields.length + (extensions.map fun bs => 1 + bs.length).getD 0 := by
  have hsmall : ∀ n < 24, (cbor.uint n).length = 1 := by
    intro n hn
    rw [h.length_uint, headLength, if_pos hn]
  have hmap : (cbor.map (3 + id.isSome.toNat + extensions.isSome.toNat)).length = 1 := by
    have := toNat_le id.isSome
    have := toNat_le extensions.isSome
    rw [h.length_map, headLength, if_pos (by omega)]
  have hid : (if id.isSome = true then cbor.uint 3 ++ cbor.uint (id.getD 0) else []).length ≤
      10 := by
    have hnumber : headLength (id.getD 0) ≤ 9 := by
      unfold headLength
      repeat' split
      all_goals omega
    split
    · rw [length_append, hsmall 3 (by decide), h.length_uint]
      omega
    · exact zero_le _
  have hextensions : (if extensions.isSome = true then
      cbor.uint 11 ++ extensions.getD [] else []).length =
      (extensions.map fun bs => 1 + bs.length).getD 0 := by
    cases extensions with
    | none => rfl
    | some bs => simp [hsmall 11 (by decide)]
  simp only [recordBytes, length_append, hsmall 1 (by decide), hsmall 2 (by decide),
    hsmall 5 (by decide), hsmall announceComponent (by decide), hsmall kind hkind]
  omega

theorem length_fieldsBytes_le (h : cbor.Lawful) (announce : Announce) (includeSignature : Bool) :
    (fieldsBytes cbor (announce.fields includeSignature)).length ≤ 338 := by
  have hfields := length_flatMap_fields_le h announce includeSignature
  have hcount := length_fields_le announce includeSignature
  rw [fieldsBytes, length_append, h.length_map, headLength, if_pos (by omega)]
  omega

section Encode

variable (cbor : Codec) (capacity : Nat) (announce : Announce) (includeSignature : Bool)
    (id : Option Nat)

/-- The record of an announce. -/
def announceBytes : Bytes :=
  recordBytes cbor announce.kind.toNat id (fieldsBytes cbor (announce.fields includeSignature)) none

theorem writes_announce : Writes () capacity
      (fun out => putEnvelope cbor capacity announce.kind.toNat id (if id.isSome then 4 else 3)
        out >>= fun out =>
        put capacity (cbor.uint 5) out >>= putFields cbor capacity announce includeSignature)
      (announceBytes cbor announce includeSignature id) True := by
  have hentry := writes_putEntry cbor capacity
  have henvelope : Writes () capacity
      (putEnvelope cbor capacity announce.kind.toNat id (if id.isSome then 4 else 3)) _ True :=
    writes_bind (writes_put capacity _) <| writes_bind (hentry _ _) <| writes_bind (hentry _ _)
      (writes_putWhen _ (hentry _ _))
  refine .congr (writes_bind henvelope <| writes_bind (writes_put capacity _)
    (writes_putFields cbor capacity announce includeSignature)) Iff.rfl ?_
  cases id <;> simp [announceBytes, recordBytes]

/-- Whatever is encoded is the record. -/
theorem encodeInner_sound {wire : Bytes}
    (h : encodeInner cbor capacity announce includeSignature id = some wire) :
    wire = announceBytes cbor announce includeSignature id := by
  unfold encodeInner at h
  dsimp only at h
  split at h
  · cases h
  split at h
  · cases h
  split at h
  · cases h
  · exact ((toOption_eq_some (writes_announce cbor capacity announce includeSignature id) wire).mp
      h).2

variable {cbor capacity announce includeSignature id}

theorem length_announceBytes (h : cbor.Lawful) (hkind : announce.kind.toNat ∈ decodableKinds) :
    (announceBytes cbor announce includeSignature id).length ≤ 354 := by
  have hle := length_recordBytes_le h (decodable_lt hkind) id
    (fieldsBytes cbor (announce.fields includeSignature)) none
  have hfields := length_fieldsBytes_le h announce includeSignature
  simp only [map_none, getD_none] at hle
  rw [announceBytes]
  omega

theorem encodeInner_complete (hwf : announce.WellFormed)
    (hfits : (announceBytes cbor announce includeSignature id).length ≤ capacity) :
    encodeInner cbor capacity announce includeSignature id =
      some (announceBytes cbor announce includeSignature id) := by
  have hused : ∀ {max : Nat} {field : Padded max}, field.Zeroed →
      (field.used.isEmpty = true ↔ field.len = 0) := by
    intro max field hz
    rw [List.isEmpty_iff, ← List.length_eq_zero_iff, hz.length_used]
  have hid : ¬ announce.deviceId.used.isEmpty = true := fun h => hwf.id ((hused hwf.deviceId).mp h)
  have hport : ¬ (announce.udpPort != 0 && !announce.udpLinkLocalV6Present) = true := by
    rcases hwf.port with h | h <;> simp [h]
  have hsame : announce.signature.used.isEmpty = announce.publicKey.used.isEmpty := by
    rw [Bool.eq_iff_iff, hused hwf.signature, hused hwf.publicKey]
    exact hwf.identity.symm
  have hidentity : ¬ ((includeSignature && (!announce.signature.used.isEmpty) !=
      !announce.publicKey.used.isEmpty) ||
      (!includeSignature && !announce.signature.used.isEmpty &&
        !!announce.publicKey.used.isEmpty)) = true := by
    rw [hsame]
    cases announce.publicKey.used.isEmpty <;> simp
  unfold encodeInner
  rw [if_neg hid, if_neg hport, if_neg hidentity]
  exact (toOption_eq_some (writes_announce cbor capacity announce includeSignature id) _).mpr
    ⟨hfits, rfl⟩

end Encode

/-! ## Reading the record -/

section Decode

theorem items_announce (cbor : Codec) (announce : Announce) (includeSignature : Bool) :
    cbor.Items 1 (fieldsBytes cbor (announce.fields includeSignature)) := by
  refine .one_map (lt_of_le_of_lt (length_fields_le announce includeSignature) (by decide)) ?_
  exact items_fields (fields_bounded announce includeSignature)

variable {cbor : Codec} (h : cbor.Lawful) {announce : Announce} {id : Option Nat}
include h

/-- The record's fields, folded. -/
theorem decodeFields_announce (announce : Announce) (includeSignature : Bool) (kind : UInt64) :
    ((cbor.readHead (fieldsBytes cbor (announce.fields includeSignature))).bind fun read =>
        decodeFields cbor read.1.2 (.blank kind) read.2) =
      ((announce.fields includeSignature).foldlM Announce.accept (.blank kind)).map fun next =>
        (next, []) := by
  have hcount : (announce.fields includeSignature).length < indefinite :=
    lt_of_le_of_lt (length_fields_le announce includeSignature) (by decide)
  have hfold := decodeFields_bytes h _ (fields_bounded announce includeSignature) [] (.blank kind)
  rw [append_nil] at hfold
  rw [fieldsBytes, h.readHead hcount]
  exact hfold

theorem decode_announceBytes (announce : Announce) (includeSignature : Bool)
    (hid : ∀ n, id = some n → n < u64Bound) :
    decode cbor (announceBytes cbor announce includeSignature id) =
      some (recordOf announce.kind.toNat id (fieldsBytes cbor (announce.fields includeSignature))
        none) :=
  decode_recordBytes h announce.kind.toNat_lt hid (items_announce cbor announce includeSignature)
    (by simp)

theorem decodeRecord_announce (hwf : announce.WellFormed) (hwhole : announce.WholeSignature)
    (extensions : Option Bytes) :
    decodeRecord cbor (recordOf announce.kind.toNat id (fieldsBytes cbor (announce.fields true))
      extensions) =
      some announce := by
  have hkind : announceKind
      (recordOf announce.kind.toNat id (fieldsBytes cbor (announce.fields true)) extensions) =
      some announce.kind := by
    simp [announceKind, recordOf, hwf.kind]
  have hcount : (announce.fields true).length < indefinite :=
    lt_of_le_of_lt (length_fields_le announce true) (by decide)
  have hfold := decodeFields_bytes h _ (fields_bounded announce true) [] (.blank announce.kind)
  rw [append_nil, foldlM_fields hwf fun _ => hwhole] at hfold
  have hcheck : announce.deviceId.len ≠ 0 ∧
      (announce.publicKey.len = 0 ↔ announce.signature.len = 0) ∧
      (announce.udpPort = 0 ∨ announce.udpLinkLocalV6Present = true) ∧ True :=
    ⟨hwf.id, hwf.identity, hwf.port, trivial⟩
  rw [decodeRecord, hkind]
  simp only [bind_eq_bind, bind_some, recordOf, fieldsBytes, h.readHead hcount]
  rw [if_neg (by simpa using Nat.ne_of_lt hcount), hfold]
  simp only [map_some, bind_some]
  exact if_pos hcheck

theorem decodeAnnounce_recordBytes (hwf : announce.WellFormed) (hwhole : announce.WholeSignature)
    (hid : ∀ n, id = some n → n < u64Bound) {extensions : Option Bytes}
    (hextensions : ∀ bs, extensions = some bs → cbor.Items 1 bs) :
    decodeAnnounce cbor (recordBytes cbor announce.kind.toNat id
      (fieldsBytes cbor (announce.fields true)) extensions) =
      some announce := by
  rw [decodeAnnounce, decode_recordBytes h announce.kind.toNat_lt hid
    (items_announce cbor announce true) hextensions]
  exact decodeRecord_announce h hwf hwhole extensions

end Decode

/-! ## Facts -/

section Facts

def factsBytes (cbor : Codec) (facts : DiscoveryFacts) : Bytes :=
  cbor.map (2 + facts.nanClusterSuffix.isSome.toNat) ++ ((if facts.nanClusterSuffix.isSome then
        cbor.uint 1 ++ cbor.bytesValue
          ((facts.nanClusterSuffix.map List.Vector.toList).getD []) else []) ++
      ((cbor.uint 2 ++ cbor.uint facts.nanServiceObservations.toNat) ++
        (cbor.uint 3 ++ cbor.uint facts.nanVisibleNodes.toNat)))

theorem writes_putFacts (cbor : Codec) (capacity : Nat) (facts : DiscoveryFacts) :
    Writes () capacity (putFacts cbor capacity facts) (factsBytes cbor facts) True := by
  have hentry := writes_putEntry cbor capacity
  exact writes_bind (writes_put capacity _) <| writes_bind (writes_putWhen _ (hentry _ _)) <|
    writes_bind (hentry _ _) (hentry _ _)

variable {cbor : Codec} (h : cbor.Lawful) (facts : DiscoveryFacts)

theorem items_facts : cbor.Items 1 (factsBytes cbor facts) := by
  have hcounters : cbor.Items 4 ((cbor.uint 2 ++ cbor.uint facts.nanServiceObservations.toNat) ++
      (cbor.uint 3 ++ cbor.uint facts.nanVisibleNodes.toNat)) := by
    have hlt : ∀ n : UInt16, n.toNat < u64Bound := fun n => lt_of_lt_of_le n.toNat_lt (by decide)
    have hlast : cbor.Items 1 (cbor.uint facts.nanVisibleNodes.toNat ++ []) :=
      .uint _ (hlt facts.nanVisibleNodes) .none
    rw [append_nil] at hlast
    rw [append_assoc]
    exact .uint 2 (by decide) (.uint _ (hlt _) (.uint 3 (by decide) hlast))
  cases hsuffix : facts.nanClusterSuffix with
  | none =>
    rw [factsBytes, hsuffix]
    exact .one_map (show 2 < indefinite by decide) hcounters
  | some suffix =>
  rw [factsBytes, hsuffix]
  refine .one_map (show 3 < indefinite by decide) ?_
  have hlength : suffix.toList.length < u64Bound := by
    rw [suffix.toList_length]
    decide
  show cbor.Items 6 ((cbor.uint 1 ++ cbor.bytesValue suffix.toList) ++ _)
  rw [append_assoc]
  exact .uint 1 (by decide) (.bytesValue _ hlength hcounters)

include h

theorem length_factsBytes : (factsBytes cbor facts).length ≤ 14 := by
  have hsmall : ∀ n ≤ 23, (cbor.uint n).length = 1 := by
    intro n hn
    rw [h.length_uint, headLength, if_pos (by omega)]
  have hcounter : ∀ n : UInt16, (cbor.uint n.toNat).length ≤ 3 :=
    fun n => length_uint_le h 65535 n.toNat_lt
  have hservices := hcounter facts.nanServiceObservations
  have hnodes := hcounter facts.nanVisibleNodes
  have hmap : (cbor.map (2 + facts.nanClusterSuffix.isSome.toNat)).length = 1 := by
    have := toNat_le facts.nanClusterSuffix.isSome
    rw [h.length_map, headLength, if_pos (by omega)]
  have hsuffix : (if facts.nanClusterSuffix.isSome = true then
      cbor.uint 1 ++ cbor.bytesValue ((facts.nanClusterSuffix.map List.Vector.toList).getD []) else
        []).length ≤ 5 := by
    cases facts.nanClusterSuffix with
    | none => exact zero_le _
    | some suffix =>
      show (cbor.uint 1 ++ cbor.bytesValue suffix.toList).length ≤ 5
      rw [length_append, hsmall 1 (by decide), h.length_bytesValue, suffix.toList_length]
      decide
  simp only [factsBytes, length_append, hsmall 2 (by decide), hsmall 3 (by decide)]
  omega

/-- The two counters end the map. -/
theorem decodeFacts_counters (suffix : Option (List.Vector UInt8 3)) (services nodes : UInt16) :
    decodeFacts cbor 2 ⟨⟨suffix, 0, 0⟩, false, false⟩
        ((cbor.uint 2 ++ cbor.uint services.toNat) ++ (cbor.uint 3 ++ cbor.uint nodes.toNat)) =
      some (⟨⟨suffix, services, nodes⟩, true, true⟩, []) := by
  have hread : ∀ (n : Nat) (rest : Bytes), n < 2 ^ 16 →
      cbor.readUint (cbor.uint n ++ rest) = some (n, rest) :=
    fun n rest hn => h.readUint (lt_of_lt_of_le hn (by decide)) rest
  have hservices := hread services.toNat (cbor.uint 3 ++ cbor.uint nodes.toNat) services.toNat_lt
  have hnodes := hread nodes.toNat [] nodes.toNat_lt
  rw [append_nil] at hnodes
  have hfirst : decodeFact cbor ⟨⟨suffix, 0, 0⟩, false, false⟩
      (cbor.uint 2 ++ (cbor.uint services.toNat ++ (cbor.uint 3 ++ cbor.uint nodes.toNat))) =
        some (⟨⟨suffix, services, 0⟩, true, false⟩, cbor.uint 3 ++ cbor.uint nodes.toNat) := by
    rw [decodeFact]
    simp only [hread 2 _ (by decide), hservices, bind_eq_bind, bind_some]
    simp [services.toNat_lt]
  have hsecond : decodeFact cbor ⟨⟨suffix, services, 0⟩, true, false⟩
      (cbor.uint 3 ++ cbor.uint nodes.toNat) =
      some (⟨⟨suffix, services, nodes⟩, true, true⟩, []) := by
    rw [decodeFact]
    simp only [hread 3 _ (by decide), hnodes, bind_eq_bind, bind_some]
    simp [nodes.toNat_lt]
  rw [append_assoc, decodeFacts, hfirst]
  show (decodeFact cbor _ _).bind _ = _
  rw [hsecond]
  rfl

theorem discoveryFacts_facts (kind : Nat) (id : Option Nat) (fields : Bytes) :
    discoveryFacts cbor (recordOf kind id fields (some (factsBytes cbor facts))) = some facts := by
  obtain ⟨suffix, services, nodes⟩ := facts
  have hcounters := decodeFacts_counters h
  cases suffix with
  | none =>
    have hhead := h.readHead (show 2 < indefinite by decide)
    show (cbor.readHead (cbor.map 2 ++ ([] ++ _))).bind _ = _
    rw [nil_append, hhead, bind_some]
    dsimp only
    rw [hcounters]
    rfl
  | some suffix =>
    have hlength : suffix.toList.length < u64Bound := by
      rw [suffix.toList_length]
      decide
    have hhead := h.readHead (show 3 < indefinite by decide)
    have hsuffix : decodeFact cbor ⟨⟨none, 0, 0⟩, false, false⟩
        (cbor.uint 1 ++ (cbor.bytesValue suffix.toList ++
        ((cbor.uint 2 ++ cbor.uint services.toNat) ++ (cbor.uint 3 ++ cbor.uint nodes.toNat)))) =
          some (⟨⟨some suffix, 0, 0⟩, false, false⟩,
            (cbor.uint 2 ++ cbor.uint services.toNat) ++
              (cbor.uint 3 ++ cbor.uint nodes.toNat)) := by
      rw [decodeFact]
      simp only [h.readUint (show 1 < u64Bound by decide), h.readBytes hlength, bind_eq_bind,
        bind_some]
      simp only [toVector, dif_pos suffix.toList_length]
      rfl
    show (cbor.readHead (cbor.map 3 ++ ((cbor.uint 1 ++ cbor.bytesValue suffix.toList) ++ _))).bind
      _ = _
    rw [hhead, bind_some]
    dsimp only
    rw [decodeFacts, append_assoc, hsuffix, bind_some, hcounters]
    rfl

end Facts

section

variable {cbor : Codec} (h : cbor.Lawful) {announce : Announce} (hwf : announce.WellFormed)
  (hwhole : announce.WholeSignature)
include h hwf hwhole

theorem encodeWithDiscoveryFacts_announce (hkind : announce.kind.toNat = announceDiscovery)
    {id : Option Nat} (hid : ∀ n, id = some n → n < u64Bound) (facts : DiscoveryFacts) :
    encodeWithDiscoveryFacts cbor 448 (announceBytes cbor announce true id) facts =
      some (recordBytes cbor announce.kind.toNat id (fieldsBytes cbor (announce.fields true))
        (some (factsBytes cbor facts))) := by
  have hrecord : decodeRecord cbor
      (recordOf announce.kind.toNat id (fieldsBytes cbor (announce.fields true)) none) =
      some announce := decodeRecord_announce h hwf hwhole none
  have hentry := writes_putEntry cbor 448
  have hwrites := writes_bind (writes_put 448 (cbor.map (if id.isSome then 5 else 4))) <|
    writes_bind (hentry 1 (cbor.uint announceComponent)) <|
      writes_bind (hentry 2 (cbor.uint announce.kind.toNat)) <|
    writes_bind (writes_putWhen id.isSome (hentry 3 (cbor.uint (id.getD 0)))) <|
    writes_bind (hentry 5 (fieldsBytes cbor (announce.fields true))) <|
    writes_bind (writes_put 448 (cbor.uint 11)) (writes_putFacts cbor 448 facts)
  have hbytes := hwrites.congr Iff.rfl (show _ = recordBytes cbor announce.kind.toNat id
      (fieldsBytes cbor (announce.fields true))
        (some (factsBytes cbor facts)) by cases id <;> simp [recordBytes])
  have hfits : (recordBytes cbor announce.kind.toNat id (fieldsBytes cbor (announce.fields true))
      (some (factsBytes cbor facts))).length ≤ 448 := by
    have hle := length_recordBytes_le h (decodable_lt hwf.kind) id
      (fieldsBytes cbor (announce.fields true))
      (some (factsBytes cbor facts))
    have := length_fieldsBytes_le h announce true
    have := length_factsBytes h facts
    simp only [map_some, getD_some] at hle
    omega
  rw [encodeWithDiscoveryFacts, decode_announceBytes h announce true hid]
  simp only [bind_eq_bind, bind_some, hrecord]
  rw [if_neg (not_not.mpr hkind)]
  exact (toOption_eq_some hbytes _).mpr ⟨hfits, rfl⟩

/-! ## The result -/

theorem lossless : Lossless cbor announce where
  encoded := by
    refine ⟨announceBytes cbor announce true none, ?_,
      decodeAnnounce_recordBytes h hwf hwhole (by simp) (by simp)⟩
    exact encodeInner_complete hwf ((length_announceBytes h hwf.kind).trans (by decide))
  directed := by
    intro hkind id hid
    have hids : ∀ n, some id = some n → n < u64Bound := fun n hn => some.inj hn ▸ hid
    refine ⟨announceBytes cbor announce true (some id), _, ?_,
      decodeAnnounce_recordBytes h hwf hwhole hids (by simp),
      decode_announceBytes h announce true hids, rfl⟩
    rw [encodeDiscoveryResponse, if_neg (not_not.mpr hkind)]
    exact encodeInner_complete hwf ((length_announceBytes h hwf.kind).trans (by decide))
  facts := by
    intro hkind id facts hid
    have hextensions : ∀ bs, some (factsBytes cbor facts) = some bs → cbor.Items 1 bs :=
      fun bs hbs => some.inj hbs ▸ items_facts facts
    refine ⟨announceBytes cbor announce true id, _, _, ?_,
      encodeWithDiscoveryFacts_announce h hwf hwhole hkind hid facts,
      decodeAnnounce_recordBytes h hwf hwhole hid hextensions,
      decode_recordBytes h announce.kind.toNat_lt hid (items_announce cbor announce true)
      hextensions, rfl, discoveryFacts_facts h facts _ _ _⟩
    exact encodeInner_complete hwf ((length_announceBytes h hwf.kind).trans (by decide))
  signed := by
    intro wire decoded hwire hdecoded
    rw [encodeInner_sound cbor 384 announce true none hwire, announceBytes,
      decodeAnnounce_recordBytes h hwf hwhole (by simp) (by simp)] at hdecoded
    rw [some.inj hdecoded]

end

/-- Announces with the same signing bytes differ in their signatures only. -/
theorem signingBytes_inj (h : cbor.Lawful) {first second : Announce} (hfirst : first.WellFormed)
    (hsecond : second.WellFormed) {capacity room : Nat}
    (hbs : signingBytes cbor capacity first = some bs)
    (hsame : signingBytes cbor room second = some bs) : first.unsigned = second.unsigned := by
  have hsound : ∀ {announce : Announce} {capacity : Nat},
      signingBytes cbor capacity announce = some bs →
      bs = announceBytes cbor announce false none := by
    intro announce capacity hsigning
    unfold signingBytes at hsigning
    split at hsigning
    · cases hsigning
    · exact encodeInner_sound cbor capacity announce false none hsigning
  have hbytes := (hsound hbs).symm.trans (hsound hsame)
  have hrecords : decode cbor (announceBytes cbor first false none) = _ :=
    decode_announceBytes h first false (by simp)
  rw [hbytes, decode_announceBytes h second false (by simp)] at hrecords
  have hrecord := some.inj hrecords
  have hkind : second.kind = first.kind := by
    have := some.inj (congrArg method hrecord)
    exact UInt64.toNat_inj.mp (Name.tag.inj this)
  have hfields : fieldsBytes cbor (second.fields false) = fieldsBytes cbor (first.fields false) :=
    some.inj (congrArg fields hrecord)
  have hread := decodeFields_announce h first false first.kind
  rw [← hfields, decodeFields_announce h second false, ← hkind,
    foldlM_fields hsecond fun hfalse => absurd hfalse false_ne_true, hkind,
    foldlM_fields hfirst fun hfalse => absurd hfalse false_ne_true] at hread
  exact (congrArg Prod.fst (some.inj hread)).symm

/-- The announce record is lossless, and its signature covers every other field. -/
theorem announce_lossless {cbor : Codec} (h : cbor.Lawful) :
    (∀ announce : Announce, announce.WellFormed → announce.WholeSignature →
      Lossless cbor announce) ∧
      ∀ (first second : Announce) (capacity room : Nat) (bs : Bytes), first.WellFormed →
        second.WellFormed →
        signingBytes cbor capacity first = some bs → signingBytes cbor room second = some bs →
          first.unsigned = second.unsigned :=
  ⟨fun _ => lossless h, fun _ _ _ _ _ hfirst hsecond => signingBytes_inj h hfirst hsecond⟩

/-! ## On the wire -/

namespace Padded

variable {max : Nat}

theorem zeroed_empty : (empty : Padded max).Zeroed := ⟨zero_le _, rfl⟩

theorem isSome_empty : (fromUtf8 (empty : Padded max).used).isSome = true := by
  rw [show (empty : Padded max).used = [] by simp [used, empty]]
  decide

theorem zeroed_store (h : bs.length ≤ max) : ((empty : Padded max).store bs h).Zeroed := by
  refine ⟨h, ?_⟩
  show (bs ++ (replicate max (0 : UInt8)).drop bs.length).drop bs.length = _
  rw [drop_left, drop_replicate]
  rfl

end Padded

/-- An announce of a kind, with an id of one byte, a key of two and a signature. -/
def signedAnnounce (kind : UInt64) (signature : Padded 64) : Announce :=
  { Announce.blank kind with
    deviceId := empty.store [7] (le_of_ble_eq_true rfl)
    publicKey := empty.store [2, 9] (le_of_ble_eq_true rfl)
    signature := signature }

theorem signedAnnounce_wellFormed {kind : UInt64} {signature : Padded 64}
    (hkind : kind.toNat ∈ decodableKinds) (hz : signature.Zeroed) (hlen : signature.len ≠ 0) :
    (signedAnnounce kind signature).WellFormed where
  kind := hkind
  id := one_ne_zero
  deviceId := zeroed_store (le_of_ble_eq_true rfl)
  publicKey := zeroed_store (le_of_ble_eq_true rfl)
  signature := hz
  deviceName := zeroed_empty
  deviceDomain := zeroed_empty
  networkName := zeroed_empty
  staLinkLocalV6 := fun _ => rfl
  udpLinkLocalV6 := fun _ => rfl
  identity := ⟨fun h => absurd h (by decide : (2 : Nat) ≠ 0), fun h => absurd h hlen⟩
  names := ⟨isSome_empty, isSome_empty, isSome_empty⟩
  channel := zero_le _
  port := .inl rfl

/-- A whole signature, all of one byte. -/
def flatSignature (b : UInt8) : Padded 64 :=
  empty.store (replicate 64 b) length_replicate.le

def partSignature : Padded 64 := empty.store [1] (le_of_ble_eq_true rfl)

/-- Only a discovery announce is sent as a reply, and a part of a signature is not read. -/
theorem wake_not_directed : minimal.Lawful ∧ ((signedAnnounce 8 (flatSignature 1)).WellFormed ∧
        encodeDiscoveryResponse minimal 384 (signedAnnounce 8 (flatSignature 1)) 71 = none) ∧
      ((signedAnnounce 2 partSignature).WellFormed ∧
        (encode minimal 384 (signedAnnounce 2 partSignature)).isSome = true ∧
        (encode minimal 384 (signedAnnounce 2 partSignature)).bind
          (decodeAnnounce minimal) = none) := by
  refine ⟨minimal_lawful, ⟨signedAnnounce_wellFormed (by decide) (zeroed_store _) (by decide),
    by decide⟩,
    signedAnnounce_wellFormed (by decide) (zeroed_store _) (by decide), by decide +kernel,
      by decide +kernel⟩

theorem signed_announce_lossless : Lossless minimal (signedAnnounce 2 (flatSignature 1)) ∧
      (signedAnnounce 2 (flatSignature 1)).unsigned =
        (signedAnnounce 2 (flatSignature 3)).unsigned := by
  have hwf : ∀ b, (signedAnnounce 2 (flatSignature b)).WellFormed :=
    fun b => signedAnnounce_wellFormed (by decide) (zeroed_store _) (by simp [flatSignature, store])
  have hlossless := announce_lossless minimal_lawful
  refine ⟨hlossless.1 _ (hwf 1) (.inr rfl), ?_⟩
  have hsigning : signingBytes minimal 384 (signedAnnounce 2 (flatSignature 1)) =
      some [0xa3, 1, 6, 2, 2, 5, 0xa3, 1, 0x41, 7, 2, 0, 5, 0x42, 2, 9] := by decide +kernel
  have hsame : signingBytes minimal 384 (signedAnnounce 2 (flatSignature 3)) =
      some [0xa3, 1, 6, 2, 2, 5, 0xa3, 1, 0x41, 7, 2, 0, 5, 0x42, 2, 9] := by decide +kernel
  exact hlossless.2 _ _ 384 384 _ (hwf 1) (hwf 3) hsigning hsame

end QuicLite.Discovery
