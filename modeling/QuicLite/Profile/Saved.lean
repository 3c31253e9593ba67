import Mathlib.Data.List.Nodup
import QuicLite.Lib.CborItems
import QuicLite.Profile.Config

/-!
# Requests as bytes

A request is a map from numbers to values, one entry for each field that it names. The codec of the
items is a parameter. `decodeRequest_settings` says what a map of well-formed entries decodes to, in
whatever order they come: it is refused exactly when a key below 64 is repeated, or a value is not
valid.
-/

namespace QuicLite.Profile

open Cbor Writer Option Nat QuicLite.Profile.Field TransportRequest Writes Function
open List hiding count

/-! ## Modes and keys -/

variable {s : Setting} {codec : Codec}

def modeNumber : TransportKind → Nat
  | .off => 0
  | .sta => 1
  | .uart => 5
  | .nan => 6

def transportKind (value : Nat) : Option TransportKind :=
  if value = 0 then some .off
  else if value = 1 then some .sta
  else if value = 5 then some .uart
  else if value = 6 then some .nan
  else none

theorem transportKind_modeNumber (kind : TransportKind) :
    transportKind (modeNumber kind) = some kind := by
  cases kind <;> rfl

namespace Field

/-- The key that the encoder writes. -/
def tag : Field → Nat
  | .ssid => 2
  | .bssid => 3
  | .channel => 4
  | .rawTxRate => 5
  | .staDriverTx => 6
  | .staBssidCheckDisabled => 7
  | .staAmpduEnabled => 8
  | .sta11bRatesDisabled => 9
  | .staRawRxEnabled => 10
  | .espnowCapture => 13
  | .nanDwInterval => 14
  | .now => 15
  | .ap => 16
  | .passphrase => 17
  | .uart => 18
  | .ndp => 19
  | .isOpen => 24
  | .wakeTarget => 25
  | .ble => 26
  | .iface => 27
  | .uartMode => 28
  | .uartBaud => 29
  | .uartPort => 30
  | .radioMode => 31
  | .radioFrequency => 32
  | .radioBandwidth => 33
  | .radioBitrate => 34
  | .radioTxPower => 35
  | .radioSpreadingFactor => 36
  | .radioCodingRate => 37
  | .apSsid => 38
  | .apPassphrase => 39

/-- The keys that the decoder knows, with the fields it sets there. -/
def keys : List (Nat × Field) :=
  [(2, .ssid), (3, .bssid), (4, .channel), (5, .rawTxRate), (6, .staDriverTx),
    (7, .staBssidCheckDisabled), (8, .staAmpduEnabled), (9, .sta11bRatesDisabled),
    (10, .staRawRxEnabled), (13, .espnowCapture), (14, .nanDwInterval), (15, .now), (16, .ap),
    (17, .passphrase), (18, .uart), (19, .ndp), (24, .isOpen), (25, .wakeTarget), (26, .ble),
    (27, .iface), (28, .uartMode), (29, .uartBaud), (30, .uartPort), (31, .radioMode),
    (32, .radioFrequency), (33, .radioBandwidth), (34, .radioBitrate), (35, .radioTxPower),
    (36, .radioSpreadingFactor), (37, .radioCodingRate), (38, .apSsid), (39, .apPassphrase)]

def ofKey (key : Nat) : Option Field := keys.lookup key

theorem ofKey_tag (k : Field) : ofKey k.tag = some k := by
  cases k <;> rfl

theorem tag_injective {j k : Field} (h : j.tag = k.tag) : j = k := by
  have hj := ofKey_tag j
  rw [h, ofKey_tag k] at hj
  exact (some.inj hj).symm

instance : DecidableEq Field :=
  fun j k => decidable_of_iff (j.tag = k.tag) ⟨tag_injective, congrArg tag⟩

theorem tag_range (k : Field) : 1 < k.tag ∧ k.tag < 64 := by
  cases k <;> decide

theorem key_lt {key : Nat} (h : (ofKey key).isSome = true) : key < 64 := by
  obtain ⟨entry, hentry, heq⟩ := lookup_isSome_iff.mp h
  rw [eq_of_beq heq]
  exact (by decide : ∀ entry ∈ keys, entry.1 < 64) entry hentry

theorem nodup_tags : (all.map tag).Nodup := by decide

end Field

/-! ## Values -/

def hexDigit (v : UInt8) : Option UInt8 :=
  if 48 ≤ v ∧ v ≤ 57 then some (v - 48)
  else if 97 ≤ v ∧ v ≤ 102 then some (v - 97 + 10)
  else if 65 ≤ v ∧ v ≤ 70 then some (v - 65 + 10)
  else none

/-- The byte at position `i` of an address in colon notation. -/
def bssidByte (text : List UInt8) (i : Nat) : Option UInt8 :=
  if i ≠ 5 ∧ text.getD (i * 3 + 2) 0 ≠ 58 then none
  else do
    let high ← hexDigit (text.getD (i * 3) 0)
    let low ← hexDigit (text.getD (i * 3 + 1) 0)
    some (high * 16 + low)

def toMac (bytes : List UInt8) : Option (Bytes 6) :=
  if h : bytes.length = 6 then some ⟨bytes, h⟩ else none

def parseBssidText (text : List UInt8) : Option (Bytes 6) :=
  if text.length ≠ 17 then none else ((range 6).mapM (bssidByte text)).bind toMac

section Read

variable (codec : Codec)

/-- A text, or else a byte string. -/
def readBytes (bs : List UInt8) : Option (List UInt8 × List UInt8) :=
  match codec.readText bs with
  | some read => some read
  | none => codec.readBytes bs

/-- Six bytes, or else their notation. -/
def readMac (bs : List UInt8) : Option (Bytes 6 × List UInt8) :=
  match codec.readBytes bs with
  | some (bytes, rest) => (toMac bytes).map fun mac => (mac, rest)
  | none =>
    match codec.readText bs with
    | some (text, rest) => (parseBssidText text).map fun mac => (mac, rest)
    | none => none

def readByte (bs : List UInt8) : Option (UInt8 × List UInt8) :=
  match codec.readUint bs with
  | some (n, rest) => if n < 256 then some (UInt8.ofNat n, rest) else none
  | none => none

def readWord (bs : List UInt8) : Option (UInt32 × List UInt8) :=
  match codec.readUint bs with
  | some (n, rest) => if n < 4294967296 then some (UInt32.ofNat n, rest) else none
  | none => none

def readPower (bs : List UInt8) : Option (Int32 × List UInt8) :=
  match codec.readInt bs with
  | some (i, rest) => if -2147483648 ≤ i ∧ i < 2147483648 then some (Int32.ofInt i, rest) else none
  | none => none

end Read

namespace Shape

/-- The item that the encoder writes for a value. -/
def item : (shape : Shape) → shape.Value → Item
  | .text _, v => .text v
  | .address, v => .bytes v.val
  | .channel, v => .uint (UInt8.toNat v)
  | .byte, v => .uint (UInt8.toNat v)
  | .flag, v => .boolean v
  | .word, v => .uint (UInt32.toNat v)
  | .power, v => .int (Int32.toInt v)
  | .target, v => .bytes v.val
  | .name, v => .text v

def decode (codec : Codec) : (shape : Shape) → List UInt8 → Option (shape.Value × List UInt8)
  | .text _, bs => readBytes codec bs
  | .address, bs => readMac codec bs
  | .channel, bs => readByte codec bs
  | .byte, bs => readByte codec bs
  | .flag, bs => codec.readBoolean bs
  | .word, bs => readWord codec bs
  | .power, bs => readPower codec bs
  | .target, bs => readMac codec bs
  | .name, bs => readBytes codec bs

end Shape

section Values

variable {codec : Codec} (hcodec : codec.Plain)

include hcodec

theorem readBytes_text {v : List UInt8} (h : (Item.text v).Sound) (rest : List UInt8) :
    readBytes codec (codec.textValue v ++ rest) = some (v, rest) := by
  rw [readBytes, hcodec.readText h]

theorem readMac_bytes (v : Bytes 6) (rest : List UInt8) :
    readMac codec (codec.bytesValue v.val ++ rest) = some (v, rest) := by
  have hsound : (Item.bytes v.val).Sound := by
    show v.val.length < u64Bound
    rw [v.property]
    decide
  rw [readMac, hcodec.readBytes hsound]
  simp only [toMac, dif_pos v.property, map_some]

theorem readByte_uint (v : UInt8) (rest : List UInt8) :
    readByte codec (codec.uint v.toNat ++ rest) = some (v, rest) := by
  have hsound : (Item.uint v.toNat).Sound := lt_of_lt_of_le v.toNat_lt (by decide)
  rw [readByte, hcodec.readUint hsound]
  simp only [if_pos v.toNat_lt, UInt8.ofNat_toNat]

theorem readWord_uint (v : UInt32) (rest : List UInt8) :
    readWord codec (codec.uint v.toNat ++ rest) = some (v, rest) := by
  have hsound : (Item.uint v.toNat).Sound := lt_of_lt_of_le v.toNat_lt (by decide)
  rw [readWord, hcodec.readUint hsound]
  simp only [if_pos v.toNat_lt, UInt32.ofNat_toNat]

theorem readPower_int (v : Int32) (rest : List UInt8) :
    readPower codec (codec.int v.toInt ++ rest) = some (v, rest) := by
  have hlow := v.le_toInt
  have hhigh := v.toInt_lt
  have hsound : (Item.int v.toInt).Sound := ⟨by omega, by omega⟩
  rw [readPower, hcodec.readInt hsound]
  simp only
  rw [if_pos ⟨by omega, by omega⟩, Int32.ofInt_toInt]

/-- Every value is read back, and nothing else consumed. -/
theorem decode_item {shape : Shape} {v : shape.Value} (h : (shape.item v).Sound)
    (rest : List UInt8) :
    shape.decode codec ((shape.item v).encode codec ++ rest) = some (v, rest) := by
  cases shape with
  | text capacity => exact readBytes_text hcodec h rest
  | address => exact readMac_bytes hcodec v rest
  | channel => exact readByte_uint hcodec v rest
  | byte => exact readByte_uint hcodec v rest
  | flag => exact hcodec.readBoolean v rest
  | word => exact readWord_uint hcodec v rest
  | power => exact readPower_int hcodec v rest
  | target => exact readMac_bytes hcodec v rest
  | name => exact readBytes_text hcodec h rest

end Values

/-! ## Encoding -/

section Encode

variable (codec : Codec) (capacity : Nat)

def fieldCount (config : TransportConfig) : Nat := all.countP fun k => (config k).isSome

def putEntry (key : Nat) (item : Item) (out : List UInt8) : Except Unit (List UInt8) :=
  put capacity (codec.uint key) out >>= put capacity (item.encode codec)

def encodeField (config : TransportConfig) (k : Field) (out : List UInt8) :
    Except Unit (List UInt8) :=
  match config k with
  | some v => putEntry codec capacity k.tag (k.shape.item v) out
  | none => .ok out

def encodeConfigInto (config : TransportConfig) (out : List UInt8) : Except Unit (List UInt8) :=
  if validateConfig config then
    all.foldlM (fun out k => encodeField codec capacity config k out) out else .error ()

def encodeMode (mode : Option TransportKind) (out : List UInt8) : Except Unit (List UInt8) :=
  match mode with
  | some kind => putEntry codec capacity 1 (.uint (modeNumber kind)) out
  | none => .ok out

/-- The bytes written, if they fit the slice. -/
def encodeRequest (request : TransportRequest) : Option (List UInt8) :=
  Except.toOption do
    let out ← put capacity (codec.map (fieldCount request.config + request.mode.isSome.toNat)) []
    let out ← encodeMode codec capacity request.mode out
    encodeConfigInto codec capacity request.config out

end Encode

/-! ## Decoding -/

section Decode

variable (codec : Codec)

/-- The first pass: every field, a key below 64 at most once. -/
def decodeEntries : Nat → List Nat → TransportConfig → List UInt8 →
    Option (TransportConfig × List UInt8)
  | 0, _, config, bs => some (config, bs)
  | count + 1, seen, config, bs =>
    match codec.readUint bs with
    | none => none
    | some (key, rest) =>
      if key < 64 ∧ key ∈ seen then none
      else
        let seen := if key < 64 then key :: seen else seen
        match ofKey key with
        | some k =>
          match k.shape.decode codec rest with
          | some (v, rest) => decodeEntries count seen (update config k (some v)) rest
          | none => none
        | none =>
          match codec.skip rest with
          | some rest => decodeEntries count seen config rest
          | none => none

def decodeConfig (encoded : List UInt8) : Option TransportConfig :=
  match codec.readHead encoded with
  | none => none
  | some ((major, count), rest) =>
    if major ≠ 5 ∨ count = indefinite then none
    else
      match decodeEntries codec count [] (fun _ => none) rest with
      | none => none
      | some (config, rest) => if rest = [] ∧ validateConfig config = true then
          some config else none

/-- The second pass: the mode. -/
def decodeMode : Nat → Option TransportKind → List UInt8 → Option (Option TransportKind)
  | 0, mode, _ => some mode
  | count + 1, mode, bs =>
    match codec.readUint bs with
    | none => none
    | some (key, rest) =>
      if key = 1 then
        match codec.readUint rest with
        | none => none
        | some (value, rest) =>
          match transportKind value with
          | some kind => decodeMode count (some kind) rest
          | none => none
      else
        match codec.skip rest with
        | some rest => decodeMode count mode rest
        | none => none

def decodeRequest (input : List UInt8) : Option TransportRequest :=
  match decodeConfig codec input with
  | none => none
  | some config =>
    match codec.readHead input with
    | none => none
    | some ((_, count), rest) => (decodeMode codec count none rest).map fun mode => ⟨mode, config⟩

end Decode

/-! ## Entries -/

/-- An entry of the map: the mode, a field, or something that this decoder does not know. -/
inductive Setting
  | mode (kind : TransportKind)
  | field (k : Field) (v : k.shape.Value)
  | other (key : Nat) (item : Item)

namespace Setting

def key : Setting → Nat
  | .mode _ => 1
  | .field k _ => k.tag
  | .other key _ => key

def item : Setting → Item
  | .mode kind => .uint (modeNumber kind)
  | .field k v => k.shape.item v
  | .other _ item => item

/-- An unknown key is one that neither pass looks for. -/
def Known : Setting → Prop
  | .mode _ => True
  | .field _ _ => True
  | .other key _ => key < u64Bound ∧ key ≠ 1 ∧ ofKey key = none

/-- Something that an encoder can write. -/
structure Sound (s : Setting) : Prop where
  item : s.item.Sound
  known : s.Known

def encode (codec : Codec) (s : Setting) : List UInt8 := codec.uint s.key ++ s.item.encode codec

/-- What the entry does to the fields. -/
def assign (config : TransportConfig) : Setting → TransportConfig
  | .mode _ => config
  | .field k v => update config k (some v)
  | .other _ _ => config

/-- What the entry does to the mode. -/
def choose (mode : Option TransportKind) : Setting → Option TransportKind
  | .mode kind => some kind
  | .field _ _ => mode
  | .other _ _ => mode

theorem key_sound (h : s.Sound) : (Item.uint s.key).Sound := by
  cases s with
  | mode kind => exact (by decide : (1 : Nat) < u64Bound)
  | field k v => exact lt_trans k.tag_range.2 (by decide)
  | other key item => exact h.known.1

end Setting

open Setting

/-- The bytes of a map. -/
def settingsBytes (codec : Codec) (settings : List Setting) : List UInt8 :=
  codec.map settings.length ++ settings.flatMap (encode codec)

/-- No key below 64 is repeated, nor one of those seen before. -/
def unrepeated : List Nat → List Setting → Bool
  | _, [] => true
  | seen, s :: settings =>
    !decide (s.key < 64 ∧ s.key ∈ seen) &&
      unrepeated (if s.key < 64 then s.key :: seen else seen) settings

section Settings

variable {codec : Codec} (hcodec : codec.Plain)

include hcodec

section

variable {settings : List Setting} (hsound : ∀ s ∈ settings, s.Sound)
include hsound

theorem decodeEntries_settings (seen : List Nat) (config : TransportConfig) (rest : List UInt8) :
    decodeEntries codec settings.length seen config
      (settings.flatMap (encode codec) ++ rest) =
      if unrepeated seen settings then some (settings.foldl assign config, rest)
        else none := by
  induction settings generalizing seen config with
  | nil => rfl
  | cons s settings ih =>
    have hs := hsound s mem_cons_self
    have htail := ih (forall_mem_cons.mp hsound).2
    rw [flatMap_cons, length_cons, append_assoc, encode, append_assoc, decodeEntries,
      hcodec.readUint (key_sound hs)]
    simp only
    by_cases hseen : s.key < 64 ∧ s.key ∈ seen
    · rw [if_pos hseen, unrepeated, decide_eq_true hseen]
      rfl
    rw [if_neg hseen, unrepeated, decide_eq_false hseen, Bool.not_false]
    cases s with
    | mode kind =>
      rw [show ofKey (mode kind).key = none from rfl]
      rw [hcodec.skip hs.item]
      exact htail _ _
    | field k v =>
      rw [show ofKey (field k v).key = some k from k.ofKey_tag]
      simp only [item]
      rw [decode_item hcodec hs.item]
      exact htail _ _
    | other key item =>
      rw [show ofKey (other key item).key = none from hs.known.2.2]
      rw [hcodec.skip hs.item]
      exact htail _ _

theorem decodeMode_settings (mode : Option TransportKind)
    (rest : List UInt8) : decodeMode codec settings.length mode
      (settings.flatMap (encode codec) ++ rest) =
      some (settings.foldl Setting.choose mode) := by
  induction settings generalizing mode with
  | nil => rfl
  | cons s settings ih =>
    have hs := hsound s mem_cons_self
    have htail := ih (forall_mem_cons.mp hsound).2
    rw [flatMap_cons, length_cons, append_assoc, encode, append_assoc, decodeMode,
      hcodec.readUint (key_sound hs)]
    simp only
    cases s with
    | mode kind =>
      rw [show (Setting.mode kind).item.encode codec = codec.uint (modeNumber kind) from rfl,
        hcodec.readUint hs.item]
      simp only [transportKind_modeNumber]
      exact htail _
    | field k v =>
      rw [if_neg (show ¬ (field k v).key = 1 from ne_of_gt k.tag_range.1),
        hcodec.skip hs.item]
      exact htail _
    | other key item =>
      rw [if_neg (show ¬ (other key item).key = 1 from hs.known.2.1), hcodec.skip hs.item]
      exact htail _

/-- What a map of entries decodes to. -/
theorem decodeRequest_settings
    (hcount : settings.length < indefinite) : decodeRequest codec (settingsBytes codec settings) =
      if unrepeated [] settings = true ∧
        validateConfig (settings.foldl assign fun _ => none) = true then
        some ⟨settings.foldl Setting.choose none, settings.foldl assign fun _ => none⟩
      else none := by
  have hentries := decodeEntries_settings hcodec hsound [] (fun _ => none) []
  have hmode := decodeMode_settings hcodec hsound none []
  rw [append_nil] at hentries hmode
  have hmajor : ¬ (5 ≠ 5 ∨ settings.length = indefinite) := by
    rintro (h | h)
    · exact h rfl
    · exact absurd h (Nat.ne_of_lt hcount)
  unfold decodeRequest decodeConfig settingsBytes
  simp only [hcodec.readHead hcount, if_neg hmajor, hentries, hmode]
  by_cases hfresh : unrepeated [] settings = true
  · by_cases hvalid : validateConfig (settings.foldl assign fun _ => none) = true
    · simp [hfresh, hvalid]
    · simp [hfresh, hvalid]
  · simp [hfresh]

end

end Settings

/-! ## The order of the entries -/

theorem unrepeated_iff {seen : List Nat} {settings : List Setting} :
    unrepeated seen settings = true ↔
    ((settings.map key).filter (· < 64)).Nodup ∧ ∀ s ∈ settings, s.key < 64 →
      s.key ∉ seen := by
  induction settings generalizing seen with
  | nil => simp [unrepeated]
  | cons s settings ih =>
    rw [unrepeated, Bool.and_eq_true, ih]
    by_cases hkey : s.key < 64
    · simp only [hkey, true_and, if_true, List.map_cons, List.filter_cons, decide_true,
        List.nodup_cons, List.mem_filter, List.mem_map, List.mem_cons, forall_eq_or_imp]
      simp only [Bool.not_eq_true', decide_eq_false_iff_not, not_or, and_true, not_exists, not_and]
      constructor
      · rintro ⟨hs, hnodup, hrest⟩
        exact ⟨⟨fun t ht hst => (hrest t ht (by omega)).1 hst, hnodup⟩, fun _ => hs, fun t ht hlt =>
          (hrest t ht hlt).2⟩
      · rintro ⟨⟨hs, hnodup⟩, hnot, hrest⟩
        exact ⟨hnot trivial, hnodup, fun t ht hlt => ⟨fun heq => hs t ht heq, hrest t ht hlt⟩⟩
    · simp [hkey]

section

variable {settings : List Setting} (hknown : ∀ s ∈ settings, s.Known)
    (hnodup : (settings.map key).Nodup)
include hknown hnodup

/-- With every key once, a field has the value of its entry. -/
theorem foldl_assign (config : TransportConfig) (k : Field) (v : k.shape.Value) :
    settings.foldl assign config k = some v ↔
      .field k v ∈ settings ∨ k.tag ∉ settings.map key ∧ config k = some v := by
  induction settings generalizing config with
  | nil => simp
  | cons s settings ih =>
    rw [map_cons, nodup_cons] at hnodup
    rw [foldl_cons, ih (forall_mem_cons.mp hknown).2 hnodup.2, mem_cons, map_cons, mem_cons, not_or]
    have hkeep : s.key ≠ k.tag → assign config s k = config k →
        ((.field k v ∈ settings ∨ k.tag ∉ settings.map key ∧
          assign config s k = some v) ↔
          ((.field k v = s ∨ .field k v ∈ settings) ∨
            (¬ k.tag = s.key ∧ k.tag ∉ settings.map key) ∧ config k = some v)) := by
      intro hne hassign
      rw [hassign]
      have hother : ¬ field k v = s := fun heq => hne (by rw [← heq]; rfl)
      simp [hother, Ne.symm hne]
    cases s with
    | mode kind => exact hkeep (Nat.ne_of_lt k.tag_range.1) rfl
    | other key item =>
      refine hkeep (fun heq => ?_) rfl
      have hnone := (hknown (.other key item) mem_cons_self).2.2
      rw [show key = k.tag from heq, ofKey_tag] at hnone
      cases hnone
    | field j w =>
      by_cases hj : j = k
      · cases hj
        have hout : k.tag ∉ settings.map key := hnodup.1
        have hmem : .field k v ∉ settings := fun h => hout (mem_map.mpr ⟨_, h, rfl⟩)
        simp only [assign, update_self, hout, hmem, false_or, not_false_eq_true,
          true_and, or_false, key, not_true_eq_false, false_and, some.injEq,
          field.injEq, heq_eq_eq]
        exact eq_comm
      · refine hkeep (fun heq => hj (tag_injective heq)) ?_
        exact update_of_ne (Ne.symm hj) _ _

theorem foldl_choose (mode : Option TransportKind) (kind : TransportKind) :
    settings.foldl Setting.choose mode = some kind ↔
      .mode kind ∈ settings ∨ 1 ∉ settings.map key ∧ mode = some kind := by
  induction settings generalizing mode with
  | nil => simp
  | cons s settings ih =>
    rw [map_cons, nodup_cons] at hnodup
    rw [foldl_cons, ih (forall_mem_cons.mp hknown).2 hnodup.2, mem_cons, map_cons, mem_cons]
    cases s with
    | mode other =>
      have hout : 1 ∉ settings.map Setting.key := hnodup.1
      have hmem : .mode kind ∉ settings := fun h => hout (mem_map.mpr ⟨_, h, rfl⟩)
      simp only [Setting.choose, hout, hmem, false_or, not_false_eq_true, true_and, or_false,
        Setting.key, not_true_eq_false, false_and, some.injEq, Setting.mode.injEq]
      exact eq_comm
    | field k v =>
      have hne : ¬ 1 = (Setting.field k v).key := Nat.ne_of_lt k.tag_range.1
      simp only [Setting.choose, reduceCtorEq, false_or, hne]
    | other key item =>
      have hne : ¬ 1 = (Setting.other key item).key :=
        Ne.symm (hknown (.other key item) mem_cons_self).2.1
      simp only [Setting.choose, reduceCtorEq, false_or, hne]

end

/-! ## The entries of a request -/

def TransportRequest.settings (request : TransportRequest) : List Setting :=
  (request.mode.map Setting.mode).toList ++ all.filterMap fun k =>
    (request.config k).map (Setting.field k)

section Request

variable {request : TransportRequest}

theorem mem_settings : s ∈ request.settings ↔
    (∃ kind, request.mode = some kind ∧ s = .mode kind) ∨ ∃ k v, request.config k = some v ∧
      s = .field k v := by
  rw [settings, mem_append, mem_toList, map_eq_some_iff, mem_filterMap]
  refine or_congr ?_ ?_
  · exact exists_congr fun kind => and_congr_right fun _ => eq_comm
  constructor
  · rintro ⟨k, -, hk⟩
    obtain ⟨v, hv, rfl⟩ := map_eq_some_iff.mp hk
    exact ⟨k, v, hv, rfl⟩
  · rintro ⟨k, v, hv, rfl⟩
    exact ⟨k, k.mem_all, by rw [hv]; rfl⟩

theorem known_of_mem (h : s ∈ request.settings) : s.Known := by
  rcases mem_settings.mp h with ⟨kind, -, rfl⟩ | ⟨k, v, -, rfl⟩
  · trivial
  · trivial

/-- Every key is written once. -/
theorem nodup_keys (request : TransportRequest) : (request.settings.map key).Nodup := by
  have hsub : ∀ fields : List Field,
      ((fields.filterMap fun k => (request.config k).map (.field k)).map
      key).Sublist (fields.map tag) := by
    intro fields
    induction fields with
    | nil => exact .slnil
    | cons k fields ih =>
      rw [filterMap_cons]
      cases request.config k with
      | none => exact ih.cons _
      | some v => exact ih.cons_cons _
  have hfields := nodup_tags.sublist (hsub all)
  rw [settings]
  cases request.mode with
  | none => exact hfields
  | some kind =>
    refine nodup_cons.mpr ⟨fun hmem => ?_, hfields⟩
    obtain ⟨k, -, hk⟩ := mem_map.mp ((hsub all).subset hmem)
    exact absurd hk (ne_of_gt k.tag_range.1)

/-- The entries, in any order, are the request. -/
theorem fold_settings {settings : List Setting} (h : settings.Perm request.settings) :
    (settings.foldl Setting.choose none = request.mode) ∧
    (settings.foldl assign fun _ => none) = request.config := by
  have hknown : ∀ s ∈ settings, s.Known := fun s hs => known_of_mem (h.mem_iff.mp hs)
  have hnodup : (settings.map key).Nodup := (h.map _).nodup_iff.mpr (nodup_keys request)
  constructor
  · refine ext fun kind => ?_
    rw [foldl_choose hknown hnodup, h.mem_iff, mem_settings]
    simp
  funext k
  refine ext fun v => ?_
  rw [foldl_assign hknown hnodup, h.mem_iff, mem_settings]
  simp only [reduceCtorEq, and_false, exists_false, false_or, or_false]
  constructor
  · rintro ⟨j, w, hw, heq⟩
    cases heq
    exact hw
  · intro hv
    exact ⟨k, v, hv, rfl⟩

/-- The values of a request that an encoder can write. -/
def TransportRequest.Sound (request : TransportRequest) : Prop :=
  ∀ k v, request.config k = some v → (k.shape.item v).Sound

theorem sound_of_mem (h : request.Sound) (hs : s ∈ request.settings) : s.Sound := by
  rcases mem_settings.mp hs with ⟨kind, -, rfl⟩ | ⟨k, v, hv, rfl⟩
  · refine ⟨?_, trivial⟩
    show modeNumber kind < u64Bound
    cases kind <;> decide
  · exact ⟨h k v hv, trivial⟩

theorem length_settings (request : TransportRequest) : request.settings.length ≤ 33 := by
  have hfields := length_filterMap_le (fun k => (request.config k).map (Setting.field k)) all
  rw [settings, length_append]
  have hmode : (request.mode.map Setting.mode).toList.length ≤ 1 := by cases request.mode <;> simp
  have hall : all.length = 32 := rfl
  omega

/-- A valid request is read back from its entries in any order. -/
theorem decodeRequest_perm (hcodec : codec.Plain) (hsound : request.Sound)
    (hvalid : validateConfig request.config = true) {settings : List Setting}
    (h : settings.Perm request.settings) :
    decodeRequest codec (settingsBytes codec settings) = some request := by
  have hcount : settings.length < indefinite := by
    rw [h.length_eq]
    exact lt_of_le_of_lt (length_settings request) (by decide)
  obtain ⟨hmode, hconfig⟩ := fold_settings h
  have hfresh : unrepeated [] settings = true :=
    unrepeated_iff.mpr ⟨((h.map _).nodup_iff.mpr (nodup_keys request)).filter _, fun _ _ _ =>
      not_mem_nil⟩
  rw [decodeRequest_settings hcodec (fun s hs => sound_of_mem hsound (h.mem_iff.mp hs)) hcount,
    hmode, hconfig, if_pos ⟨hfresh, hvalid⟩]

end Request

/-- A map that repeats a known key is refused. -/
theorem decodeRequest_repeated (hcodec : codec.Plain) {settings : List Setting}
    (hsound : ∀ s ∈ settings, s.Sound) (hcount : settings.length < indefinite) {key : Nat}
    (hkey : key = 1 ∨ (ofKey key).isSome = true) (h : 2 ≤ (settings.map Setting.key).count key) :
    decodeRequest codec (settingsBytes codec settings) = none := by
  have hlt : key < 64 := by
    rcases hkey with rfl | hkey
    · decide
    · exact key_lt hkey
  have hrepeated : ¬ unrepeated [] settings = true := by
    intro hfresh
    have hnodup := (unrepeated_iff.mp hfresh).1
    have hcount := nodup_iff_count_le_one.mp hnodup key
    rw [count_filter (by simpa using hlt)] at hcount
    omega
  rw [decodeRequest_settings hcodec hsound hcount, if_neg fun h => hrepeated h.1]

/-! ## What the encoder writes -/

section Writes

variable (codec : Codec) (capacity : Nat)

theorem writes_foldlM {α : Type} {step : α → List UInt8 → Except Unit (List UInt8)}
    {bytes : α → List UInt8} (h : ∀ a, Writes () capacity (step a) (bytes a) True) (as : List α) :
    Writes () capacity (fun out => as.foldlM (fun out a => step a out) out)
    (as.flatMap bytes) True := by
  induction as with
  | nil => exact nothing () capacity
  | cons a as ih =>
    have hboth := writes_bind (h a) ih
    exact hboth

theorem writes_encodeField (config : TransportConfig) (k : Field) :
    Writes () capacity (encodeField codec capacity config k)
      (((config k).map (field k)).toList.flatMap (encode codec)) True := by
  unfold encodeField
  cases config k with
  | none => exact nothing () capacity
  | some v =>
    refine congr (writes_bind (writes_put capacity _) (writes_put capacity _)) Iff.rfl ?_
    simp [encode, key, item]

theorem writes_encodeMode (mode : Option TransportKind) :
    Writes () capacity (encodeMode codec capacity mode)
      ((mode.map Setting.mode).toList.flatMap (Setting.encode codec)) True := by
  cases mode with
  | none => exact nothing () capacity
  | some kind =>
    refine congr (writes_bind (writes_put capacity _) (writes_put capacity _)) Iff.rfl ?_
    simp [encode, key, item]

end Writes

section Encoded

variable {codec : Codec} {request : TransportRequest}

theorem flatMap_settings (request : TransportRequest) :
    request.settings.flatMap (Setting.encode codec) =
      (request.mode.map Setting.mode).toList.flatMap (Setting.encode codec) ++
        all.flatMap fun k =>
          ((request.config k).map (Setting.field k)).toList.flatMap (Setting.encode codec) := by
  rw [settings, flatMap_append, filterMap_eq_flatMap_toList, flatMap_assoc]

theorem fieldCount_add (request : TransportRequest) :
    fieldCount request.config + request.mode.isSome.toNat = request.settings.length := by
  have hfields : ∀ fields : List Field,
      (fields.filterMap fun k => (request.config k).map (field k)).length =
      fields.countP fun k => (request.config k).isSome := by
    intro fields
    rw [length_filterMap_eq_countP]
    simp
  rw [settings, length_append, hfields, fieldCount]
  cases request.mode <;> simp
  omega

/-- A valid request is written as the map of its entries, when that fits. -/
theorem encodeRequest_eq {capacity : Nat} (hvalid : validateConfig request.config = true)
    (hfits : (settingsBytes codec request.settings).length ≤ capacity) :
    encodeRequest codec capacity request = some (settingsBytes codec request.settings) := by
  have hconfig : Writes () capacity (encodeConfigInto codec capacity request.config)
      (all.flatMap fun k =>
        ((request.config k).map (.field k)).toList.flatMap (Setting.encode codec)) True := by
    unfold encodeConfigInto
    simp only [hvalid]
    exact writes_foldlM capacity (writes_encodeField codec capacity request.config) all
  have hall := writes_bind
    (writes_put capacity (codec.map (fieldCount request.config + request.mode.isSome.toNat)))
    (writes_bind (writes_encodeMode codec capacity request.mode) hconfig)
  rw [← flatMap_settings, fieldCount_add] at hall
  unfold encodeRequest
  rw [fieldCount_add]
  exact (toOption_eq_some hall _).mpr ⟨hfits, rfl⟩

end Encoded

end QuicLite.Profile
