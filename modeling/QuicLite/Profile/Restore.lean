import QuicLite.Lib.Runs
import QuicLite.Profile.Saved

/-!
# A saved profile restores itself

A profile is saved as the request that describes it, and a new profile that applies this request is
the saved one. What makes this true of the profiles that requests lead to is `Kept`: every slot
holds a valid value as the request would store it, or is as in a new profile, and the run intent
follows the requested transport.
-/

namespace QuicLite.Profile

open Cbor List Option Nat TransportProfile

/-! ## Slots -/

variable {capacity : Nat} {k : Field} {slot : k.shape.Slot}

/-- The slot holds a valid value that can be written, stored as a request stores it, or nothing at
all. -/
structure Holds (shape : Shape) (valid : shape.Value → Bool) (blank slot : shape.Slot) : Prop where
  value : ∀ v, shape.read slot = some v → valid v = true ∧ (shape.item v).Sound ∧
    shape.store v = slot
  blank : shape.read slot = none → slot = blank

def KeptSlot (k : Field) (slot : k.shape.Slot) : Prop := Holds k.shape k.valid k.initial slot

/-- The texts that a request names are texts. -/
def TextsUtf8 (config : TransportConfig) : Prop :=
  ∀ v, config .ssid = some v ∨ config .passphrase = some v ∨ config .apSsid = some v ∨
    config .apPassphrase = some v →
    Utf8 v

variable {v : List UInt8}

theorem take_fill (h : v.length ≤ capacity) : (fill capacity v).val.take v.length = v := by
  show ((v ++ replicate capacity 0).take capacity).take v.length = v
  rw [take_take, min_eq_left h, take_left]

theorem length_of_validSsid (h : validSsid v = true) : v.length ≠ 0 ∧ v.length ≤ 32 := by
  simp only [validSsid, Bool.and_eq_true, Bool.not_eq_true', isEmpty_eq_false_iff,
    decide_eq_true_eq] at h
  exact ⟨fun h0 => h.1.1 (length_eq_zero_iff.mp h0), h.1.2⟩

theorem length_of_validPassphrase (h : validPassphrase v = true) :
    v.length ≠ 0 ∧ v.length ≤ 63 := by
  simp only [validPassphrase, Bool.and_eq_true, decide_eq_true_eq] at h
  omega

/-- A text that fits its array is read back. -/
theorem read_store_text (hlength : v.length ≠ 0) (hfits : v.length ≤ capacity) :
    (Shape.text capacity).read ((Shape.text capacity).store v) = some v := by
  show (if v.length ≠ 0 then some ((fill capacity v).val.take v.length) else none) = some v
  rw [if_pos hlength, take_fill hfits]

theorem sound_text (hlength : v.length ≤ 63) (hutf8 : Utf8 v) : (Item.text v).Sound :=
  ⟨lt_of_le_of_lt hlength (by decide), hutf8⟩

theorem sound_byte (v : UInt8) : (Item.uint v.toNat).Sound := lt_of_lt_of_le v.toNat_lt (by decide)

theorem sound_word (v : UInt32) : (Item.uint v.toNat).Sound := lt_of_lt_of_le v.toNat_lt (by decide)

theorem sound_power (v : Int32) : (Item.int v.toInt).Sound := by
  have hlow := v.le_toInt
  have hhigh := v.toInt_lt
  exact ⟨by omega, by omega⟩

theorem sound_mac (v : Bytes 6) : (Item.bytes v.val).Sound := by
  show v.val.length < u64Bound
  rw [v.property]
  decide

namespace Holds

variable {shape : Shape} {valid : shape.Value → Bool} {blank slot : shape.Slot}

theorem stored {v : shape.Value} (hread : shape.read (shape.store v) = some v)
    (hvalid : valid v = true) (hsound : (shape.item v).Sound) :
    Holds shape valid blank (shape.store v) where
  value := by
    intro w hw
    rw [hread] at hw
    cases hw
    exact ⟨hvalid, hsound, rfl⟩
  blank := by
    intro hnone
    rw [hread] at hnone
    cases hnone

theorem unset (hread : shape.read slot = none) (h : slot = blank) :
    Holds shape valid blank slot where
  value := fun v hv => by rw [hread] at hv; cases hv
  blank := fun _ => h

theorem byte {valid : UInt8 → Bool} {blank v : UInt8} (h : valid v = true) :
    Holds .byte valid blank v :=
  stored rfl h (sound_byte v)

theorem flag {valid : Bool → Bool} {blank v : Bool} (h : valid v = true) :
    Holds .flag valid blank v :=
  stored rfl h trivial

theorem word {valid : UInt32 → Bool} {blank v : UInt32} (h : valid v = true) :
    Holds .word valid blank v :=
  stored rfl h (sound_word v)

theorem power {valid : Int32 → Bool} {blank v : Int32} (h : valid v = true) :
    Holds .power valid blank v :=
  stored rfl h (sound_power v)

theorem text {valid : List UInt8 → Bool} {blank : TextSlot capacity}
    (hlength : v.length ≠ 0) (hbound : v.length ≤ 63) (hfits : v.length ≤ capacity)
    (h : valid v = true) (hutf8 : Utf8 v) :
    Holds (.text capacity) valid blank ((Shape.text capacity).store v) :=
  stored (read_store_text hlength hfits) h (sound_text hbound hutf8)

end Holds

theorem keptSlot_initial (k : Field) : KeptSlot k k.initial := by
  cases k
  case ssid | bssid | channel | passphrase | wakeTarget | iface | apSsid | apPassphrase =>
    exact .unset rfl rfl
  case staDriverTx | staBssidCheckDisabled | staAmpduEnabled | sta11bRatesDisabled |
      staRawRxEnabled | espnowCapture | isOpen => exact .flag rfl
  case uartBaud | radioFrequency | radioBandwidth | radioBitrate => exact .word rfl
  case radioTxPower => exact .power rfl
  all_goals exact .byte rfl

theorem keptSlot_off (k : Field) : KeptSlot k k.offSlot := by
  cases k
  case ap | now | nanDwInterval | uart | uartMode | ble | radioMode => exact .byte rfl
  all_goals exact keptSlot_initial _

theorem normalize_valid {selector : UInt8} (h : validUart selector = true) :
    ∃ u, normalizeUartSelector selector = some u ∧ normalizeUartSelector u = some u := by
  unfold validUart normalizeUartSelector at h
  unfold normalizeUartSelector
  split
  · exact ⟨1, rfl, rfl⟩
  next hne =>
    rw [if_neg hne] at h
    split
    · next hle => exact ⟨selector, rfl, by rw [if_neg hne, if_pos hle]⟩
    next hgt =>
      rw [if_neg hgt] at h
      cases h

theorem validBaud_uartBaud (selector : UInt8) : validBaud (uartBaud selector) = true := by
  unfold uartBaud
  repeat' split
  all_goals decide

/-- What a valid request assigns is kept. -/
theorem keptSlot_assigned {config : TransportConfig} (hvalid : validateConfig config = true)
    (hutf8 : TextsUtf8 config) (h : assigned config k = some slot) : KeptSlot k slot := by
  have hvalues := validateConfig_iff.mp hvalid
  cases k
  case uart =>
    obtain ⟨selector, hselector, rfl⟩ := map_eq_some_iff.mp h
    obtain ⟨u, hu, hagain⟩ := normalize_valid (hvalues .uart selector hselector)
    refine .byte ?_
    show (normalizeUartSelector ((normalizeUartSelector selector).getD selector)).isSome = true
    rw [hu, getD_some, hagain]
    rfl
  case uartMode =>
    rcases or_eq_some_iff.mp h with hv | ⟨-, hv⟩
    · exact .byte (hvalues .uartMode slot hv)
    obtain ⟨selector, -, rfl⟩ := map_eq_some_iff.mp hv
    refine .byte ?_
    split <;> rfl
  case uartBaud =>
    rcases or_eq_some_iff.mp h with hv | ⟨-, hv⟩
    · exact .word (hvalues .uartBaud slot hv)
    · obtain ⟨selector, -, rfl⟩ := map_eq_some_iff.mp hv
      exact .word (validBaud_uartBaud selector)
  all_goals obtain ⟨v, hv, rfl⟩ := map_eq_some_iff.mp h
  case ssid =>
    have hlength := length_of_validSsid (hvalues .ssid v hv)
    exact .text hlength.1 (by omega) (by omega) (hvalues .ssid v hv) (hutf8 v (.inl hv))
  case apSsid =>
    have hlength := length_of_validSsid (hvalues .apSsid v hv)
    exact .text hlength.1 (by omega) (by omega) (hvalues .apSsid v hv)
      (hutf8 v (.inr (.inr (.inl hv))))
  case passphrase =>
    have hlength := length_of_validPassphrase (hvalues .passphrase v hv)
    exact .text hlength.1 hlength.2 (by omega) (hvalues .passphrase v hv) (hutf8 v (.inr (.inl hv)))
  case apPassphrase =>
    have hlength := length_of_validPassphrase (hvalues .apPassphrase v hv)
    exact .text hlength.1 hlength.2 (by omega) (hvalues .apPassphrase v hv)
      (hutf8 v (.inr (.inr (.inr hv))))
  case bssid => exact .stored rfl rfl (sound_mac v)
  case channel =>
    have hchannel : validChannel v = true := hvalues .channel v hv
    refine .stored ?_ hchannel (sound_byte v)
    refine if_pos fun hzero => ?_
    rw [show v = 0 from hzero] at hchannel
    cases hchannel
  case wakeTarget | iface => exact .unset rfl rfl
  case staDriverTx | staBssidCheckDisabled | staAmpduEnabled | sta11bRatesDisabled |
      staRawRxEnabled | espnowCapture | isOpen => exact .flag rfl
  case radioFrequency | radioBandwidth | radioBitrate => exact .word rfl
  case radioTxPower => exact .power (hvalues _ v hv)
  all_goals exact .byte (hvalues _ v hv)

/-! ## Profiles that requests lead to -/

structure Kept (profile : TransportProfile) : Prop where
  slot : ∀ k, KeptSlot k (profile.slot k)
  uart : normalizeUartSelector (profile.slot .uart) = some (profile.slot .uart)
  intent : profile.runRequested = profile.requestedTransport.isSome
  kind : profile.requestedTransport ≠ some .uart ∧ profile.requestedTransport ≠ some .off
  station : profile.requestedTransport = some .sta → profile.hasStaProfile = true

theorem kept_new : Kept .new where
  slot := keptSlot_initial
  uart := rfl
  intent := rfl
  kind := ⟨(by simp [new]), (by simp [new])⟩
  station := fun h => by cases h

theorem kept_off : Kept .off where
  slot := keptSlot_off
  uart := rfl
  intent := rfl
  kind := ⟨(by simp [off]), (by simp [off])⟩
  station := fun h => by cases h

variable {request : TransportRequest}

/-- The mode resets slots to those of a new profile or of one that is off. -/
theorem keptSlot_reset (h : modeReset request k = some slot) : KeptSlot k slot := by
  unfold modeReset at h
  split at h
  · cases h
    exact keptSlot_off k
  split at h
  · cases k
    case passphrase =>
      cases h
      exact keptSlot_initial .passphrase
    all_goals cases h
  · cases h

variable {profile : TransportProfile}

theorem keptSlot_requested (hp : Kept profile)
    (hvalid : validateConfig request.config = true) (hutf8 : TextsUtf8 request.config) (k : Field) :
    KeptSlot k ((requested request profile).slot k) := by
  rw [requested_slot, applySlots_eq]
  cases hassigned : assigned request.config k with
  | some slot => exact keptSlot_assigned hvalid hutf8 hassigned
  | none =>
    show KeptSlot k ((modeReset request k).getD (profile.slot k))
    cases hreset : modeReset request k with
    | some slot => exact keptSlot_reset hreset
    | none => exact hp.slot k

theorem uart_requested (hp : Kept profile) (hvalid : validateConfig request.config = true) :
    normalizeUartSelector ((requested request profile).slot .uart) =
      some ((requested request profile).slot .uart) := by
  rw [requested_slot, applySlots_eq]
  cases huart : request.config .uart with
  | some selector =>
    obtain ⟨u, hu, hagain⟩ := normalize_valid (validateConfig_iff.mp hvalid .uart selector huart)
    simp only [assigned, huart, map_some, hu]
    exact hagain
  | none =>
    simp only [assigned, huart]
    unfold modeReset
    split
    · rfl
    split
    · exact hp.uart
    · exact hp.uart

/-- A station that is named is there afterwards, and one that was there stays, unless everything is
turned off. -/
theorem station_requested (hvalid : validateConfig request.config = true)
    (hoff : request.mode ≠ some .off)
    (h : namesStation request.config = true ∨ profile.hasStaProfile = true) :
    (requested request profile).hasStaProfile = true := by
  have hreset : ∀ k : Field, k ≠ .passphrase → modeReset request k = none := by
    intro k hk
    unfold modeReset
    rw [if_neg hoff]
    split
    · cases k
      case passphrase => exact absurd rfl hk
      all_goals rfl
    · rfl
  have hassigned : assigned request.config .ssid =
      (request.config .ssid).map (Shape.text 33).store ∧
      assigned request.config .bssid = (request.config .bssid).map Shape.address.store := ⟨rfl, rfl⟩
  have hssid : ∀ v, request.config .ssid = some v →
      ((requested request profile).slot .ssid).len ≠ 0 := by
    intro v hv
    rw [requested_slot, applySlots_eq, hassigned.1, hv]
    exact (length_of_validSsid (validateConfig_iff.mp hvalid .ssid v hv)).1
  have hbssid : ∀ v, request.config .bssid = some v →
      ((requested request profile).slot .bssid).set = true := by
    intro v hv
    rw [requested_slot, applySlots_eq, hassigned.2, hv]
    rfl
  unfold hasStaProfile
  cases hs : request.config .ssid with
  | some v => simp [hssid v hs]
  | none =>
  cases hb : request.config .bssid with
  | some v => simp [hbssid v hb]
  | none =>
    rcases h with h | h
    · simp [namesStation, hs, hb] at h
    rw [requested_slot, applySlots_eq, applySlots_eq, hassigned.1, hassigned.2, hs, hb,
      hreset .ssid (by decide), hreset .bssid (by decide)]
    exact h

/-- Every request that succeeds leads to such a profile again. -/
theorem Kept.apply (hp : Kept profile)
    {effect : RequestEffect} (hok : (applyRequest request profile).1 = .ok effect)
    (hutf8 : TextsUtf8 request.config) :
    Kept (applyRequest request profile).2 := by
  rcases applyRequest_cases request profile with ⟨e, hcase⟩ | ⟨-, hcase⟩ |
    ⟨hvalid, huart, hsta, -, hcase⟩
  · rw [hcase] at hok
    cases hok
  · rw [hcase]
    exact hp
  rw [hcase]
  obtain ⟨hrun, hkind⟩ := requested_intent request profile
  refine ⟨keptSlot_requested hp hvalid hutf8, uart_requested hp hvalid, ?_, ?_, ?_⟩
  · rw [hrun, hkind]
    cases hmode : request.mode with
    | none => exact hp.intent
    | some kind => cases kind <;> rfl
  · rw [hkind]
    cases hmode : request.mode with
    | none => exact hp.kind
    | some kind =>
      rw [hmode] at huart
      cases kind with
      | uart => exact absurd rfl huart
      | _ => exact ⟨by simp, by simp⟩
  · intro hrequested
    rw [hkind] at hrequested
    cases hmode : request.mode with
    | none =>
      rw [hmode] at hrequested
      exact station_requested hvalid (by rw [hmode]; simp) (.inr (hp.station hrequested))
    | some kind =>
      rw [hmode] at hrequested
      cases kind with
      | sta => exact station_requested hvalid (by rw [hmode]; simp) (hsta hmode)
      | _ => cases hrequested

/-! ## Saving and restoring -/

/-- The request that the profile is saved as. -/
def saveRequest (profile : TransportProfile) (config : TransportConfig) : TransportRequest :=
  ⟨some (profile.requestedTransport.getD .off), config⟩

def readConfig (profile : TransportProfile) : TransportConfig :=
  fun k => k.shape.read (profile.slot k)

namespace Kept

variable {profile : TransportProfile}

theorem valid (hp : Kept profile) : validateConfig (readConfig profile) = true :=
  validateConfig_iff.mpr fun k v hv => ((hp.slot k).value v hv).1

theorem sound (hp : Kept profile) (mode : Option TransportKind) :
    TransportRequest.Sound ⟨mode, readConfig profile⟩ :=
  fun k v hv => ((hp.slot k).value v hv).2.1

/-- The length in a slot is that of the value, which is valid. -/
theorem len_le {bound : Nat} {valid : List UInt8 → Bool} {slot : TextSlot capacity}
    (h : Holds (.text capacity) valid ⟨zeros capacity, 0⟩ slot)
    (hbound : ∀ v, valid v = true → v.length ≤ bound) :
    slot.len ≤ bound := by
  cases hread : (Shape.text capacity).read slot with
  | none => rw [h.blank hread]; exact zero_le _
  | some v =>
    obtain ⟨hvalid, -, hstore⟩ := h.value v hread
    rw [← hstore]
    exact hbound v hvalid

theorem config (hp : Kept profile) : profile.config = some (readConfig profile) := by
  unfold TransportProfile.config
  rw [if_neg, if_pos (show (validateConfig fun k => k.shape.read (profile.slot k)) =
    true from hp.valid)]
  · rfl
  rw [not_or, not_or, not_or]
  refine ⟨not_lt.mpr ?_, not_lt.mpr ?_, not_lt.mpr ?_, not_lt.mpr ?_⟩
  · exact len_le (hp.slot .ssid) fun v hv => (length_of_validSsid hv).2
  · exact len_le (hp.slot .passphrase) fun v hv => (length_of_validPassphrase hv).2
  · exact len_le (hp.slot .apSsid) fun v hv => (length_of_validSsid hv).2
  · exact len_le (hp.slot .apPassphrase) fun v hv => (length_of_validPassphrase hv).2

/-- What the saved request assigns is what the slots hold. -/
theorem assigned_readConfig (hp : Kept profile) (k : Field) :
    assigned (readConfig profile) k = (k.shape.read (profile.slot k)).map fun _ =>
      profile.slot k := by
  have hstored : (k.shape.read (profile.slot k)).map k.shape.store =
      (k.shape.read (profile.slot k)).map fun _ => profile.slot k := by
    refine map_congr fun v hv => ?_
    exact ((hp.slot k).value v hv).2.2
  cases k
  case uart =>
    show some ((normalizeUartSelector (profile.slot .uart)).getD (profile.slot .uart)) =
      some (profile.slot .uart)
    rw [hp.uart, getD_some]
  all_goals exact hstored

/-- A slot that gives nothing back is blank, and no mode resets it to anything else. -/
theorem blank_slot (hp : Kept profile) (hread : k.shape.read (profile.slot k) = none)
    (request : TransportRequest) : (modeReset request k).getD k.initial = profile.slot k := by
  rw [(hp.slot k).blank hread]
  have hoff : k.offSlot = k.initial := by
    cases k
    case ap | now | nanDwInterval | uart | uartMode | ble | radioMode => cases hread
    all_goals rfl
  unfold modeReset
  split
  · exact hoff
  split
  · cases k <;> rfl
  · rfl

theorem namesStation_readConfig (profile : TransportProfile) :
    namesStation (readConfig profile) = profile.hasStaProfile := by
  show ((if (profile.slot .ssid).len ≠ 0 then some _ else none).isSome ||
    (if (profile.slot .bssid).set then some _ else none).isSome) = _
  unfold hasStaProfile
  by_cases hlen : (profile.slot .ssid).len = 0
  · cases hset : (profile.slot .bssid).set <;> simp [hlen]
  · simp [hlen]

/-- A new profile that applies the saved request is the saved profile. -/
theorem restores (hp : Kept profile) :
    applyRequest (saveRequest profile (readConfig profile)) .new = (.ok .applied, profile) := by
  have huart : some (profile.requestedTransport.getD .off) ≠ some TransportKind.uart := by
    intro h
    cases hrequested : profile.requestedTransport with
    | none => rw [hrequested] at h; cases h
    | some kind => rw [hrequested] at h; exact hp.kind.1 (by rw [hrequested]; exact h)
  have hsta : some (profile.requestedTransport.getD .off) = some TransportKind.sta →
      namesStation (readConfig profile) = true ∨ new.hasStaProfile = true := by
    intro h
    rw [namesStation_readConfig]
    refine .inl (hp.station ?_)
    cases hrequested : profile.requestedTransport with
    | none => rw [hrequested] at h; cases h
    | some kind => rw [hrequested] at h; exact h
  have hlease : renewsLease (saveRequest profile (readConfig profile)) .new = false := by
    exact Bool.and_eq_false_iff.mpr (.inl (Bool.and_false _))
  obtain ⟨hrun, hkind⟩ := requested_intent (saveRequest profile (readConfig profile)) .new
  rw [applyRequest_applied hp.valid huart hsta hlease]
  refine congrArg _ (TransportProfile.ext (funext fun k => ?_) ?_ ?_)
  · rw [requested_slot, applySlots_eq]
    show (assigned (readConfig profile) k).getD _ = _
    rw [hp.assigned_readConfig]
    cases hread : k.shape.read (profile.slot k) with
    | some v => rfl
    | none => exact hp.blank_slot hread _
  · rw [hp.intent]
    show decide (profile.requestedTransport.getD .off ≠ .off) = _
    cases hrequested : profile.requestedTransport with
    | none => rfl
    | some kind =>
      refine decide_eq_true fun heq => hp.kind.2 ?_
      rw [hrequested]
      exact congrArg some heq
  · rw [hkind]
    show (if profile.requestedTransport.getD .off ≠ .off then
      some (profile.requestedTransport.getD .off) else none) = _
    cases hrequested : profile.requestedTransport with
    | none => rfl
    | some kind =>
      refine if_pos fun heq => hp.kind.2 ?_
      rw [hrequested]
      exact congrArg some heq

end Kept

/-! ## How many bytes it takes -/

section Size

variable {codec : Codec}

/-- More than any value of the field takes. -/
def Field.bound (k : Field) : Nat :=
  match k.shape with
  | .text _ => 67
  | .name => 67
  | _ => 11

section

variable (hcodec : codec.Plain)
include hcodec

theorem length_text_le (h : v.length ≤ 63) : ((Item.text v).encode codec).length ≤ 65 := by
  rw [hcodec.length_item]
  have := headLength_le h
  show headLength v.length + v.length ≤ 65
  have hhead : headLength 63 = 2 := rfl
  omega

theorem length_mac_le (v : Bytes 6) : ((Item.bytes v.val).encode codec).length ≤ 9 := by
  rw [hcodec.length_item]
  show headLength v.val.length + v.val.length ≤ 9
  rw [v.property]
  decide

theorem length_uint_le (n : Nat) : ((Item.uint n).encode codec).length ≤ 9 := by
  rw [hcodec.length_item]
  exact headLength_le_nine n

theorem length_setting_le {v : k.shape.Value} (h : k.valid v = true) :
    ((Setting.field k v).encode codec).length ≤ k.bound := by
  have hkey : (codec.uint k.tag).length ≤ 2 := by
    rw [show codec.uint k.tag = (Item.uint k.tag).encode codec from rfl, hcodec.length_item]
    exact le_trans (headLength_le (le_of_lt k.tag_range.2)) (by decide)
  have hvalue : ∀ {n : Nat}, ((k.shape.item v).encode codec).length ≤ n →
      ((Setting.field k v).encode codec).length ≤ 2 + n := by
    intro n hn
    rw [Setting.encode, length_append]
    exact Nat.add_le_add hkey hn
  cases k
  case ssid | apSsid =>
    have hlength : v.length ≤ 32 := (length_of_validSsid h).2
    exact hvalue (length_text_le hcodec (by omega))
  case passphrase | apPassphrase =>
    exact hvalue (length_text_le hcodec (length_of_validPassphrase h).2)
  case iface =>
    have hlength : v.length ≤ 32 := by
      simp only [Field.valid, validText, Bool.and_eq_true, decide_eq_true_eq] at h
      exact h.1
    exact hvalue (length_text_le hcodec (by omega))
  case bssid | wakeTarget => exact hvalue (length_mac_le hcodec v)
  case staDriverTx | staBssidCheckDisabled | staAmpduEnabled | sta11bRatesDisabled |
      staRawRxEnabled | espnowCapture | isOpen =>
    refine hvalue (n := 9) ?_
    rw [hcodec.length_item]
    exact (by decide : 1 ≤ 9)
  case radioTxPower =>
    refine hvalue (n := 9) ?_
    rw [hcodec.length_item]
    exact headLength_le_nine _
  all_goals exact hvalue (length_uint_le hcodec _)

theorem length_fields_le {config : TransportConfig} (h : validateConfig config = true)
    (fields : List Field) :
    (fields.flatMap fun k =>
      ((config k).map (Setting.field k)).toList.flatMap (Setting.encode codec)).length ≤
      (fields.map Field.bound).sum := by
  induction fields with
  | nil => exact le_refl _
  | cons k fields ih =>
    rw [flatMap_cons, length_append, map_cons]
    refine Nat.add_le_add ?_ ih
    cases hv : config k with
    | none => exact Nat.zero_le _
    | some v =>
      have := length_setting_le hcodec (validateConfig_iff.mp h k v hv)
      simpa using this

/-- A valid request fits the buffer. -/
theorem length_settingsBytes_le
    (h : validateConfig request.config = true) :
    (settingsBytes codec request.settings).length ≤ 768 := by
  have hfields := length_fields_le hcodec h Field.all
  have hmode : ((request.mode.map Setting.mode).toList.flatMap (Setting.encode codec)).length ≤
      18 := by
    cases request.mode with
    | none => exact zero_le _
    | some kind =>
      have hkey := length_uint_le hcodec 1
      have hvalue := length_uint_le hcodec (modeNumber kind)
      show (((Item.uint 1).encode codec ++ (Item.uint (modeNumber kind)).encode codec) ++
        []).length ≤ 18
      rw [append_nil, length_append]
      omega
  have hhead : headLength request.settings.length ≤ 2 :=
    le_trans (headLength_le (length_settings request)) (by decide)
  have hbound : (Field.all.map Field.bound).sum = 632 := by decide
  rw [settingsBytes, length_append, hcodec.length_map, flatMap_settings, length_append]
  omega

end

end Size

/-! ## Every reachable profile -/

/-- A request that succeeds, with texts where it names texts. -/
def Succeeds (profile : TransportProfile) (request : TransportRequest) : Prop :=
  (∃ effect, (applyRequest request profile).1 = .ok effect) ∧ TextsUtf8 request.config

/-- The profile after a number of requests. -/
def afterRequests (start : TransportProfile) (requests : List TransportRequest) :
    TransportProfile :=
  Runs.exec (fun profile request => (applyRequest request profile).2) start requests

theorem kept_afterRequests {start : TransportProfile} (hstart : start = .new ∨ start = .off)
    {requests : List TransportRequest}
    (hrun : Runs.Along (fun profile request => (applyRequest request profile).2) Succeeds start
      requests) :
    Kept (afterRequests start requests) := by
  refine Runs.Along.invariant (fun profile request hp hok => ?_) ?_ hrun
  · obtain ⟨⟨effect, heffect⟩, hutf8⟩ := hok
    exact hp.apply heffect hutf8
  rcases hstart with rfl | rfl
  · exact kept_new
  · exact kept_off

/-- A profile that requests led to from a new one, or from one that is off, is described by a
request that fits the buffer, is read back from its entries in any order, and makes the same profile
of a new one. A map that repeats a known key is refused. -/
theorem saved_profile_restored {codec : Codec} (hcodec : codec.Plain) {start : TransportProfile}
    (hstart : start = .new ∨ start = .off) {requests : List TransportRequest}
    (hrun : Runs.Along (fun profile request => (applyRequest request profile).2) Succeeds start
      requests) : ∃ config, (afterRequests start requests).config = some config ∧
      (settingsBytes codec (saveRequest (afterRequests start requests) config).settings).length ≤
        768 ∧
      encodeRequest codec 768 (saveRequest (afterRequests start requests) config) =
        some (settingsBytes codec (saveRequest (afterRequests start requests) config).settings) ∧
      (∀ settings, settings.Perm (saveRequest (afterRequests start requests) config).settings →
        decodeRequest codec (settingsBytes codec settings) =
          some (saveRequest (afterRequests start requests) config)) ∧
      (∀ settings key, (∀ s ∈ settings, s.Sound) → settings.length < indefinite →
        (key = 1 ∨ (Field.ofKey key).isSome = true) → 2 ≤ (settings.map Setting.key).count key →
        decodeRequest codec (settingsBytes codec settings) = none) ∧
      applyRequest (saveRequest (afterRequests start requests) config) .new =
        (.ok .applied, afterRequests start requests) := by
  have hp := kept_afterRequests hstart hrun
  have hfits := length_settingsBytes_le hcodec
    (show validateConfig (saveRequest (afterRequests start requests) (readConfig _)).config =
      true from hp.valid)
  refine ⟨readConfig _, hp.config, hfits, encodeRequest_eq hp.valid hfits, ?_, ?_, hp.restores⟩
  · intro settings hperm
    exact decodeRequest_perm hcodec (hp.sound _) hp.valid hperm
  · intro settings key hsound hcount hkey hrepeated
    exact decodeRequest_repeated hcodec hsound hcount hkey hrepeated

/-- A station is asked for by name. -/
def stationRequest : TransportRequest where
  mode := some .sta
  config
    | .ssid => some [109, 101, 115, 104]
    | .passphrase => some [112, 97, 115, 115, 119, 111, 114, 100]
    | .uart => some (9 : UInt8)
    | _ => none

theorem station_restored : ∃ config, (afterRequests .new [stationRequest]).config = some config ∧
      applyRequest (saveRequest (afterRequests .new [stationRequest]) config) .new =
        (.ok .applied, afterRequests .new [stationRequest]) := by
  have hrun : Runs.Along (fun profile request => (applyRequest request profile).2) Succeeds
      .new [stationRequest] := by
    refine ⟨⟨⟨.applied, rfl⟩, ?_⟩, trivial⟩
    rintro v (h | h | h | h)
    · cases h
      exact ⟨['m', 'e', 's', 'h'], by decide⟩
    · cases h
      exact ⟨['p', 'a', 's', 's', 'w', 'o', 'r', 'd'], by decide⟩
    · cases h
    · cases h
  obtain ⟨config, hconfig, -, -, -, -, hrestored⟩ :=
    saved_profile_restored minimal_plain (.inl rfl) hrun
  exact ⟨config, hconfig, hrestored⟩

end QuicLite.Profile
