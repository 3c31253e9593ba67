import Mathlib.Data.List.Basic

/-!
# Transport profiles

The desired bearer state of a node and the requests that edit it. A request names any of thirty-two
fields. What the source spells out field by field (validate, apply, collect) is one function of the
field here: `Field.shape` says what a field holds and how the profile stores it, `Field.valid` what
is accepted for it.
-/

namespace QuicLite.Profile

open List

def errArg : Int := -1

def errUnsupported : Int := -2

inductive TransportKind
  | off | sta | nan | uart
  deriving DecidableEq

/-- An array of bytes. -/
abbrev Bytes (n : Nat) := { bytes : List UInt8 // bytes.length = n }

theorem length_fill (n : Nat) (v : List UInt8) : ((v ++ replicate n 0).take n).length = n := by
  rw [length_take, length_append, length_replicate]
  omega

/-- The array is filled with zeros and the value copied to its front. -/
def fill (n : Nat) (v : List UInt8) : Bytes n := ⟨(v ++ replicate n 0).take n, length_fill n v⟩

def zeros (n : Nat) : Bytes n := ⟨replicate n 0, length_replicate⟩

structure TextSlot (capacity : Nat) where
  bytes : Bytes capacity
  len : Nat
  deriving DecidableEq

structure MacSlot where
  mac : Bytes 6
  set : Bool
  deriving DecidableEq

/-! ## Fields -/

inductive Field
  | ssid | bssid | channel | rawTxRate | staDriverTx | staBssidCheckDisabled | staAmpduEnabled
    | sta11bRatesDisabled
  | staRawRxEnabled | espnowCapture | nanDwInterval | now | ap | passphrase | uart | ndp | isOpen
    | wakeTarget | ble
  | iface | uartMode | uartBaud | uartPort | radioMode | radioFrequency | radioBandwidth
    | radioBitrate | radioTxPower
  | radioSpreadingFactor | radioCodingRate | apSsid | apPassphrase

/-- What a field holds: a text in an array of some capacity, an optional address, a channel that is
zero when it is not pinned, a plain value, or metadata of the request that no profile stores. -/
inductive Shape
  | text (capacity : Nat) | address | channel | byte | flag | word | power | target | name

namespace Shape

@[reducible] def Value : Shape → Type
  | .text _ => List UInt8
  | .address => Bytes 6
  | .channel => UInt8
  | .byte => UInt8
  | .flag => Bool
  | .word => UInt32
  | .power => Int32
  | .target => Bytes 6
  | .name => List UInt8

@[reducible] def Slot : Shape → Type
  | .text capacity => TextSlot capacity
  | .address => MacSlot
  | .channel => UInt8
  | .byte => UInt8
  | .flag => Bool
  | .word => UInt32
  | .power => Int32
  | .target => Unit
  | .name => Unit

instance : (shape : Shape) → DecidableEq shape.Slot
  | .text capacity => inferInstanceAs (DecidableEq (TextSlot capacity))
  | .address => inferInstanceAs (DecidableEq MacSlot)
  | .channel => inferInstanceAs (DecidableEq UInt8)
  | .byte => inferInstanceAs (DecidableEq UInt8)
  | .flag => inferInstanceAs (DecidableEq Bool)
  | .word => inferInstanceAs (DecidableEq UInt32)
  | .power => inferInstanceAs (DecidableEq Int32)
  | .target => inferInstanceAs (DecidableEq Unit)
  | .name => inferInstanceAs (DecidableEq Unit)

/-- Writing a value to the profile. -/
def store : (shape : Shape) → shape.Value → shape.Slot
  | .text capacity, v => ⟨fill capacity v, v.length⟩
  | .address, v => ⟨v, true⟩
  | .channel, v => v
  | .byte, v => v
  | .flag, v => v
  | .word, v => v
  | .power, v => v
  | .target, _ => ()
  | .name, _ => ()

/-- The value that a profile gives back, if it has one. -/
def read : (shape : Shape) → shape.Slot → Option shape.Value
  | .text _, slot => if slot.len ≠ 0 then some (slot.bytes.val.take slot.len) else none
  | .address, slot => if slot.set then some slot.mac else none
  | .channel, v => if v ≠ 0 then some v else none
  | .byte, v => some v
  | .flag, v => some v
  | .word, v => some v
  | .power, v => some v
  | .target, _ => none
  | .name, _ => none

end Shape

/-! ## What is valid -/

def uartOff : UInt8 := 8

def normalizeUartSelector (selector : UInt8) : Option UInt8 :=
  if selector = 0 then some 1 else if selector ≤ 9 then some selector else none

def uartBaud (selector : UInt8) : UInt32 :=
  if selector = 2 then 9600
  else if selector = 3 then 19200
  else if selector = 4 then 38400
  else if selector = 5 then 57600
  else if selector = 6 then 230400
  else if selector = 7 then 460800
  else if selector = 9 then 921600
  else 115200

def validText (v : List UInt8) : Bool := decide (v.length ≤ 32) && !v.contains 0

def validSsid (v : List UInt8) : Bool := !v.isEmpty && decide (v.length ≤ 32) && !v.contains 0

def validPassphrase (v : List UInt8) : Bool :=
  decide (8 ≤ v.length ∧ v.length ≤ 63) && !v.contains 0

def validChannel (v : UInt8) : Bool := decide (1 ≤ v ∧ v ≤ 14)

def validRate (v : UInt8) : Bool := [0, 6, 9, 12, 18, 24, 36, 48, 54].contains v

def validDw (v : UInt8) : Bool := [0, 1, 8, 16].contains v

def validPolicy (v : UInt8) : Bool := decide (v ≤ 2)

def validEnable (v : UInt8) : Bool := decide (v ≤ 1)

def validUart (v : UInt8) : Bool := (normalizeUartSelector v).isSome

def validBaud (v : UInt32) : Bool := decide (v ≠ 0 ∧ v ≤ 5000000)

def validPort (v : UInt8) : Bool := decide (v ≤ 3)

def validPower (v : Int32) : Bool := decide (-40 ≤ v ∧ v ≤ 30)

def validSf (v : UInt8) : Bool := decide (v = 0 ∨ 5 ≤ v ∧ v ≤ 12)

def validCr (v : UInt8) : Bool := decide (v = 0 ∨ 5 ≤ v ∧ v ≤ 8)

namespace Field

@[reducible] def shape : Field → Shape
  | .ssid => .text 33
  | .bssid => .address
  | .channel => .channel
  | .rawTxRate => .byte
  | .staDriverTx => .flag
  | .staBssidCheckDisabled => .flag
  | .staAmpduEnabled => .flag
  | .sta11bRatesDisabled => .flag
  | .staRawRxEnabled => .flag
  | .espnowCapture => .flag
  | .nanDwInterval => .byte
  | .now => .byte
  | .ap => .byte
  | .passphrase => .text 64
  | .uart => .byte
  | .ndp => .byte
  | .isOpen => .flag
  | .wakeTarget => .target
  | .ble => .byte
  | .iface => .name
  | .uartMode => .byte
  | .uartBaud => .word
  | .uartPort => .byte
  | .radioMode => .byte
  | .radioFrequency => .word
  | .radioBandwidth => .word
  | .radioBitrate => .word
  | .radioTxPower => .power
  | .radioSpreadingFactor => .byte
  | .radioCodingRate => .byte
  | .apSsid => .text 33
  | .apPassphrase => .text 64

def valid : (k : Field) → k.shape.Value → Bool
  | .ssid, v => validSsid v
  | .bssid, _ => true
  | .channel, v => validChannel v
  | .rawTxRate, v => validRate v
  | .staDriverTx, _ => true
  | .staBssidCheckDisabled, _ => true
  | .staAmpduEnabled, _ => true
  | .sta11bRatesDisabled, _ => true
  | .staRawRxEnabled, _ => true
  | .espnowCapture, _ => true
  | .nanDwInterval, v => validDw v
  | .now, v => validPolicy v
  | .ap, v => validEnable v
  | .passphrase, v => validPassphrase v
  | .uart, v => validUart v
  | .ndp, v => validEnable v
  | .isOpen, _ => true
  | .wakeTarget, _ => true
  | .ble, v => validPolicy v
  | .iface, v => validText v
  | .uartMode, v => validPolicy v
  | .uartBaud, v => validBaud v
  | .uartPort, v => validPort v
  | .radioMode, v => validPolicy v
  | .radioFrequency, _ => true
  | .radioBandwidth, _ => true
  | .radioBitrate, _ => true
  | .radioTxPower, v => validPower v
  | .radioSpreadingFactor, v => validSf v
  | .radioCodingRate, v => validCr v
  | .apSsid, v => validSsid v
  | .apPassphrase, v => validPassphrase v

/-- The fields in the order of the source. -/
def all : List Field :=
  [.ssid, .bssid, .channel, .rawTxRate, .staDriverTx, .staBssidCheckDisabled, .staAmpduEnabled,
    .sta11bRatesDisabled, .staRawRxEnabled, .espnowCapture, .nanDwInterval, .now, .ap, .passphrase,
    .uart, .ndp, .isOpen, .wakeTarget, .ble, .iface, .uartMode, .uartBaud, .uartPort, .radioMode,
    .radioFrequency, .radioBandwidth, .radioBitrate, .radioTxPower, .radioSpreadingFactor,
    .radioCodingRate, .apSsid, .apPassphrase]

theorem mem_all (k : Field) : k ∈ all := by
  cases k <;> simp [all]

/-- Fields that concern the request and not the profile. -/
def isMetadata : Field → Bool
  | .wakeTarget => true
  | .iface => true
  | _ => false

/-- The stored value of a new profile. -/
def initial : (k : Field) → k.shape.Slot
  | .ssid => ⟨zeros 33, 0⟩
  | .bssid => ⟨zeros 6, false⟩
  | .channel => (0 : UInt8)
  | .rawTxRate => (0 : UInt8)
  | .staDriverTx => true
  | .staBssidCheckDisabled => true
  | .staAmpduEnabled => true
  | .sta11bRatesDisabled => true
  | .staRawRxEnabled => true
  | .espnowCapture => false
  | .nanDwInterval => (1 : UInt8)
  | .now => (0 : UInt8)
  | .ap => (1 : UInt8)
  | .passphrase => ⟨zeros 64, 0⟩
  | .uart => (1 : UInt8)
  | .ndp => (0 : UInt8)
  | .isOpen => false
  | .wakeTarget => ()
  | .ble => (0 : UInt8)
  | .iface => ()
  | .uartMode => (2 : UInt8)
  | .uartBaud => (115200 : UInt32)
  | .uartPort => (0 : UInt8)
  | .radioMode => (0 : UInt8)
  | .radioFrequency => (0 : UInt32)
  | .radioBandwidth => (0 : UInt32)
  | .radioBitrate => (0 : UInt32)
  | .radioTxPower => (0 : Int32)
  | .radioSpreadingFactor => (0 : UInt8)
  | .radioCodingRate => (0 : UInt8)
  | .apSsid => ⟨zeros 33, 0⟩
  | .apPassphrase => ⟨zeros 64, 0⟩

/-- The stored value when every bearer is off. -/
def offSlot : (k : Field) → k.shape.Slot
  | .ap => (0 : UInt8)
  | .now => (2 : UInt8)
  | .nanDwInterval => (0 : UInt8)
  | .uart => uartOff
  | .uartMode => (0 : UInt8)
  | .ble => (0 : UInt8)
  | .radioMode => (0 : UInt8)
  | k => k.initial

end Field

abbrev Slots := (k : Field) → k.shape.Slot

/-- A partial request: some of the fields. -/
abbrev TransportConfig := (k : Field) → Option k.shape.Value

structure TransportRequest where
  mode : Option TransportKind
  config : TransportConfig

@[ext] structure TransportProfile where
  slot : Slots
  runRequested : Bool
  requestedTransport : Option TransportKind

inductive RequestEffect
  | applied | leaseRenewed

def validateConfig (config : TransportConfig) : Bool :=
  Field.all.all fun k => (config k).all k.valid

theorem validateConfig_iff {config : TransportConfig} :
    validateConfig config = true ↔ ∀ k v, config k = some v → k.valid v = true := by
  rw [validateConfig, all_eq_true]
  constructor
  · intro h k v hv
    have hk := h k k.mem_all
    rwa [hv] at hk
  intro h k _
  cases hv : config k with
  | none => rfl
  | some v => exact h k v hv

namespace TransportProfile

instance : DecidableEq TransportProfile := fun p q =>
  decidable_of_iff ((∀ k ∈ Field.all, p.slot k = q.slot k) ∧ p.runRequested = q.runRequested ∧
      p.requestedTransport = q.requestedTransport)
    ⟨fun h => TransportProfile.ext (funext fun k => h.1 k k.mem_all) h.2.1 h.2.2, fun h =>
      h ▸ ⟨fun _ _ => rfl, rfl, rfl⟩⟩

def new : TransportProfile := ⟨Field.initial, false, none⟩

def off : TransportProfile := ⟨Field.offSlot, false, none⟩

def hasStaProfile (self : TransportProfile) : Bool :=
  (self.slot .ssid).len != 0 || (self.slot .bssid).set

/-- The request that describes the profile. -/
def config (self : TransportProfile) : Option TransportConfig :=
  if 32 < (self.slot .ssid).len ∨ 63 < (self.slot .passphrase).len ∨ 32 < (self.slot .apSsid).len ∨
      63 < (self.slot .apPassphrase).len then none
  else if validateConfig fun k => k.shape.read (self.slot k) then some fun k =>
    k.shape.read (self.slot k)
  else none

end TransportProfile

/-! ## Applying a request -/

variable (config : TransportConfig)

/-- Every field that the request names is stored. -/
def storeConfig (slots : Slots) (k : Field) : k.shape.Slot :=
  match config k with
  | some v => k.shape.store v
  | none => slots k

/-- A selector is normalized, and gives the mode and the rate that the request does not name. -/
def selectUart (selector : UInt8) (slots : Slots) : Slots
  | .uart => (normalizeUartSelector selector).getD (slots .uart)
  | .uartMode => if (config .uartMode).isNone then
      (if selector = uartOff then (0 : UInt8) else 2) else slots .uartMode
  | .uartBaud => if (config .uartBaud).isNone then Profile.uartBaud selector else slots .uartBaud
  | k => slots k

def applySlots (slots : Slots) : Slots :=
  match config .uart with
  | some selector => selectUart config selector (storeConfig config slots)
  | none => storeConfig config slots

def applyConfig (profile : TransportProfile) : Option TransportProfile :=
  if validateConfig config then some { profile with slot := applySlots config profile.slot }
  else none

def clearPassphrase (slots : Slots) : Slots
  | .passphrase => ⟨zeros 64, 0⟩
  | k => slots k

/-- Nothing but the routing and wake metadata is named. -/
def onlyMetadata : Bool := Field.all.all fun k => k.isMetadata || (config k).isNone

def namesStation : Bool := (config .ssid).isSome || (config .bssid).isSome

variable (request : TransportRequest)

/-- What a mode starts from. -/
def modeBase (profile : TransportProfile) : TransportProfile :=
  if request.mode = some .off then .off
  else if request.mode = some .sta ∧ namesStation request.config = true then
    { profile with slot := clearPassphrase profile.slot }
  else profile

/-- The mode sets the run intent. -/
def withMode (mode : Option TransportKind) (profile : TransportProfile) : TransportProfile :=
  match mode with
  | none => profile
  | some kind =>
    { profile with requestedTransport := if kind ≠ .off then some kind else none,
                   runRequested := decide (kind ≠ .off) }

/-- The wake lease of the running station is renewed, and nothing else asked for. -/
def renewsLease (profile : TransportProfile) : Bool :=
  decide (request.mode = some .sta) && (request.config .wakeTarget).isSome &&
    decide (profile.requestedTransport = some .sta) && onlyMetadata request.config

/-- The result, and the profile after the call. -/
def applyRequest (profile : TransportProfile) : Except Int RequestEffect × TransportProfile :=
  if validateConfig request.config = false then (.error errArg, profile)
  else if request.mode = some .uart then (.error errUnsupported, profile)
  else if request.mode = some .sta ∧ namesStation request.config = false ∧
    profile.hasStaProfile = false then
    (.error errArg, profile)
  else if renewsLease request profile then (.ok .leaseRenewed, profile)
  else
    match applyConfig request.config (modeBase request profile) with
    | none => (.error errArg, profile)
    | some next => (.ok .applied, withMode request.mode next)

/-! ## What a request assigns -/

/-- The value that a field gets, if the request gives it one. -/
def assigned : (k : Field) → Option k.shape.Slot
  | .uart => (config .uart).map fun selector => (normalizeUartSelector selector).getD selector
  | .uartMode =>
    (config .uartMode).or ((config .uart).map fun selector => if selector = uartOff then
      (0 : UInt8) else 2)
  | .uartBaud => (config .uartBaud).or ((config .uart).map Profile.uartBaud)
  | k => (config k).map k.shape.store

/-- A request overwrites the fields it assigns and keeps the others, whatever is stored. -/
theorem applySlots_eq (slots : Slots) (k : Field) :
    applySlots config slots k = (assigned config k).getD (slots k) := by
  have hstore : ∀ j, storeConfig config slots j = ((config j).map j.shape.store).getD
      (slots j) := by
    intro j
    unfold storeConfig
    cases config j <;> rfl
  unfold applySlots
  cases huart : config .uart with
  | none =>
    show storeConfig config slots k = _
    rw [hstore]
    cases k
    case uart => rw [assigned, huart]; rfl
    case uartMode => rw [assigned, huart]; cases config .uartMode <;> rfl
    case uartBaud => rw [assigned, huart]; cases config .uartBaud <;> rfl
    all_goals rfl
  | some selector =>
    show selectUart config selector (storeConfig config slots) k = _
    cases k
    case uart =>
      rw [selectUart, hstore, assigned, huart]
      rfl
    case uartMode =>
      rw [selectUart, hstore, assigned, huart]
      cases config .uartMode <;> rfl
    case uartBaud =>
      rw [selectUart, hstore, assigned, huart]
      cases config .uartBaud <;> rfl
    all_goals exact hstore _

/-- A field is named, or it is the mode or the rate of a selector that is. -/
def touches : Field → Bool
  | .uartMode => (config .uartMode).isSome || (config .uart).isSome
  | .uartBaud => (config .uartBaud).isSome || (config .uart).isSome
  | k => (config k).isSome

theorem isSome_assigned (k : Field) : (assigned config k).isSome = touches config k := by
  cases k <;> simp [assigned, touches]

theorem applySlots_untouched {config : TransportConfig} {k : Field} (h : touches config k = false)
    (slots : Slots) :
    applySlots config slots k = slots k := by
  rw [← isSome_assigned, Option.isSome_eq_false_iff, Option.isNone_iff_eq_none] at h
  rw [applySlots_eq, h]
  rfl

/-- Applying again changes nothing, even if what the request does not assign is reset in between. -/
theorem applySlots_reset (reset : (k : Field) → Option k.shape.Slot) (slots : Slots) :
    (applySlots config fun k =>
      (reset k).getD (applySlots config (fun k => (reset k).getD (slots k)) k)) =
      applySlots config fun k => (reset k).getD (slots k) := by
  funext k
  simp only [applySlots_eq]
  cases assigned config k with
  | some v => rfl
  | none => cases reset k <;> rfl

/-- Requests that assign different fields may be applied in either order. -/
theorem applySlots_comm {config other : TransportConfig}
    (h : ∀ k, ¬ (touches config k = true ∧ touches other k = true)) (slots : Slots) :
    applySlots config (applySlots other slots) = applySlots other (applySlots config slots) := by
  funext k
  have hk := h k
  rw [← isSome_assigned, ← isSome_assigned] at hk
  rw [applySlots_eq, applySlots_eq, applySlots_eq, applySlots_eq]
  cases hconfig : assigned config k with
  | none => rfl
  | some v =>
    cases hother : assigned other k with
    | none => rfl
    | some w => exact absurd ⟨by rw [hconfig]; rfl, by rw [hother]; rfl⟩ hk

/-! ## Whole requests -/

/-- What the mode resets before the fields are applied. -/
def modeReset (k : Field) : Option k.shape.Slot :=
  if request.mode = some .off then some k.offSlot
  else if request.mode = some .sta ∧ namesStation request.config = true then cleared k
  else none
where
  cleared : (k : Field) → Option k.shape.Slot
    | .passphrase => some ⟨zeros 64, 0⟩
    | _ => none

/-- The profile that an accepted request leaves. -/
def requested (profile : TransportProfile) : TransportProfile :=
  withMode request.mode
    { modeBase request profile with
      slot := applySlots request.config (modeBase request profile).slot }

variable (profile : TransportProfile)

theorem modeBase_slot : (modeBase request profile).slot = fun k =>
    (modeReset request k).getD (profile.slot k) := by
  funext k
  unfold modeBase modeReset
  split
  · rfl
  split
  · cases k <;> rfl
  · rfl

theorem requested_slot : (requested request profile).slot =
      applySlots request.config fun k => (modeReset request k).getD (profile.slot k) := by
  rw [← modeBase_slot]
  unfold requested withMode
  cases request.mode <;> rfl

theorem requested_intent :
    (requested request profile).runRequested = request.mode.elim profile.runRequested
      (fun kind => decide (kind ≠ .off)) ∧
    (requested request profile).requestedTransport =
      request.mode.elim profile.requestedTransport
        (fun kind => if kind ≠ .off then some kind else none) := by
  unfold requested withMode modeBase
  cases hmode : request.mode with
  | none => exact ⟨rfl, rfl⟩
  | some kind => exact ⟨rfl, rfl⟩

/-- A request is refused, renews a lease, or leaves what it asks for. -/
theorem applyRequest_cases : (∃ e, applyRequest request profile = (.error e, profile)) ∨
    (renewsLease request profile = true ∧
      applyRequest request profile = (.ok .leaseRenewed, profile)) ∨
    (validateConfig request.config = true ∧ request.mode ≠ some .uart ∧
      (request.mode = some .sta → namesStation request.config = true ∨
        profile.hasStaProfile = true) ∧
      renewsLease request profile = false ∧
      applyRequest request profile = (.ok .applied, requested request profile)) := by
  unfold applyRequest
  split
  · exact .inl ⟨_, rfl⟩
  next hvalid =>
    split
    · exact .inl ⟨_, rfl⟩
    next huart =>
      split
      · exact .inl ⟨_, rfl⟩
      next hsta =>
        split
        · next hlease => exact .inr (.inl ⟨hlease, rfl⟩)
        next hlease =>
          have hvalid : validateConfig request.config = true := by simpa using hvalid
          refine .inr (.inr ⟨hvalid, huart, ?_, by simpa using hlease, ?_⟩)
          · intro hmode
            simp only [hmode, true_and, not_and, Bool.not_eq_false] at hsta
            cases hnames : namesStation request.config with
            | true => exact .inl rfl
            | false => exact .inr (hsta hnames)
          · rw [applyConfig, if_pos hvalid]
            rfl

variable {request : TransportRequest}

theorem applyRequest_applied {profile : TransportProfile}
    (hvalid : validateConfig request.config = true) (huart : request.mode ≠ some .uart)
    (hsta : request.mode = some .sta → namesStation request.config = true ∨
      profile.hasStaProfile = true) (hlease : renewsLease request profile = false) :
    applyRequest request profile = (.ok .applied, requested request profile) := by
  have hstation : ¬ (request.mode = some .sta ∧ namesStation request.config = false ∧
      profile.hasStaProfile = false) := by
    rintro ⟨hmode, hnames, hprofile⟩
    rcases hsta hmode with h | h
    · rw [hnames] at h
      cases h
    · rw [hprofile] at h
      cases h
  unfold applyRequest
  rw [if_neg (by rw [hvalid]; exact Bool.noConfusion), if_neg huart, if_neg hstation,
    if_neg (by rw [hlease]; exact Bool.noConfusion), applyConfig, if_pos hvalid]
  rfl

theorem applyRequest_snd (request : TransportRequest) (profile : TransportProfile) :
    (applyRequest request profile).2 = profile ∨ (applyRequest request profile).2 =
      requested request profile := by
  rcases applyRequest_cases request profile with ⟨e, h⟩ | ⟨-, h⟩ | ⟨-, -, -, -, h⟩
  · exact .inl (by rw [h])
  · exact .inl (by rw [h])
  · exact .inr (by rw [h])

theorem applyRequest_error {profile : TransportProfile} {e : Int}
    (h : (applyRequest request profile).1 = .error e) :
    (applyRequest request profile).2 = profile := by
  rcases applyRequest_cases request profile with ⟨e, hcase⟩ | ⟨-, hcase⟩ | ⟨-, -, -, -, hcase⟩
  · rw [hcase]
  · rw [hcase]
  · rw [hcase] at h
    cases h

theorem requested_requested (request : TransportRequest) (profile : TransportProfile) :
    requested request (requested request profile) = requested request profile := by
  have hintent := requested_intent request profile
  have hagain := requested_intent request (requested request profile)
  refine TransportProfile.ext ?_ ?_ ?_
  · rw [requested_slot, requested_slot, applySlots_reset]
  · rw [hagain.1, hintent.1]
    cases request.mode <;> rfl
  · rw [hagain.2, hintent.2]
    cases request.mode <;> rfl

/-- The same request again changes nothing. -/
theorem applyRequest_again (request : TransportRequest) (profile : TransportProfile) :
    (applyRequest request (applyRequest request profile).2).2 =
      (applyRequest request profile).2 := by
  rcases applyRequest_snd request profile with h | h
  · rw [h, h]
  rw [h]
  rcases applyRequest_snd request (requested request profile) with hagain | hagain
  · exact hagain
  · rw [hagain, requested_requested]

section

variable (hmode : request.mode = none)
include hmode

/-- A request without a mode is applied when its fields are valid. -/
theorem applyRequest_modeless (profile : TransportProfile) : (applyRequest request profile).2 =
      if validateConfig request.config then { profile with
        slot := applySlots request.config profile.slot }
      else profile := by
  have hlease : renewsLease request profile = false := by
    unfold renewsLease
    rw [hmode]
    rfl
  unfold applyRequest applyConfig modeBase
  rw [hlease, hmode]
  cases validateConfig request.config <;> rfl

theorem applyRequest_untouched (profile : TransportProfile) :
    (∀ k, touches request.config k = false →
      (applyRequest request profile).2.slot k = profile.slot k) ∧
    (applyRequest request profile).2.runRequested = profile.runRequested ∧
    (applyRequest request profile).2.requestedTransport = profile.requestedTransport := by
  rw [applyRequest_modeless hmode]
  split
  · exact ⟨fun k hk => applySlots_untouched hk profile.slot, rfl, rfl⟩
  · exact ⟨fun _ _ => rfl, rfl, rfl⟩

theorem applyRequest_comm {other : TransportRequest} (hother : other.mode = none)
    (hdisjoint : ∀ k, ¬ (touches request.config k = true ∧ touches other.config k = true))
    (profile : TransportProfile) : (applyRequest request (applyRequest other profile).2).2 =
      (applyRequest other (applyRequest request profile).2).2 := by
  rw [applyRequest_modeless hmode, applyRequest_modeless hother, applyRequest_modeless hother,
    applyRequest_modeless hmode]
  cases validateConfig request.config with
  | false => cases validateConfig other.config <;> rfl
  | true =>
    cases validateConfig other.config with
    | false => rfl
    | true => exact TransportProfile.ext (applySlots_comm hdisjoint profile.slot) rfl rfl

end

end QuicLite.Profile
