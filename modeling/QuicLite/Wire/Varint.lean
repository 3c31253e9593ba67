import QuicLite.Lib.BigEndian
import Mathlib.Tactic.IntervalCases

/-!
# Variable-length integers and connection ids

The two self-delimiting integers of the wire format. A QUIC varint spends the top two bits of its
first byte on the length; a connection id spends one or three. Both are written big-endian and
read back by the loop of `BigEndian`.

Writers take the number of bytes left in the output slice and return the bytes written; readers
take the remaining input and return the value with the number of bytes consumed.
-/

namespace QuicLite

open BigEndian Except UInt8 List

variable {value n : Nat} {input : Bytes} {α β : Type} {capacity : Nat} {bs : Bytes}

abbrev Bytes := List UInt8

inductive Error where
  | bufferTooSmall
  | truncated
  | invalid
  | blocked
  | invalidVarint
  | flowControl
  | streamLimit
  | packetNumberExhausted
  | wrongConnectionId
  | peerRestarted
  | bootstrapInvalid
  | historyFull
  | pathLimit
  | retransmissionTooLarge
  | datagramUnsupported
  | datagramTooLarge
  | outOfMemory
  deriving DecidableEq, Repr

instance decidableEqExcept {α : Type} [DecidableEq α] : DecidableEq (Except Error α)
  | .ok a, .ok b => decidable_of_iff (a = b) (by simp)
  | .error e, .error f => decidable_of_iff (e = f) (by simp)
  | .ok _, .error _ => isFalse (by simp)
  | .error _, .ok _ => isFalse (by simp)

/-- Peel one step off a computation that succeeded. -/
theorem bind_eq_ok {x : Except Error α} {f : α → Except Error β} {b : β} :
    x >>= f = .ok b ↔ ∃ a, x = .ok a ∧ f a = .ok b := by
  cases x with
  | error e => simp [bind, Except.bind]
  | ok a => simp [bind, Except.bind]

@[simp] theorem ok_bind (a : α) (f : α → Except Error β) : (ok a >>= f) = f a := rfl

@[simp] theorem error_bind (e : Error) (f : α → Except Error β) :
    ((error e : Except Error α) >>= f) = .error e := rfl

/-! ## Varints -/

/-- Everything a varint can hold. -/
def varintBound : Nat := 2 ^ 62

/-- The number of bytes `put_varint` needs. -/
def varintLen (value : Nat) : Nat :=
  if value < 2 ^ 6 then 1 else if value < 2 ^ 14 then 2 else if value < 2 ^ 30 then 4 else 8

/-- The length tag in the top two bits of the first byte. -/
def varintTag : Nat → UInt8
  | 1 => 0x00
  | 2 => 0x40
  | 4 => 0x80
  | _ => 0xc0

/-- Write `value` in `n` bytes and put the length tag over the first one. -/
def varintBytes (n value : Nat) : Bytes :=
  match toBytes n value with
  | [] => []
  | b :: rest => ((b &&& 0x3f) ||| varintTag n) :: rest

def putVarint (value capacity : Nat) : Except Error Bytes :=
  if varintBound ≤ value then .error .invalidVarint
  else if capacity < varintLen value then .error .bufferTooSmall
  else .ok (varintBytes (varintLen value) value)

def getVarint (input : Bytes) : Except Error (Nat × Nat) :=
  match input with
  | [] => .error .truncated
  | first :: rest =>
    let n := 1 <<< (first >>> 6).toNat
    if input.length < n then .error .truncated
    else .ok (ofBytes (first &&& 0x3f).toNat (rest.take (n - 1)), n)

/-- The bytes of a representable value. -/
def varint (value : Nat) : Bytes := varintBytes (varintLen value) value

theorem varintLen_pos (value : Nat) : 0 < varintLen value := by
  unfold varintLen
  split_ifs <;> omega

theorem varintLen_le (value : Nat) : varintLen value ≤ 8 := by
  unfold varintLen
  split_ifs <;> omega

@[simp] theorem length_varint (value : Nat) : (varint value).length = varintLen value := by
  obtain ⟨n, hn⟩ : ∃ n, varintLen value = n + 1 :=
    ⟨varintLen value - 1, by have := varintLen_pos value; omega⟩
  simp [varint, varintBytes, hn, toBytes]

theorem putVarint_eq_ok : putVarint value capacity = .ok bs ↔
      value < varintBound ∧ varintLen value ≤ capacity ∧ bs = varint value := by
  unfold putVarint
  split_ifs with h₁ h₂
  · simp; omega
  · simp; omega
  simp only [ok.injEq, varint]
  constructor
  · rintro rfl
    exact ⟨by omega, by omega, rfl⟩
  · rintro ⟨-, -, rfl⟩
    rfl

/-- The four length classes, each with room for six bits beyond its whole bytes. -/
theorem varintLen_cases (h : value < varintBound) :
    (varintLen value = 1 ∧ value < 2 ^ (8 * 0 + 6)) ∨
      (varintLen value = 2 ∧ value < 2 ^ (8 * 1 + 6)) ∨
      (varintLen value = 4 ∧ value < 2 ^ (8 * 3 + 6)) ∨
      (varintLen value = 8 ∧ value < 2 ^ (8 * 7 + 6)) := by
  unfold varintBound at h
  unfold varintLen
  split_ifs <;> omega

/-- The tag survives beside six payload bits, and masking it off restores them. -/
theorem tag_roundTrip (b : UInt8) (h : b.toNat < 2 ^ 6) (tag : Nat) (htag : tag < 4) :
    (((b &&& 0x3f) ||| ofNat (tag * 64)) >>> 6).toNat = tag ∧
      (((b &&& 0x3f) ||| ofNat (tag * 64)) &&& 0x3f).toNat = b.toNat := by
  have key : ∀ x : Fin 64, ∀ t : Fin 4, (((ofNat x &&& 0x3f) ||| ofNat (t * 64)) >>> 6).toNat = t ∧
        (((ofNat x &&& 0x3f) ||| ofNat (t * 64)) &&& 0x3f).toNat = x := by
    decide +kernel
  have := key ⟨b.toNat, h⟩ ⟨tag, htag⟩
  simpa using this

/-- One length class: `n + 1` bytes with tag `t`, where `2 ^ t = n + 1`. -/
theorem getVarint_class (n t value : Nat) (suffix : Bytes) (ht : t < 4) (hn : 1 <<< t = n + 1)
    (htag : varintTag (n + 1) = ofNat (t * 64)) (h : value < 2 ^ (8 * n + 6)) :
    getVarint (varintBytes (n + 1) value ++ suffix) = .ok (value, n + 1) := by
  have hhead := head_lt n 6 value h
  obtain ⟨hlen, hmask⟩ := tag_roundTrip _ hhead t ht
  have hvalue : value < 256 ^ (n + 1) := by
    calc value < 2 ^ (8 * n + 6) := h
      _ ≤ 2 ^ (8 * (n + 1)) := Nat.pow_le_pow_right (by decide) (by omega)
      _ = 256 ^ (n + 1) := by rw [Nat.pow_mul]
  simp only [varintBytes, toBytes, htag, cons_append, getVarint, hlen, hn, hmask]
  rw [if_neg (by simp), take_append_of_le_length (by simp), take_of_length_le (by simp),
    ofBytes_head n value hvalue]

/-- Reading a written varint, whatever follows it. -/
theorem getVarint_varint (h : value < varintBound) (suffix : Bytes) :
    getVarint (varint value ++ suffix) = .ok (value, varintLen value) := by
  unfold varint
  rcases varintLen_cases h with ⟨hn, hv⟩ | ⟨hn, hv⟩ | ⟨hn, hv⟩ | ⟨hn, hv⟩ <;> rw [hn]
  · exact getVarint_class 0 0 value suffix (by decide) rfl rfl hv
  · exact getVarint_class 1 1 value suffix (by decide) rfl rfl hv
  · exact getVarint_class 3 2 value suffix (by decide) rfl rfl hv
  · exact getVarint_class 7 3 value suffix (by decide) rfl rfl hv

theorem tag_lt (first : UInt8) : (first >>> 6).toNat < 4 := by
  have key : ∀ x : Fin 256, (ofNat x >>> 6).toNat < 4 := by decide +kernel
  simpa using key ⟨first.toNat, first.toNat_lt⟩

theorem ofBytes_masked_lt (first : UInt8) (rest : Bytes) (count : Nat) :
    ofBytes (first &&& 0x3f).toNat (rest.take count) < 2 ^ 6 * 256 ^ count := by
  have hmask : (first &&& 0x3f).toNat + 1 ≤ 2 ^ 6 := by
    have key : ∀ x : Fin 256, (ofNat x &&& 0x3f).toNat + 1 ≤ 2 ^ 6 := by decide +kernel
    simpa using key ⟨first.toNat, first.toNat_lt⟩
  calc ofBytes (first &&& 0x3f).toNat (rest.take count)
      < ((first &&& 0x3f).toNat + 1) * 256 ^ (rest.take count).length := ofBytes_lt _ _
    _ ≤ 2 ^ 6 * 256 ^ count := Nat.mul_le_mul hmask
      (Nat.pow_le_pow_right (by decide) (length_take_le _ _))

/-- What a successful read promises about any input, minimal encoding or not. -/
theorem getVarint_ok (h : getVarint input = .ok (value, n)) :
    value < varintBound ∧ 1 ≤ n ∧ n ≤ input.length := by
  cases input with
  | nil => simp [getVarint] at h
  | cons first rest =>
  simp only [getVarint] at h
  split_ifs at h with hlen
  cases h
  refine ⟨(ofBytes_masked_lt ..).trans_le ?_, ?_, by omega⟩
  · have htag := tag_lt first
    generalize (first >>> 6).toNat = t at htag ⊢
    interval_cases t <;> decide
  · rw [Nat.shiftLeft_eq, Nat.one_mul]
    exact Nat.one_le_two_pow

theorem varintLen_le_of_getVarint (h : getVarint input = .ok (value, n)) : varintLen value ≤ n := by
  cases input with
  | nil => simp [getVarint] at h
  | cons first rest =>
  simp only [getVarint] at h
  split_ifs at h with hlen
  cases h
  have htag := tag_lt first
  have hlt := ofBytes_masked_lt first rest (1 <<< (first >>> 6).toNat - 1)
  generalize (first >>> 6).toNat = t at htag hlt ⊢
  generalize ofBytes (first &&& 0x3f).toNat (rest.take (1 <<< t - 1)) = value at hlt ⊢
  unfold varintLen
  interval_cases t
  · rw [if_pos (by simpa using hlt)]
    decide
  · have : value < 2 ^ 14 := by simpa using hlt
    split_ifs <;> simp
  · have : value < 2 ^ 30 := by simpa using hlt
    split_ifs <;> simp
  · split_ifs <;> simp

/-! ## Connection ids -/

/-- A connection id has at most 61 bits, so that the longest encoding keeps three tag bits. -/
@[ext]
structure ConnectionId where
  value : Nat
  le_max : value ≤ 2 ^ 61 - 1

namespace ConnectionId

instance : DecidableEq ConnectionId := fun a b =>
  decidable_of_iff (a.value = b.value) ⟨fun h => by cases a; cases b; simp_all, fun h => h ▸ rfl⟩

def new (value : Nat) : Option ConnectionId :=
  if h : value ≤ 2 ^ 61 - 1 then some ⟨value, h⟩ else none

def encodedLenOf (value : Nat) : Nat :=
  if value ≤ 0x7f then 1 else if value ≤ 0x1fff then 2 else if value ≤ 0x1fffffff then 4 else 8

def encodedLen (cid : ConnectionId) : Nat := encodedLenOf cid.value

def cidTag : Nat → UInt8
  | 1 => 0x00
  | 2 => 0x80
  | 4 => 0xa0
  | _ => 0xc0

/-- The value in `n` bytes, with the length class over the top bits of the first one. -/
def cidBytes (n value : Nat) : Bytes :=
  match toBytes n value with
  | [] => []
  | b :: rest => ((b &&& if n = 1 then 0x7f else 0x1f) ||| cidTag n) :: rest

def bytes (cid : ConnectionId) : Bytes := cidBytes cid.encodedLen cid.value

def encode (cid : ConnectionId) (capacity : Nat) : Except Error Bytes :=
  if capacity < cid.encodedLen then .error .bufferTooSmall else .ok cid.bytes

/-- The length class of a first byte: encoded length and value mask. -/
def lengthClass (first : UInt8) : Except Error (Nat × UInt8) :=
  if first &&& 0x80 = 0 then .ok (1, 0x7f)
  else
    match ((first >>> 5) &&& 0x03).toNat with
    | 0 => .ok (2, 0x1f)
    | 1 => .ok (4, 0x1f)
    | 2 => .ok (8, 0x1f)
    | _ => .error .invalid

def decode (input : Bytes) : Except Error (ConnectionId × Nat) :=
  match input with
  | [] => .error .truncated
  | first :: rest => do
      let (n, valueMask) ← lengthClass first
      if input.length < n then .error .truncated
      else
        let value := ofBytes (first &&& valueMask).toNat (rest.take (n - 1))
        if encodedLenOf value ≠ n then .error .invalid
        else
          -- Eight bytes leave 61 value bits, so every value read here is a connection id.
          match new value with
          | none => .error .invalid
          | some cid => .ok (cid, n)

variable (cid : ConnectionId)

theorem encodedLen_cases : (cid.encodedLen = 1 ∧ cid.value < 2 ^ (8 * 0 + 7)) ∨
      (cid.encodedLen = 2 ∧ cid.value < 2 ^ (8 * 1 + 5)) ∨
      (cid.encodedLen = 4 ∧ cid.value < 2 ^ (8 * 3 + 5)) ∨
      (cid.encodedLen = 8 ∧ cid.value < 2 ^ (8 * 7 + 5)) := by
  have := cid.le_max
  unfold encodedLen encodedLenOf
  split_ifs <;> omega

theorem encodedLen_le : cid.encodedLen ≤ 8 := by
  rcases cid.encodedLen_cases with h | h | h | h <;> omega

theorem encodedLen_pos : 0 < cid.encodedLen := by
  rcases cid.encodedLen_cases with h | h | h | h <;> omega

@[simp] theorem length_bytes : cid.bytes.length = cid.encodedLen := by
  obtain ⟨n, hn⟩ : ∃ n, cid.encodedLen = n + 1 :=
    ⟨cid.encodedLen - 1, by have := cid.encodedLen_pos; omega⟩
  simp [bytes, cidBytes, hn, toBytes]

theorem encode_eq_ok {cid : ConnectionId} :
    cid.encode capacity = .ok bs ↔ cid.encodedLen ≤ capacity ∧ bs = cid.bytes := by
  unfold encode
  split_ifs with h
  · simp; omega
  simp only [ok.injEq]
  constructor
  · rintro rfl
    exact ⟨by omega, rfl⟩
  · rintro ⟨-, rfl⟩
    rfl

/-- One length class: `n + 1` bytes with `k` value bits in the first, under `mask` and `tag`. -/
theorem decode_class (n k : Nat) (mask : UInt8) (cid : ConnectionId) (suffix : Bytes)
    (hlen : cid.encodedLen = n + 1) (h : cid.value < 2 ^ (8 * n + k)) (hk : k ≤ 8)
    (hmask : mask = if n + 1 = 1 then 0x7f else 0x1f) (hfirst : ∀ x < 2 ^ k,
      lengthClass ((UInt8.ofNat x &&& mask) ||| cidTag (n + 1)) = .ok (n + 1, mask) ∧
        (((UInt8.ofNat x &&& mask) ||| cidTag (n + 1)) &&& mask).toNat = x) :
    decode (cid.bytes ++ suffix) = .ok (cid, n + 1) := by
  have hhead := head_lt n k cid.value h
  obtain ⟨hclass, hvalue⟩ := hfirst _ hhead
  have hfits : cid.value < 256 ^ (n + 1) := by
    calc cid.value < 2 ^ (8 * n + k) := h
      _ ≤ 2 ^ (8 * (n + 1)) := Nat.pow_le_pow_right (by decide) (by omega)
      _ = 256 ^ (n + 1) := by rw [Nat.pow_mul]
  rw [UInt8.ofNat_toNat] at hclass hvalue
  simp only [bytes, cidBytes, hlen, toBytes, cons_append, decode, ← hmask, hclass, ok_bind]
  rw [if_neg (by simp), take_append_of_le_length (by simp), take_of_length_le (by simp),
    hvalue, ofBytes_head n cid.value hfits, if_neg (by simpa [encodedLen] using hlen)]
  rw [new, dif_pos cid.le_max]

theorem decode_bytes (suffix : Bytes) :
    decode (cid.bytes ++ suffix) = .ok (cid, cid.encodedLen) := by
  rcases cid.encodedLen_cases with ⟨hn, hv⟩ | ⟨hn, hv⟩ | ⟨hn, hv⟩ | ⟨hn, hv⟩ <;> rw [hn]
  · refine decode_class 0 7 0x7f cid suffix hn hv (by decide) rfl ?_
    decide +kernel
  · refine decode_class 1 5 0x1f cid suffix hn hv (by decide) rfl ?_
    decide +kernel
  · refine decode_class 3 5 0x1f cid suffix hn hv (by decide) rfl ?_
    decide +kernel
  · refine decode_class 7 5 0x1f cid suffix hn hv (by decide) rfl ?_
    decide +kernel

theorem decode_ok {cid : ConnectionId} (h : decode input = .ok (cid, n)) :
    n = cid.encodedLen ∧ 1 ≤ n ∧ n ≤ input.length := by
  cases input with
  | nil => simp [decode] at h
  | cons first rest =>
  simp only [decode, bind_eq_ok] at h
  obtain ⟨⟨m, mask⟩, -, h⟩ := h
  split_ifs at h with h₁ h₂
  simp only [new] at h
  split_ifs at h with hmax
  cases h
  simp only [Decidable.not_not] at h₂
  have hpos := encodedLen_pos ⟨_, hmax⟩
  have hlen : encodedLen ⟨_, hmax⟩ = n := h₂
  exact ⟨hlen.symm, by omega, by omega⟩

/-- The class fixes the bits that the mask clears. -/
theorem lengthClass_restores {first : UInt8} {m : Nat} {mask : UInt8}
    (h : lengthClass first = .ok (m, mask)) :
    ((first &&& mask) &&& (if m = 1 then 0x7f else 0x1f)) ||| cidTag m = first := by
  have key : ∀ x : Fin 256, (lengthClass (.ofNat x)).toOption.all (fun c =>
      ((.ofNat x &&& c.2) &&& (if c.1 = 1 then 0x7f else 0x1f)) ||| cidTag c.1 == UInt8.ofNat x) =
        true := by
    decide +kernel
  have hfirst := key ⟨first.toNat, first.toNat_lt⟩
  rw [UInt8.ofNat_toNat, h] at hfirst
  exact eq_of_beq hfirst

/-- The decoder accepts the shortest encoding of an id only, so that encoding restores its bytes. -/
theorem decode_canonical {cid : ConnectionId} (h : decode input = .ok (cid, n)) :
    input.take n = cid.bytes := by
  obtain ⟨hn, hpos, hle⟩ := decode_ok h
  cases input with
  | nil => simp [decode] at h
  | cons first rest =>
  simp only [decode, bind_eq_ok] at h
  obtain ⟨⟨m, mask⟩, hclass, h⟩ := h
  simp only [new] at h
  split_ifs at h with hmax
  cases h
  have hrest : (rest.take (n - 1)).length = n - 1 := by
    rw [length_take]
    simp only [length_cons] at hle
    omega
  have hfirst := lengthClass_restores hclass
  unfold bytes
  rw [← hn]
  obtain ⟨k, rfl⟩ : ∃ k, n = k + 1 := ⟨n - 1, by omega⟩
  simp only [Nat.add_sub_cancel] at hrest ⊢
  have hshift := ofBytes_shiftRight (first &&& mask).toNat (rest.take k)
  have hbytes := toBytes_ofBytes (first &&& mask).toNat (rest.take k)
  rw [hrest] at hshift hbytes
  simp only [cidBytes, toBytes, hshift, hbytes, UInt8.ofNat_toNat, hfirst, take_succ_cons]

end ConnectionId

end QuicLite
