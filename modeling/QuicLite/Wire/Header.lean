import QuicLite.Wire.Frame

/-!
# Short headers and truncated packet numbers

A packet starts with a flags byte, the receiver's connection id and the low one to four bytes of
the packet number. The receiver widens the truncated number to the candidate nearest to the number
it expects next. `reconstruct_eq_iff` says exactly which expectations recover the number: those in
the half-open window of half the truncation modulus around it.
-/

namespace QuicLite

open BigEndian List Nat Except

variable {h : ShortHeader} {pnLen n : Nat}

def flagFixed : UInt8 := 0x40
def flagReserved : UInt8 := 0x18
def flagKeyPhase : UInt8 := 0x04

structure ShortHeader where
  flags : UInt8
  dcid : ConnectionId
  packetNumber : Nat
  packetNumberLen : Nat
  deriving DecidableEq

/-- The part of a header that can be read before the connection is known. -/
structure ShortHeaderPrefix where
  flags : UInt8
  dcid : ConnectionId
  truncatedPacketNumber : Nat
  packetNumberLen : Nat
  headerLen : Nat
  deriving DecidableEq

/-- `packet_number_len.clamp(1, 4)` -/
def clampLen (len : Nat) : Nat := min (max len 1) 4

/-- Without packet protection the key-phase bit is cleared together with the reserved bits. -/
def ShortHeader.firstByte (flags : UInt8) (pnLen : Nat) : UInt8 :=
  (flags &&& ~~~(flagReserved ||| flagKeyPhase)) ||| flagFixed ||| (UInt8.ofNat (pnLen - 1) &&& 3)

def ShortHeader.bytes (h : ShortHeader) : Bytes :=
  ShortHeader.firstByte h.flags (clampLen h.packetNumberLen) ::
    (h.dcid.bytes ++ toBytes (clampLen h.packetNumberLen) h.packetNumber)

def ShortHeader.encode (h : ShortHeader) (capacity : Nat) : Except Error Bytes :=
  if capacity < 1 + h.dcid.encodedLen + clampLen h.packetNumberLen then .error .bufferTooSmall
  else .ok h.bytes

def ShortHeader.decodePrefix (input : Bytes) : Except Error ShortHeaderPrefix :=
  match input with
  | [] => .error .truncated
  | first :: rest =>
    if first &&& flagFixed = 0 ∨ first &&& flagReserved ≠ 0 ∨ first &&& flagKeyPhase ≠ 0 then
      .error .invalid
    else do
      let pnLen := (first &&& 3).toNat + 1
      let (dcid, cidLen) ← ConnectionId.decode rest
      if input.length < 1 + cidLen + pnLen then .error .truncated
      else
        .ok {
          flags := first
          dcid := dcid
          truncatedPacketNumber := ofBytes 0 ((rest.drop cidLen).take pnLen)
          packetNumberLen := pnLen
          headerLen := 1 + cidLen + pnLen }

/-- Widen a truncated number to the candidate nearest to `expected`. -/
def reconstructNumber (pnLen truncated expected : Nat) : Except Error Nat :=
  let window := 1 <<< (pnLen * 8)
  let halfWindow := window / 2
  -- `expected & !(window - 1)`
  let epoch := (expected >>> (pnLen * 8)) <<< (pnLen * 8)
  let candidate := epoch ||| truncated
  if candidate + halfWindow ≤ expected ∧ candidate + window ≤ u32Max then .ok (candidate + window)
  else if candidate > expected + halfWindow then
    if candidate < window then .error .packetNumberExhausted
    else if candidate - window > u32Max then .error .packetNumberExhausted
    else .ok (candidate - window)
  else if candidate > u32Max then .error .packetNumberExhausted
  else .ok candidate

def ShortHeaderPrefix.reconstruct (self : ShortHeaderPrefix) (expected : Nat) :
    Except Error ShortHeader := do
  let packetNumber ← reconstructNumber self.packetNumberLen self.truncatedPacketNumber expected
  .ok ⟨self.flags, self.dcid, packetNumber, self.packetNumberLen⟩

/-- `ShortHeader::decode_with_expected` -/
def ShortHeader.decodeWithExpected (input : Bytes) (expected : Nat) :
    Except Error (ShortHeader × Nat) := do
  let self ← ShortHeader.decodePrefix input
  let header ← self.reconstruct expected
  .ok (header, self.headerLen)

/-- `ShortHeader::decode`: the number stays truncated. -/
def ShortHeader.decode (input : Bytes) : Except Error (ShortHeader × Nat) := do
  let self ← ShortHeader.decodePrefix input
  .ok (⟨self.flags, self.dcid, self.truncatedPacketNumber, self.packetNumberLen⟩, self.headerLen)

/-- The shortest encoding whose window is unambiguous relative to what the peer acknowledged. -/
def packetNumberLen (next : Nat) (largestAcked : Option Nat) : Nat :=
  let baseline := largestAcked.getD 0
  let distance := next - baseline
  let needed := max (distance * 2) 1
  if needed < 2 ^ 8 then 1 else if needed < 2 ^ 16 then 2 else if needed < 2 ^ 24 then 3 else 4

/-! ## Reading a header back -/

theorem clampLen_pos (len : Nat) : 1 ≤ clampLen len ∧ clampLen len ≤ 4 := by
  unfold clampLen
  omega

open ShortHeader

@[simp] theorem ShortHeader.length_bytes (h : ShortHeader) :
    h.bytes.length = 1 + h.dcid.encodedLen + clampLen h.packetNumberLen := by
  simp [bytes]
  omega

theorem ShortHeader.encode_eq_ok {capacity : Nat} {bs : Bytes} :
    h.encode capacity = .ok bs ↔ bs = h.bytes ∧ bs.length ≤ capacity := by
  unfold encode
  split_ifs with hc
  · simp only [false_iff, not_and]
    rintro rfl
    rw [length_bytes]
    omega
  simp only [ok.injEq]
  constructor
  · rintro rfl
    exact ⟨rfl, by rw [length_bytes]; omega⟩
  · rintro ⟨rfl, -⟩
    rfl

/-- The first byte of an emitted header passes the decoder's flag checks and yields the length
back. -/
theorem firstByte_spec (h : 1 ≤ pnLen ∧ pnLen ≤ 4) : ¬(firstByte flagFixed pnLen &&& flagFixed = 0 ∨
        firstByte flagFixed pnLen &&& flagReserved ≠ 0 ∨
        firstByte flagFixed pnLen &&& flagKeyPhase ≠ 0) ∧
      (firstByte flagFixed pnLen &&& 3).toNat + 1 = pnLen := by
  obtain ⟨h₁, h₂⟩ := h
  interval_cases pnLen <;> decide

theorem ShortHeader.decodePrefix_bytes (hfixed : h.flags = flagFixed) (payload : Bytes) :
    decodePrefix (h.bytes ++ payload) = .ok {
      flags := firstByte flagFixed (clampLen h.packetNumberLen)
      dcid := h.dcid
      truncatedPacketNumber := h.packetNumber % 256 ^ clampLen h.packetNumberLen
      packetNumberLen := clampLen h.packetNumberLen
      headerLen := h.bytes.length } := by
  have hlen := clampLen_pos h.packetNumberLen
  obtain ⟨hflags, hpn⟩ := firstByte_spec hlen
  have hdrop : (h.dcid.bytes ++
      (toBytes (clampLen h.packetNumberLen) h.packetNumber ++ payload)).drop
      h.dcid.encodedLen = toBytes (clampLen h.packetNumberLen) h.packetNumber ++ payload := by
    rw [← h.dcid.length_bytes, drop_left]
  simp only [bytes, hfixed, cons_append, append_assoc, decodePrefix,
    if_neg hflags, ConnectionId.decode_bytes, ok_bind, hpn, hdrop]
  rw [if_neg (by simp; omega), take_append_of_le_length (by simp), take_of_length_le (by simp),
    ofBytes_toBytes, zero_mul]
  simp
  omega

/-! ## Which expectations recover a number -/

/-- The candidate is the expectation's epoch with the low digits replaced. -/
theorem candidate_eq (k truncated expected : Nat) (h : truncated < 2 ^ k) :
    (expected >>> k) <<< k ||| truncated = expected / 2 ^ k * 2 ^ k + truncated := by
  rw [← shiftLeft_add_eq_or_of_lt h, shiftLeft_eq, shiftRight_eq_div_pow]

/-- With window `w = 2 * half`, a number strictly within `half` below and at most `half` above the
expectation is recovered, and one further above is not. -/
theorem reconstructNumber_iff {expected : Nat} (hlen : 1 ≤ pnLen ∧ pnLen ≤ 4)
    (hn : n ≤ u32Max) (hbelow : expected < n + 2 ^ (8 * pnLen - 1)) :
    reconstructNumber pnLen (n % 256 ^ pnLen) expected = .ok n ↔
      n ≤ expected + 2 ^ (8 * pnLen - 1) := by
  obtain ⟨half, hhalf⟩ : ∃ half, half = 2 ^ (8 * pnLen - 1) := ⟨_, rfl⟩
  have hwindow : 2 ^ (pnLen * 8) = 2 * half := by
    rw [hhalf, ← pow_succ']
    congr 1
    omega
  have hpow : 256 ^ pnLen = 2 * half := by
    rw [← hwindow, Nat.mul_comm pnLen 8, Nat.pow_mul]
  have hpos : 0 < half := by rw [hhalf]; exact Nat.two_pow_pos _
  have hlt : n % (2 * half) < 2 ^ (pnLen * 8) := by
    rw [hwindow]
    exact mod_lt _ (by omega)
  simp only [reconstructNumber, hpow, shiftLeft_eq 1, one_mul]
  rw [candidate_eq _ _ _ hlt, hwindow]
  -- Write both numbers as epoch and offset; only neighbouring epochs can be meant.
  have hnsplit := div_add_mod n (2 * half)
  have hesplit := div_add_mod expected (2 * half)
  have hemod := mod_lt expected (show 0 < 2 * half by omega)
  generalize n / (2 * half) = a at *
  generalize expected / (2 * half) = b at *
  rw [mul_comm] at hnsplit hesplit
  rcases lt_trichotomy a b with hab | hab | hab
  · obtain ⟨d, rfl⟩ : ∃ d, b = a + 1 + d := ⟨b - a - 1, by omega⟩
    have hexp : (a + 1 + d) * (2 * half) = a * (2 * half) + 2 * half + d * (2 * half) := by ring
    obtain rfl : d = 0 := by
      by_contra hne
      have : 1 * (2 * half) ≤ d * (2 * half) := mul_le_mul_right _ (by omega)
      omega
    split_ifs with h₁ h₂ h₃ h₄ h₅ <;> simp only [ok.injEq, false_iff] <;> omega
  · subst hab
    split_ifs with h₁ h₂ h₃ h₄ h₅ <;> simp only [ok.injEq, false_iff] <;> omega
  · obtain ⟨d, rfl⟩ : ∃ d, a = b + 1 + d := ⟨a - b - 1, by omega⟩
    have hexp : (b + 1 + d) * (2 * half) = b * (2 * half) + 2 * half + d * (2 * half) := by ring
    rcases Nat.eq_zero_or_pos d with rfl | hd
    · split_ifs with h₁ h₂ h₃ h₄ h₅ <;> simp only [ok.injEq, false_iff] <;> omega
    · have : 1 * (2 * half) ≤ d * (2 * half) := Nat.mul_le_mul_right _ (by omega)
      split_ifs with h₁ h₂ h₃ h₄ h₅ <;> simp only [ok.injEq, false_iff] <;> omega

/-- The chosen length leaves the number strictly less than half a window above the baseline. -/
theorem packetNumberLen_spec {largestAcked : Option Nat} (h : n - largestAcked.getD 0 < 2 ^ 31) :
    1 ≤ packetNumberLen n largestAcked ∧ packetNumberLen n largestAcked ≤ 4 ∧
      n - largestAcked.getD 0 < 2 ^ (8 * packetNumberLen n largestAcked - 1) := by
  unfold packetNumberLen
  simp only
  split_ifs with h₁ h₂ h₃
  · exact ⟨by decide, by decide, by norm_num; omega⟩
  · exact ⟨by decide, by decide, by norm_num; omega⟩
  · exact ⟨by decide, by decide, by norm_num; omega⟩
  · exact ⟨by decide, by decide, by norm_num; omega⟩

end QuicLite
