import Mathlib.Data.ZMod.Basic
import QuicLite.Lib.LittleEndian

/-!
# Public keys

The layout of an RSA public key that ADB exchanges, with the constants of Montgomery multiplication.
One of them is computed by another power than the layout asks for.
-/

namespace QuicLite.Android.PublicKey

open LittleEndian List

def modulusSizeWords : Nat := 64

def modulusBytes : Nat := 256

def rrBytes : Nat := 256

/-- `ModInverse`, the inverse below a modulus. -/
structure ModInverse where
  modInverse : Nat → Nat → Option Nat
  inverts : ∀ a m, 1 < m → a.Coprime m → ∃ v, modInverse a m = some v ∧ 0 < v ∧ v < m ∧
    a * v % m = 1

/-- The bytes of an odd modulus of at most 2048 bits, the most significant first. -/
structure Modulus where
  bytes : List UInt8
  odd : value bytes.reverse % 2 = 1
  one_lt : 1 < value bytes.reverse
  bound : value bytes.reverse < 2 ^ 2048

abbrev Modulus.n (modulus : Modulus) : Nat := value modulus.bytes.reverse

def modpow (base exponent modulus : Nat) : Nat := base ^ exponent % modulus

/-- `android_pubkey_bytes`, without a result where it panics. -/
def androidPubkeyBytes (lib : ModInverse) (nBe : List UInt8) (e : UInt32) : Option (List UInt8) :=
  let n := value nBe.reverse
  let r32 := 1 <<< 32
  let r := 1 <<< (modulusBytes * 8)
  let rr := modpow r r n
  match lib.modInverse (n % r32) r32 with
  | none => none
  | some n0invInv =>
    let n0inv := r32 - n0invInv
    if r32 ≤ n0inv then none
    else some ((fixed 4 modulusSizeWords).val ++ (fixed 4 n0inv).val ++
      (fixed modulusBytes n).val ++ (fixed rrBytes rr).val ++ (fixed 4 e.toNat).val)

def nativePubComponents (bytes : List UInt8) : Except String (List UInt8 × Nat) :=
  if bytes.length < 8 then .error "pub blob too short"
  else
    let modLen := value (bytes.take 4) * 4
    let rrOff := 8 + modLen
    let expOff := rrOff + rrBytes
    if bytes.length < expOff + 4 then .error "pub blob too short for exponent"
    else .ok ((shortest (value ((bytes.take rrOff).drop 8))).reverse,
      value ((bytes.drop expOff).take 4))

/-- The key of a modulus and an exponent in the documented layout, read back whatever follows it. -/
structure Encodes (n e : Nat) (bytes : List UInt8) : Prop where
  length : bytes.length = 524
  layout : ∃ n0inv, n0inv < 2 ^ 32 ∧ 2 ^ 32 ∣ n * n0inv + 1 ∧
    bytes = (fixed 4 64).val ++ (fixed 4 n0inv).val ++ (fixed 256 n).val ++
      (fixed 256 (2 ^ 4096 % n)).val ++
      (fixed 4 e).val
  decodes : ∀ suffix, nativePubComponents (bytes ++ suffix) = .ok ((shortest n).reverse, e)

theorem nativePubComponents_fields {words n0inv e : Fixed 4} {n rr : Fixed 256}
    (h : value words.val = 64) (suffix : List UInt8) :
    nativePubComponents (words.val ++ n0inv.val ++ n.val ++ rr.val ++ e.val ++ suffix) =
      .ok ((shortest (value n.val)).reverse, value e.val) := by
  obtain ⟨words, hwords⟩ := words
  obtain ⟨n0inv, hn0inv⟩ := n0inv
  obtain ⟨e, he⟩ := e
  obtain ⟨n, hn⟩ := n
  obtain ⟨rr, hrr⟩ := rr
  have hword : (words ++ n0inv ++ n ++ rr ++ e ++ suffix).take 4 = words := by
    rw [append_assoc, append_assoc, append_assoc, append_assoc, take_left' hwords]
  have hmodulus : ((words ++ n0inv ++ n ++ rr ++ e ++ suffix).take 264).drop 8 = n := by
    rw [append_assoc _ _ suffix, append_assoc _ rr, take_left' (by simp [*]),
      drop_left' (by simp [*])]
  have hexponent : ((words ++ n0inv ++ n ++ rr ++ e ++ suffix).drop 520).take 4 = e := by
    rw [append_assoc _ _ suffix, drop_left' (by simp [*]), take_left' he]
  rw [nativePubComponents, if_neg (by simp [hn0inv]; omega)]
  simp only [hword, h, rrBytes]
  rw [if_neg (by simp; omega), hmodulus, hexponent]

/-- The two powers agree where their exponents do, modulo the order of two. -/
theorem modpow_eq_iff (modulus : Modulus) : modpow (2 ^ 2048)
    (2 ^ 2048) modulus.n = 2 ^ 4096 % modulus.n ↔
    2048 * 2 ^ 2048 ≡ 2048 * 2 [MOD orderOf (2 : ZMod modulus.n)] := by
  have hcoprime : Nat.Coprime 2 modulus.n := Nat.coprime_two_left.mpr (Nat.odd_iff.mpr modulus.odd)
  have horder : orderOf (2 : ZMod modulus.n) = orderOf (ZMod.unitOfCoprime 2 hcoprime) := by
    rw [← orderOf_units, ZMod.coe_unitOfCoprime, Nat.cast_two]
  rw [show 4096 = 2048 * 2 from rfl, horder, ← pow_eq_pow_iff_modEq, Units.ext_iff,
    Units.val_pow_eq_pow_val, Units.val_pow_eq_pow_val, ZMod.coe_unitOfCoprime, modpow, ← pow_mul,
    ← Nat.cast_pow, ← Nat.cast_pow, ZMod.natCast_eq_natCast_iff]
  exact Iff.rfl

variable (lib : ModInverse) (modulus : Modulus) (e : UInt32)

theorem androidPubkeyBytes_eq : ∃ n0inv, n0inv < 2 ^ 32 ∧ 2 ^ 32 ∣ modulus.n * n0inv + 1 ∧
    androidPubkeyBytes lib modulus.bytes e =
      some ((fixed 4 64).val ++ (fixed 4 n0inv).val ++ (fixed 256 modulus.n).val ++
        (fixed 256 (modpow (2 ^ 2048) (2 ^ 2048) modulus.n)).val ++ (fixed 4 e.toNat).val) := by
  have hodd : modulus.n % 2 = 1 := modulus.odd
  have hcoprime : (modulus.n % 2 ^ 32).Coprime (2 ^ 32) :=
    (Nat.coprime_two_right.mpr (Nat.odd_iff.mpr (by omega))).pow_right 32
  obtain ⟨v, hinverse, hpos, hlt, hv⟩ := lib.inverts _ _ (by decide) hcoprime
  refine ⟨2 ^ 32 - v, by omega, ?_, ?_⟩
  · have hproduct : modulus.n * v % 2 ^ 32 = 1 := by rw [← hv, Nat.mod_mul_mod]
    have hsum : modulus.n * (2 ^ 32 - v) + modulus.n * v = modulus.n * 2 ^ 32 := by
      rw [← Nat.mul_add, Nat.sub_add_cancel hlt.le]
    exact Nat.dvd_of_mod_eq_zero (by omega)
  · have hfits : ¬ 2 ^ 32 ≤ 2 ^ 32 - v := by omega
    have hpow : ∀ bits : Nat, 1 <<< bits = 2 ^ bits := Nat.one_shiftLeft
    simp only [androidPubkeyBytes, hpow, hinverse, if_neg hfits, modulusSizeWords, modulusBytes,
      rrBytes, Nat.reduceMul]

variable {lib modulus e}

theorem Modulus.mod_lt (m : Nat) : m % modulus.n < 256 ^ 256 := by
  have hwide : 2 ^ 2048 = 256 ^ 256 := by decide +kernel
  exact (Nat.mod_lt m (Nat.zero_lt_of_lt modulus.one_lt)).trans (hwide ▸ modulus.bound)

/-- The field of the documented layout holds the power that was computed. -/
theorem Encodes.modpow_eq {bytes : List UInt8} (h : Encodes modulus.n e.toNat bytes)
    (hbytes : androidPubkeyBytes lib modulus.bytes e = some bytes) :
    modpow (2 ^ 2048) (2 ^ 2048) modulus.n = 2 ^ 4096 % modulus.n := by
  obtain ⟨_, -, -, hsome⟩ := androidPubkeyBytes_eq lib modulus e
  obtain ⟨_, -, -, hlayout⟩ := h.layout
  rw [← Option.some.inj (hsome.symm.trans hbytes), append_cancel_right_eq] at hlayout
  have hrr := append_inj_right' hlayout (by rw [(fixed _ _).property, (fixed _ _).property])
  rw [modpow, ← value_fixed (by omega) (Modulus.mod_lt _), ← modpow, hrr,
    value_fixed (by omega) (Modulus.mod_lt _)]

/-- An odd modulus is encoded as documented exactly when the power that is computed is the one that
is meant. -/
theorem encodes_iff (lib : ModInverse) (modulus : Modulus) (e : UInt32) :
    (∃ bytes, androidPubkeyBytes lib modulus.bytes e = some bytes ∧
      Encodes modulus.n e.toNat bytes) ↔
      2048 * 2 ^ 2048 ≡ 2048 * 2 [MOD orderOf (2 : ZMod modulus.n)] := by
  rw [← modpow_eq_iff]
  constructor
  · rintro ⟨bytes, hbytes, hencodes⟩
    exact hencodes.modpow_eq hbytes
  · intro hrr
    obtain ⟨n0inv, hfits, hinverse, hbytes⟩ := androidPubkeyBytes_eq lib modulus e
    refine ⟨_, hbytes, ?_, ⟨n0inv, hfits, hinverse, hrr ▸ rfl⟩, ?_⟩
    · simp only [length_append, (fixed 4 _).property, (fixed 256 _).property]
    · intro suffix
      rw [nativePubComponents_fields (value_fixed (by omega) (by omega)) suffix,
        value_fixed (by omega) (modulus.bound.trans_eq (by decide +kernel)),
          value_fixed (by omega) e.toNat_lt]

/-- The least inverse. -/
def search : ModInverse where
  modInverse a m := (List.range m).find? fun v => a * v % m = 1
  inverts a m hm hcoprime := by
    obtain ⟨v, hv, hproduct⟩ := Nat.exists_mul_mod_eq_one_of_coprime hcoprime hm
    obtain ⟨w, hw⟩ := Option.isSome_iff_exists.mp
      (find?_isSome (p := fun v => a * v % m = 1).mpr ⟨v, mem_range.mpr hv,
        decide_eq_true hproduct⟩)
    have hone : a * w % m = 1 := by simpa using find?_some hw
    refine ⟨w, hw, Nat.pos_of_ne_zero ?_, mem_range.mp (mem_of_find?_eq_some hw), hone⟩
    rintro rfl
    simp at hone

def seven : Modulus := ⟨[7], by decide, by decide, by decide +kernel⟩

/-- A modulus that is seven gets another power than the one that is meant. -/
theorem seven_not_encoded : ¬ ∀ (modulus : Modulus) (e : UInt32), ∃ bytes,
    androidPubkeyBytes search modulus.bytes e = some bytes ∧ Encodes modulus.n e.toNat bytes := by
  intro h
  obtain ⟨bytes, hbytes, hencodes⟩ := h seven 65537
  have hmod := (modpow_eq_iff seven).mp (hencodes.modpow_eq hbytes)
  have horder : orderOf (2 : ZMod seven.n) = 3 := orderOf_eq_prime (by decide) (by decide)
  rw [horder] at hmod
  revert hmod
  decide +kernel

end QuicLite.Android.PublicKey
