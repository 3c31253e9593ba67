import Mathlib.Algebra.Module.ZMod
import QuicLite.Lib.LittleEndian

/-!
# Wireless pairing

The SPAKE2 exchange of the ADB pairing, after BoringSSL: one message each way, a blinded ephemeral
point, and a key hashed from the transcript. The curve library is a parameter, an abelian group with
a compression and with scalars below the order of the base point. The password scalar is a multiple
of eight, and so above that order: its products are put together from quotient and remainder, since
the fixed points are not known to lie in the subgroup of the base point.
-/

namespace QuicLite.Android.Pairing

open LittleEndian List Function Except Nat

/-! ## Constants -/

variable {P : Type}

def clientId : String := "adb pair client"

def serverId : String := "adb pair server"

/-- `M_POINT` -/
def mPoint : Fixed 32 := fill 32
  [0x5a, 0xda, 0x7e, 0x4b, 0xf6, 0xdd, 0xd9, 0xad, 0xb6, 0x62, 0x6d, 0x32, 0x13, 0x1c, 0x6b, 0x5c,
    0x51, 0xa1, 0xe3, 0x47, 0xa3, 0x47, 0x8f, 0x53, 0xcf, 0xcf, 0x44, 0x1b, 0x88, 0xee, 0xd1, 0x2e]

/-- `N_POINT` -/
def nPoint : Fixed 32 := fill 32
  [0x10, 0xe3, 0xdf, 0x0a, 0xe3, 0x7d, 0x8e, 0x7a, 0x99, 0xb5, 0xfe, 0x74, 0xb4, 0x46, 0x72, 0x10,
    0x3d, 0xbd, 0xdc, 0xbd, 0x06, 0xaf, 0x68, 0x0d, 0x71, 0x32, 0x9a, 0x11, 0x69, 0x3b, 0xc7, 0x78]

/-- `L`, the order of the base point in limbs of 64 bits. -/
def limbs : List Nat := [0x5812631A5CF5D3ED, 0x14DEF9DEA2F79CD6, 0, 1 <<< 60]

def order : Nat := value (limbs.flatMap fun limb => (fixed 8 limb).val)

/-- What `order` is above `2^252`. -/
def orderLow : Nat := 27742317777372353535851937790883648493

theorem order_eq : order =
    7237005577332262213973186563042994240857116359379907606001950938285454250989 := by
  decide +kernel

theorem order_pos : 0 < order := order_eq ▸ succ_pos _

/-! ## The curve library -/

/-- A scalar below the order of the base point. -/
structure Scalar where
  value : Nat
  reduced : value < order

def Scalar.fromBytesModOrder (bytes : Fixed 32) : Scalar :=
  ⟨LittleEndian.value bytes.val % order, mod_lt _ order_pos⟩

def Scalar.ofNat (n : Nat) : Scalar := ⟨n % order, mod_lt _ order_pos⟩

def Scalar.mul (a b : Scalar) : Scalar := ⟨a.value * b.value % order, mod_lt _ order_pos⟩

/-- Points in the full group, with their products and their compression. -/
structure Edwards (P : Type) [AddCommGroup P] where
  compress : P → Fixed 32
  decompress : Fixed 32 → Option P
  mul : P → Scalar → P
  basepoint : P
  decompress_compress : ∀ p, decompress (compress p) = some p
  mul_eq : ∀ p s, mul p s = s.value • p
  torsion : ∀ p : P, (8 * order) • p = 0
  addOrderOf_basepoint : addOrderOf basepoint = order

/-- `clamp_integer` -/
def clampInteger (bytes : Fixed 32) : Fixed 32 :=
  fill 32 (bytes.val.mapIdx fun i byte =>
    if i = 0 then byte &&& 0b11111000 else if i = 31 then (byte &&& 0b01111111) ||| 0b01000000
    else byte)

/-! ## Scalars above the order -/

/-- `div_l`: quotient and remainder by the order. -/
def divL (s : Fixed 32) : Nat × Fixed 32 :=
  let sv := value s.val
  let q := sv / order
  (if q < 2 ^ 64 then q else 0, fixed 32 (sv % order))

/-- One turn of the loop of `password_scalar`: the scalar and the order times a power of two. -/
def clearBit (self : Nat × Nat) (i : Nat) : Nat × Nat :=
  (if (self.1 >>> i) % 2 ≠ 0 then self.1 + self.2 else self.1, self.2 * 2)

def passwordScalar (pw64 : Fixed 64) : Fixed 32 :=
  fixed 32 ((range 3).foldl clearBit (value pw64.val % order, order)).1

section Curve

variable {P : Type} [AddCommGroup P] (curve : Edwards P)

def Edwards.mulBase (s : Scalar) : P := curve.mul curve.basepoint s

/-- `raw_mult`: a scalar of 32 bytes that may be above the order. -/
def rawMult (s : Fixed 32) (p : P) : P :=
  let (q, r) := divL s
  let out := curve.mul p (.fromBytesModOrder r)
  if q ≠ 0 then
    let z := (fun z => z + p)^[q - 1] p
    let lz := (fun lz => lz + lz)^[252] z
    out + (lz + curve.mul z (.fromBytesModOrder (fill 32 (fixed 16 orderLow).val)))
  else out

/-! ## The exchange -/

inductive Failure where
  | refused (message : String)
  | panic (message : String)

def pointFromBytes (b : Fixed 32) : Except Failure P :=
  match curve.decompress b with
  | some p => .ok p
  | none => .error (.refused "decompress ed25519 point")

/-- A fixed point of the exchange has to be valid. -/
def expectPoint (b : Fixed 32) (message : String) : Except Failure P :=
  match pointFromBytes curve b with
  | .ok p => .ok p
  | .error _ => .error (.panic message)

inductive Role where
  | client
  | server

def Role.myPoint : Role → Except Failure P
  | .client => expectPoint curve mPoint "M_POINT is valid"
  | .server => expectPoint curve nPoint "N_POINT is valid"

def Role.theirPoint : Role → Except Failure P
  | .client => expectPoint curve nPoint "N_POINT is valid"
  | .server => expectPoint curve mPoint "M_POINT is valid"

structure Spake2 where
  myId : List UInt8
  theirId : List UInt8
  role : Role
  privateScalar : Scalar
  passwordHash : Fixed 64
  passwordRaw : Fixed 32
  myMsg : Fixed 32
  theirMsg : Option (Fixed 32)
  dh : Option (Fixed 32)
  key : Option (Fixed 64)

/-- The bytes of an identity, with the NUL that BoringSSL hashes. -/
def identity (id : String) : List UInt8 := id.toList.flatMap String.utf8EncodeChar ++ [0]

/-- `lenp`: eight bytes of length before the bytes. -/
def lenp (v : List UInt8) : List UInt8 := (fixed 8 (v.length % 2 ^ 64)).val ++ v

variable (sha512 : List UInt8 → Fixed 64)

def withPrivate (myId theirId : String) (role : Role) (password : List UInt8)
    (privateScalar : Scalar) : Except Failure Spake2 := do
  let passwordHash := sha512 password
  let passwordRaw := passwordScalar passwordHash
  let p := curve.mulBase privateScalar
  let myPoint ← role.myPoint curve
  let mask := rawMult curve passwordRaw myPoint
  .ok {
    myId := identity myId
    theirId := identity theirId
    role := role
    privateScalar := privateScalar
    passwordHash := passwordHash
    passwordRaw := passwordRaw
    myMsg := curve.compress (p + mask)
    theirMsg := none
    dh := none
    key := none }

/-- `new`, with the random bytes it draws. -/
def new (myId theirId : String) (role : Role) (password : List UInt8) (eph : Fixed 32) :
    Except Failure Spake2 :=
  withPrivate curve sha512 myId theirId role password
    ((Scalar.fromBytesModOrder (clampInteger eph)).mul (.ofNat 8))

namespace Spake2

def newClient (password : List UInt8) (eph : Fixed 32) : Except Failure Spake2 :=
  new curve sha512 clientId serverId .client password eph

def newServer (password : List UInt8) (eph : Fixed 32) : Except Failure Spake2 :=
  new curve sha512 serverId clientId .server password eph

variable (self : Spake2)

/-- The point that both sides arrive at. -/
def dhPoint (theirMsg : Fixed 32) : Except Failure P := do
  let theirPstar ← pointFromBytes curve theirMsg
  let theirPoint ← self.role.theirPoint curve
  let theirMask := rawMult curve self.passwordRaw theirPoint
  .ok (curve.mul (theirPstar - theirMask) self.privateScalar)

/-- What is hashed into the key, in the same order on both sides. -/
def transcript (theirMsg dh : Fixed 32) : List UInt8 :=
  (match self.role with
    | .client => lenp self.myId ++ lenp self.theirId ++ lenp self.myMsg.val ++ lenp theirMsg.val
    | .server => lenp self.theirId ++ lenp self.myId ++ lenp theirMsg.val ++ lenp self.myMsg.val)
  ++ lenp dh.val ++ lenp self.passwordHash.val

def processMsg (theirMsg : Fixed 32) : Spake2 × Except Failure (Fixed 64) :=
  if self.theirMsg.isSome then (self, .error (.refused "their msg already processed"))
  else
    let self := { self with theirMsg := some theirMsg }
    match self.dhPoint curve theirMsg with
    | .error e => (self, .error e)
    | .ok dhPoint =>
      let dh := curve.compress dhPoint
      let self := { self with dh := some dh }
      let key := sha512 (self.transcript theirMsg dh)
      ({ self with key := some key }, .ok key)

/-- The transcript of the key, where there is one. -/
def hashed (theirMsg : Fixed 32) : Except Failure (List UInt8) :=
  (self.dhPoint curve theirMsg).map fun dhPoint => self.transcript theirMsg (curve.compress dhPoint)

/-- The first message is answered with the key of its transcript. -/
theorem processMsg_first (h : self.theirMsg = none) (theirMsg : Fixed 32) :
    (self.processMsg curve sha512 theirMsg).2 = (self.hashed curve theirMsg).map sha512 := by
  rw [processMsg, h, hashed]
  have hsame : { self with theirMsg := some theirMsg : Spake2 }.dhPoint curve theirMsg =
    self.dhPoint curve theirMsg :=
    rfl
  simp only [hsame]
  cases self.dhPoint curve theirMsg with
  | error e => rfl
  | ok dhPoint => rfl

theorem processMsg_dh {self : Spake2} (h : self.theirMsg = none) {theirMsg : Fixed 32} {point : P}
    (hpoint : self.dhPoint curve theirMsg = .ok point) :
    (self.processMsg curve sha512 theirMsg).1.dh = some (curve.compress point) := by
  rw [processMsg, h]
  have hsame : { self with theirMsg := some theirMsg : Spake2 }.dhPoint curve theirMsg =
    .ok point := hpoint
  simp only [hsame]
  rfl

end Spake2

end Curve

/-! ## Products -/

theorem order_lt : 8 * order < 256 ^ 32 := by
  decide

theorem order_split : order = 2 ^ 252 + orderLow := by
  decide +kernel

/-- A product by a power of two is as many doublings. -/
theorem iterate_double [AddCommGroup P] (n : Nat) (z : P) :
    (fun lz => lz + lz)^[n] z = 2 ^ n • z := by
  induction n with
  | zero => rw [iterate_zero_apply, pow_zero, one_nsmul]
  | succ n ih => rw [iterate_succ_apply', ih, pow_succ, mul_comm, mul_nsmul, two_nsmul, nsmul_add]

theorem iterate_add [AddCommGroup P] (n : Nat) (p : P) : (fun z => z + p)^[n] p = (n + 1) • p := by
  induction n with
  | zero => rw [iterate_zero_apply, one_nsmul]
  | succ n ih => rw [iterate_succ_apply', ih, ← succ_nsmul]

section Products

variable {P : Type} [AddCommGroup P] (curve : Edwards P)

/-- Bytes below the order multiply as they are. -/
theorem Edwards.mul_bytes {bytes : Fixed 32} (h : value bytes.val < order) (p : P) :
    curve.mul p (.fromBytesModOrder bytes) = value bytes.val • p := by
  rw [curve.mul_eq]
  show (value bytes.val % order) • p = value bytes.val • p
  rw [mod_eq_of_lt h]

theorem Edwards.mul_fixed {n : Nat} (h : n < order) (p : P) :
    curve.mul p (.fromBytesModOrder (fixed 32 n)) = n • p := by
  have hvalue : value (fixed 32 n).val = n := value_fixed (by omega) (by have := order_lt; omega)
  rw [curve.mul_bytes (by rwa [hvalue]), hvalue]

theorem Edwards.mul_orderLow (z : P) :
    curve.mul z (.fromBytesModOrder (fill 32 (fixed 16 orderLow).val)) = orderLow • z := by
  have hvalue : value (fill 32 (fixed 16 orderLow).val).val = orderLow := by
    rw [value_fill (by rw [(fixed 16 orderLow).property]; omega),
      value_fixed (by omega) (by decide)]
  have hlow : orderLow < order := by
    exact Nat.lt_add_of_pos_left (Nat.two_pow_pos 252)
  rw [curve.mul_bytes (by rwa [hvalue]), hvalue]

/-- The product by a scalar of 32 bytes, in the full group. -/
theorem rawMult_eq (s : Fixed 32) (p : P) : rawMult curve s p = value s.val • p := by
  have hbound : value s.val < 256 ^ 32 := by
    have := value_lt s.val
    rwa [s.property] at this
  -- The quotient is far below the 64 bits that it is cast to.
  have hquotient : value s.val / order < 2 ^ 64 := by
    refine (div_lt_iff_lt_mul order_pos).mpr (lt_of_lt_of_le hbound ?_)
    decide
  have hrest := curve.mul_fixed (mod_lt (value s.val) order_pos) p
  simp only [rawMult, divL, if_pos hquotient, hrest, iterate_double, iterate_add,
    curve.mul_orderLow]
  split
  · rename_i hq
    have hsum : value s.val / order - 1 + 1 = value s.val / order :=
      succ_pred_eq_of_pos (pos_of_ne_zero hq)
    rw [hsum, ← add_nsmul, ← order_split, ← mul_nsmul', ← add_nsmul, mod_add_div]
  rename_i hq
  have hzero : value s.val / order = 0 := not_not.mp hq
  rw [← mod_add_div (value s.val) order, hzero, mul_zero, add_zero, mod_mod]

end Products

/-! ## The password scalar -/

theorem order_odd : order % 2 = 1 := by
  rw [order_eq]

/-- After `i` turns the low `i` bits are clear, and only multiples of the order were added. -/
theorem clearBit_loop {h : Nat} (hreduced : h < order) (i : Nat) :
    let self := (range i).foldl clearBit (h, order)
    self.2 = 2 ^ i * order ∧ 2 ^ i ∣ self.1 ∧ self.1 < 2 ^ i * order ∧ self.1 % order = h %
      order := by
  induction i with
  | zero => simp [hreduced]
  | succ i ih =>
    rw [range_succ, foldl_append]
    generalize (range i).foldl clearBit (h, order) = self at ih
    obtain ⟨scalar, multiple⟩ := self
    obtain ⟨hmultiple, ⟨k, hscalar⟩, hbound, hmod⟩ := ih
    subst hmultiple hscalar
    have hshift : (2 ^ i * k) >>> i = k := by
      rw [Nat.shiftRight_eq_div_pow, Nat.mul_div_cancel_left _ (Nat.two_pow_pos i)]
    simp only [foldl_cons, foldl_nil, clearBit]
    have hpow : 2 ^ (i + 1) * order = 2 ^ i * order + 2 ^ i * order := by rw [Nat.pow_succ]; ring
    refine ⟨by rw [hpow]; omega, ?_⟩
    rcases mod_two_eq_zero_or_one k with heven | hodd
    · rw [if_neg (by omega)]
      refine ⟨?_, by omega, hmod⟩
      exact mul_dvd_mul_left _ (dvd_of_mod_eq_zero heven)
    rw [if_pos (by omega)]
    refine ⟨?_, by omega, ?_⟩
    · have hsum : 2 ∣ k + order := dvd_of_mod_eq_zero (by have := order_odd; omega)
      rw [← mul_add]
      exact mul_dvd_mul_left _ hsum
    · rw [add_mul_mod_self_right, hmod]

theorem passwordScalar_spec (pw64 : Fixed 64) :
    value (passwordScalar pw64).val < 8 * order ∧ 8 ∣ value (passwordScalar pw64).val ∧
      value (passwordScalar pw64).val % order = value pw64.val % order := by
  obtain ⟨-, hdvd, hbound, hmod⟩ := clearBit_loop (mod_lt (value pw64.val) order_pos) 3
  rw [mod_mod] at hmod
  have hvalue : value (passwordScalar pw64).val =
      ((range 3).foldl clearBit (value pw64.val % order, order)).1 :=
    value_fixed (by omega) (lt_trans hbound order_lt)
  rw [hvalue]
  exact ⟨hbound, hdvd, hmod⟩

section Exchange

variable {P : Type} [AddCommGroup P] (curve : Edwards P) (sha512 : List UInt8 → Fixed 64)
variable {self : Spake2} {p : P} {role : Role} {password : List UInt8} {x : Scalar}

/-- The masks are in the subgroup of the base point, wherever the fixed points are. -/
theorem order_mask (pw64 : Fixed 64) (p : P) :
    order • rawMult curve (passwordScalar pw64) p = 0 := by
  obtain ⟨-, ⟨k, hk⟩, -⟩ := passwordScalar_spec pw64
  rw [rawMult_eq, hk, ← mul_nsmul', ← mul_assoc, mul_comm order 8, mul_nsmul', curve.torsion]

/-! ## Agreement -/

/-- `fixed_points_are_valid` -/
structure FixedPoints (m n : P) : Prop where
  m_valid : curve.decompress mPoint = some m
  n_valid : curve.decompress nPoint = some n

/-- The blinding point of a role. -/
def Role.point (m n : P) : Role → P
  | .client => m
  | .server => n

def Role.peer : Role → Role
  | .client => .server
  | .server => .client

variable {curve} {m n : P}

section

variable (h : FixedPoints curve m n)
include h

theorem FixedPoints.myPoint (role : Role) : role.myPoint curve = .ok (role.point m n) := by
  cases role with
  | client => simp only [Role.myPoint, expectPoint, pointFromBytes, h.m_valid, Role.point]
  | server => simp only [Role.myPoint, expectPoint, pointFromBytes, h.n_valid, Role.point]

theorem FixedPoints.theirPoint (role : Role) :
    role.theirPoint curve = .ok (role.peer.point m n) := by
  cases role with
  | client =>
    simp only [Role.theirPoint, expectPoint, pointFromBytes, h.n_valid, Role.peer, Role.point]
  | server =>
    simp only [Role.theirPoint, expectPoint, pointFromBytes, h.m_valid, Role.peer, Role.point]

/-- The message of a role: its ephemeral point, blinded by the password. -/
def message (curve : Edwards P) (sha512 : List UInt8 → Fixed 64) (point : P) (password : List UInt8)
    (x : Scalar) : P :=
  x.value • curve.basepoint + value (passwordScalar (sha512 password)).val • point

/-- The context of a role. -/
def context (curve : Edwards P) (sha512 : List UInt8 → Fixed 64) (point : P) (myId theirId : String)
    (role : Role) (password : List UInt8) (x : Scalar) : Spake2 where
  myId := identity myId
  theirId := identity theirId
  role := role
  privateScalar := x
  passwordHash := sha512 password
  passwordRaw := passwordScalar (sha512 password)
  myMsg := curve.compress (message curve sha512 point password x)
  theirMsg := none
  dh := none
  key := none

theorem FixedPoints.withPrivate (myId theirId : String) (role : Role)
    (password : List UInt8) (x : Scalar) : withPrivate curve sha512 myId theirId role password x =
      .ok (context curve sha512 (role.point m n) myId theirId role password x) := by
  rw [Pairing.withPrivate, h.myPoint role]
  show ok _ = _
  rw [context, message, Edwards.mulBase, curve.mul_eq, rawMult_eq]

/-- The point of a context: the message of the peer without the mask, times the scalar. -/
theorem FixedPoints.dhPoint (ids : String × String) (role : Role) (password : List UInt8)
    (x : Scalar) {theirMsg : Fixed 32} (hp : curve.decompress theirMsg = some p) :
    (context curve sha512 (role.point m n) ids.1 ids.2 role password x).dhPoint curve theirMsg =
      .ok (x.value • (p - value (passwordScalar (sha512 password)).val • role.peer.point m n)) := by
  rw [Spake2.dhPoint, pointFromBytes, hp]
  show (role.theirPoint curve >>= _) = _
  rw [h.theirPoint role]
  show ok (curve.mul (p - rawMult curve (passwordScalar (sha512 password)) _) x) = _
  rw [rawMult_eq, curve.mul_eq]

/-- Each side unblinds the message of the other and multiplies by its own scalar. -/
theorem FixedPoints.hashed (ids ids' : String × String) (role : Role) (password : List UInt8)
    (x y : Scalar) :
    let self := context curve sha512 (role.point m n) ids.1 ids.2 role password x
    let peer := context curve sha512 (role.peer.point m n) ids'.1 ids'.2 role.peer password y
    self.hashed curve peer.myMsg =
      .ok (self.transcript peer.myMsg
        (curve.compress ((y.value * x.value) • curve.basepoint))) := by
  intro self peer
  have hpoint : self.dhPoint curve peer.myMsg = _ :=
    h.dhPoint sha512 ids role password x
      (curve.decompress_compress (message curve sha512 _ password y))
  rw [Spake2.hashed, hpoint, message, add_sub_cancel_right, ← mul_nsmul]
  rfl

end

/-- A context keeps the hash of its password, whatever else it is made of. -/
theorem withPrivate_hash {myId theirId : String}
    (h : withPrivate curve sha512 myId theirId role password x = .ok self) :
    self.passwordHash = sha512 password := by
  rw [withPrivate] at h
  cases hpoint : role.myPoint curve with
  | error e =>
    rw [hpoint] at h
    cases h
  | ok point =>
    rw [hpoint] at h
    rw [← ok.inj h]

/-- A transcript ends with the hash of the password. -/
theorem Spake2.transcript_end (self : Spake2) (theirMsg dh : Fixed 32) :
    ∃ start, self.transcript theirMsg dh = start ++ self.passwordHash.val := by
  exact ⟨_, (append_assoc _ (fixed 8 _).val self.passwordHash.val).symm⟩

theorem Spake2.transcript_hash {self' : Spake2} {theirMsg theirMsg' dh dh' : Fixed 32}
    (h : self.transcript theirMsg dh = self'.transcript theirMsg' dh') :
    self.passwordHash = self'.passwordHash := by
  obtain ⟨start, hstart⟩ := self.transcript_end theirMsg dh
  obtain ⟨start', hstart'⟩ := self'.transcript_end theirMsg' dh'
  rw [hstart, hstart'] at h
  refine Subtype.ext (append_inj_right' h ?_)
  rw [self.passwordHash.property, self'.passwordHash.property]

/-- What holds of honest sides: exact products in the full group, a scalar of the password that
clears the cofactor, one key from one transcript for one password, and different transcripts for
different ones. -/
structure Honest (curve : Edwards P) (sha512 : List UInt8 → Fixed 64) : Prop where
  products : ∀ (s : Fixed 32) (p : P), rawMult curve s p = value s.val • p
  scalar : ∀ pw64 : Fixed 64, value (passwordScalar pw64).val < 8 * order ∧
    8 ∣ value (passwordScalar pw64).val ∧
    value (passwordScalar pw64).val % order = value pw64.val % order
  agree : ∀ (password : List UInt8) (x y : Scalar), ∃ client server t,
    withPrivate curve sha512 clientId serverId .client password x = .ok client ∧
    withPrivate curve sha512 serverId clientId .server password y = .ok server ∧
    client.hashed curve server.myMsg = .ok t ∧ server.hashed curve client.myMsg = .ok t ∧
    (client.processMsg curve sha512 server.myMsg).2 = .ok (sha512 t) ∧
    (server.processMsg curve sha512 client.myMsg).2 = .ok (sha512 t)
  differ : ∀ (role role' : Role) (ids ids' : String × String) (password password' : List UInt8)
    (x x' : Scalar)
    (self self' : Spake2) (msg msg' : Fixed 32) (t t' : List UInt8),
      sha512 password ≠ sha512 password' →
    withPrivate curve sha512 ids.1 ids.2 role password x = .ok self →
    withPrivate curve sha512 ids'.1 ids'.2 role' password' x' = .ok self' →
    self.hashed curve msg = .ok t → self'.hashed curve msg' = .ok t' → t ≠ t'

/-- The two roles write one transcript. -/
theorem Spake2.transcript_peer (client server : Spake2) (hclient : client.role = .client)
    (hserver : server.role = .server)
    (hids : client.myId = server.theirId ∧ client.theirId = server.myId)
    (hhash : client.passwordHash = server.passwordHash) (dh : Fixed 32) :
    server.transcript client.myMsg dh = client.transcript server.myMsg dh := by
  rw [Spake2.transcript, Spake2.transcript, hclient, hserver, hids.1, hids.2, hhash]

/-- The two sides of one password. -/
theorem FixedPoints.agree (h : FixedPoints curve m n) (password : List UInt8) (x y : Scalar) :
    ∃ client server t,
    Pairing.withPrivate curve sha512 clientId serverId .client password x = .ok client ∧
    Pairing.withPrivate curve sha512 serverId clientId .server password y = .ok server ∧
    client.hashed curve server.myMsg = .ok t ∧ server.hashed curve client.myMsg = .ok t ∧
    (client.processMsg curve sha512 server.myMsg).2 = .ok (sha512 t) ∧
    (server.processMsg curve sha512 client.myMsg).2 = .ok (sha512 t) := by
  have hclientOk := h.withPrivate sha512 clientId serverId .client password x
  have hserverOk := h.withPrivate sha512 serverId clientId .server password y
  have hclient := h.hashed sha512 (clientId, serverId) (serverId, clientId) .client password x y
  have hserver := h.hashed sha512 (serverId, clientId) (clientId, serverId) .server password y x
  have hpeer := Spake2.transcript_peer
    (context curve sha512 (Role.point m n .client) clientId serverId .client password x)
    (context curve sha512 (Role.point m n .server) serverId clientId .server password y)
    rfl rfl ⟨rfl, rfl⟩ rfl (curve.compress ((x.value * y.value) • curve.basepoint))
  rw [mul_comm y.value] at hclient
  refine ⟨context curve sha512 (Role.point m n .client) clientId serverId .client password x,
    context curve sha512 (Role.point m n .server) serverId clientId .server password y, _,
      hclientOk, hserverOk, hclient,
    hserver.trans (congrArg Except.ok hpeer), ?_, ?_⟩
  · rw [Spake2.processMsg_first _ _ _ rfl]
    exact congrArg (Except.map sha512) hclient
  · rw [Spake2.processMsg_first _ _ _ rfl]
    exact congrArg (Except.map sha512) (hserver.trans (congrArg Except.ok hpeer))

/-- The exchange over any curve whose fixed points are valid, with any hash. -/
theorem pairing_honest (h : FixedPoints curve m n) (sha512 : List UInt8 → Fixed 64) :
    Honest curve sha512 where
  products := rawMult_eq curve
  scalar := passwordScalar_spec
  agree := h.agree sha512
  differ := by
    intro role role' ids ids' password password' x x' self self' msg msg' t t' hdiffer hself hself'
      ht ht' heq
    rw [Spake2.hashed] at ht ht'
    cases hdh : self.dhPoint curve msg with
    | error e =>
      rw [hdh] at ht
      cases ht
    | ok dh =>
    cases hdh' : self'.dhPoint curve msg' with
    | error e =>
      rw [hdh'] at ht'
      cases ht'
    | ok dh' =>
      rw [hdh] at ht
      rw [hdh'] at ht'
      cases ht
      cases ht'
      have hhash := Spake2.transcript_hash heq
      rw [withPrivate_hash sha512 hself, withPrivate_hash sha512 hself'] at hhash
      exact hdiffer hhash

/-! ## Any peer -/

/-- A received point without the mask of the peer. -/
def unmasked (sha512 : List UInt8 → Fixed 64) (password : List UInt8) (p theirPoint : P) : P :=
  p - value (passwordScalar (sha512 password)).val • theirPoint

/-- The multiple of the order that is dropped from the scalar of these random bytes kills a
point. -/
def DropsNothing (eph : Fixed 32) (p : P) : Prop :=
  addOrderOf (order • p) ∣ 8 * value (clampInteger eph).val / order

/-- The context multiplies the point by eight times the clamped integer, which leads into the
subgroup of the base point. -/
structure Cleared (curve : Edwards P) (sha512 : List UInt8 → Fixed 64) (side : Spake2)
    (eph theirMsg : Fixed 32) (rest : P) : Prop where
  dh : (side.processMsg curve sha512 theirMsg).1.dh =
    some (curve.compress ((8 * value (clampInteger eph).val) • rest))
  cofactor : ∀ dh, side.dhPoint curve theirMsg = .ok dh → order • dh = 0

theorem FixedPoints.new (h : FixedPoints curve m n) (ids : String × String) (role : Role)
    (password : List UInt8) (eph : Fixed 32) :
    ∃ x : Scalar, x.value = 8 * value (clampInteger eph).val % order ∧
      new curve sha512 ids.1 ids.2 role password eph =
        .ok (context curve sha512 (role.point m n) ids.1 ids.2 role password x) := by
  refine ⟨_, ?_, h.withPrivate sha512 ids.1 ids.2 role password _⟩
  show value (clampInteger eph).val % order * (8 % order) % order = _
  rw [← mul_mod, mul_comm]

/-- The reduction drops a multiple of the order, which acts on what is outside the subgroup. -/
theorem FixedPoints.cleared_iff (h : FixedPoints curve m n) {ids : String × String}
    {eph theirMsg : Fixed 32} (hp : curve.decompress theirMsg = some p)
    (hx : x.value = 8 * value (clampInteger eph).val % order) :
    Cleared curve sha512 (context curve sha512 (role.point m n) ids.1 ids.2 role password x)
      eph theirMsg
      (unmasked sha512 password p (role.peer.point m n)) ↔ DropsNothing eph p := by
  have hpoint := h.dhPoint sha512 ids role password x hp
  generalize hunmasked : unmasked sha512 password p (role.peer.point m n) = rest
  rw [unmasked] at hunmasked
  rw [hunmasked] at hpoint
  have hdh := Spake2.processMsg_dh curve sha512 rfl hpoint
  have hsplit : (8 * value (clampInteger eph).val) • rest =
      x.value • rest + (8 * value (clampInteger eph).val / order) • order • rest := by
    rw [hx, ← mul_nsmul', ← add_nsmul, mul_comm (_ / _), mod_add_div]
  have hinjective : Function.Injective curve.compress := by
    intro a b hab
    exact Option.some.inj ((curve.decompress_compress a).symm.trans
      (hab ▸ curve.decompress_compress b))
  have hpart : order • rest = order • p := by
    rw [← hunmasked, nsmul_sub, ← rawMult_eq curve, order_mask, sub_zero]
  rw [DropsNothing, addOrderOf_dvd_iff_nsmul_eq_zero, ← hpart]
  constructor
  · intro hcleared
    have heq := hinjective (Option.some.inj (hdh.symm.trans hcleared.dh))
    rw [hsplit] at heq
    exact left_eq_add.mp heq
  · intro hzero
    rw [hzero, add_zero] at hsplit
    refine ⟨hsplit ▸ hdh, ?_⟩
    intro dh hok
    rw [hpoint] at hok
    have hall : order * (8 * value (clampInteger eph).val) = 8 * order *
        value (clampInteger eph).val := by ring
    rw [← ok.inj hok, ← hsplit, ← mul_nsmul', hall, mul_nsmul, curve.torsion, nsmul_zero]

/-- For every message that is a point, the key is made of the cleared point exactly when the
reduction drops nothing. -/
theorem dh_cleared_iff (h : FixedPoints curve m n) (ids : String × String) (role : Role)
    (password : List UInt8) (eph theirMsg : Fixed 32) (p : P)
    (hp : curve.decompress theirMsg = some p) :
    ∃ side, new curve sha512 ids.1 ids.2 role password eph = .ok side ∧
      (Cleared curve sha512 side eph theirMsg (unmasked sha512 password p (role.peer.point m n)) ↔
        DropsNothing eph p) := by
  obtain ⟨x, hx, hnew⟩ := h.new sha512 ids role password eph
  exact ⟨_, hnew, h.cleared_iff sha512 hp hx⟩

end Exchange

/-! ## A cyclic group of the order of the curve -/

instance : NeZero (8 * order) := ⟨by have := order_pos; omega⟩

def compressLog (p : ZMod (8 * order)) : Fixed 32 := fixed 32 p.val

def decompressLog (bytes : Fixed 32) : Option (ZMod (8 * order)) :=
  if value bytes.val < 8 * order then some (value bytes.val : ZMod (8 * order)) else none

theorem decompressLog_compressLog (p : ZMod (8 * order)) :
    decompressLog (compressLog p) = some p := by
  have hlt := ZMod.val_lt p
  rw [decompressLog, compressLog, value_fixed (by omega) (lt_trans hlt order_lt), if_pos hlt,
    ZMod.natCast_zmod_val]

theorem addOrderOf_eight : addOrderOf (8 : ZMod (8 * order)) = order := by
  have h := ZMod.addOrderOf_coe 8 (n := 8 * order) (NeZero.ne _)
  exact h

theorem torsion_log (p : ZMod (8 * order)) : (8 * order) • p = 0 := by
  rw [nsmul_eq_mul, ZMod.natCast_self, zero_mul]

/-- The group of the curve is cyclic. A point is written as its logarithm. -/
def cyclic : Edwards (ZMod (8 * order)) where
  compress := compressLog
  decompress := decompressLog
  mul p s := s.value • p
  basepoint := 8
  decompress_compress := decompressLog_compressLog
  mul_eq _ _ := rfl
  torsion := torsion_log
  addOrderOf_basepoint := addOrderOf_eight

theorem cyclic_fixedPoints : FixedPoints cyclic (value mPoint.val : ZMod (8 * order))
    (value nPoint.val : ZMod (8 * order)) where
  m_valid := by
    show decompressLog mPoint = _
    exact if_pos (by decide +kernel)
  n_valid := by
    show decompressLog nPoint = _
    exact if_pos (by decide +kernel)

theorem pairing_honest_cyclic : Honest cyclic (fill 64) :=
  pairing_honest cyclic_fixedPoints (fill 64)

/-- A password, random bytes and a message of the peer: the point is three times the base point. -/
def pairingCode : List UInt8 := [0x34, 0x32, 0x37]

def randomBytes : Fixed 32 := fill 32 [0xd5, 0x1c, 0x07, 0x99]

/-- The point `24` carries no more than the subgroup of the base point, on either side of the
exchange. -/
theorem base_multiple_cleared :
    (∃ side, Spake2.newClient cyclic (fill 64) pairingCode randomBytes = .ok side ∧
      Cleared cyclic (fill 64) side randomBytes (compressLog 24)
      (unmasked (fill 64) pairingCode 24 (value nPoint.val))) ∧
    ∃ side, Spake2.newServer cyclic (fill 64) pairingCode randomBytes = .ok side ∧
      Cleared cyclic (fill 64) side randomBytes (compressLog 24)
      (unmasked (fill 64) pairingCode 24 (value mPoint.val)) := by
  -- a multiple of the base point has no part outside its subgroup
  have hpart : order • (24 : ZMod (8 * order)) = 0 := by
    rw [show (24 : ZMod (8 * order)) = 8 • 3 by norm_num, ← mul_nsmul]
    exact torsion_log 3
  have hdrops : DropsNothing randomBytes (24 : ZMod (8 * order)) := by
    rw [DropsNothing, hpart, addOrderOf_zero]
    exact one_dvd _
  constructor
  · obtain ⟨side, hnew, hcleared⟩ :=
      dh_cleared_iff (fill 64) cyclic_fixedPoints (clientId, serverId) .client pairingCode
      randomBytes (compressLog 24) 24 (decompressLog_compressLog 24)
    exact ⟨side, hnew, hcleared.mpr hdrops⟩
  · obtain ⟨side, hnew, hcleared⟩ :=
      dh_cleared_iff (fill 64) cyclic_fixedPoints (serverId, clientId) .server pairingCode
      randomBytes (compressLog 24) 24 (decompressLog_compressLog 24)
    exact ⟨side, hnew, hcleared.mpr hdrops⟩

/-- A point outside the subgroup of the base point shows in the key. -/
theorem outside_not_cleared : ¬ ∀ (role : Role) (password : List UInt8) (eph theirMsg : Fixed 32)
    (p : ZMod (8 * order)) (side : Spake2), decompressLog theirMsg = some p →
    new cyclic (fill 64) clientId serverId role password eph = .ok side →
      Cleared cyclic (fill 64) side eph theirMsg
      (unmasked (fill 64) password p
        (role.peer.point (value mPoint.val : ZMod (8 * order)) (value nPoint.val))) := by
  intro hall
  obtain ⟨x, hx, hnew⟩ := cyclic_fixedPoints.new (fill 64) (clientId, serverId) .client []
    (fill 32 [])
  have hdrops := (cyclic_fixedPoints.cleared_iff (fill 64)
    (show cyclic.decompress (compressLog 1) = some 1 from decompressLog_compressLog 1) hx).mp
    (hall .client [] _ _ 1 _ (decompressLog_compressLog 1) hnew)
  have hquotient : 8 * value (clampInteger (fill 32 [])).val / order = 31 := by decide +kernel
  rw [DropsNothing, hquotient, addOrderOf_dvd_iff_nsmul_eq_zero, ← mul_nsmul', nsmul_one,
    ZMod.natCast_eq_zero_iff] at hdrops
  exact absurd hdrops (by decide +kernel)

end QuicLite.Android.Pairing
