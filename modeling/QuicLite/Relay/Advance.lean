import QuicLite.Relay.Setup
import QuicLite.Wire.RoundTrip

/-!
# Setup messages from hop to hop

What `encode` accepts, `decode` reads back. A relay that passes a request on writes the header anew
from the fields it has read and copies the blocks that remain, so the next relay finds the same
request one block further. That needs the relay's own reverse id to be a real one: the re-encoder
writes a zero id, which no decoder accepts.
-/

namespace QuicLite

open BigEndian Writer List Nat ConnectionId SetupRequest

/-! ## What is written -/

variable {out : Bytes} {block : SetupBlock} {capacity n : Nat} {head : SetupHead}
variable {instruction : SetupHopInstruction}
variable {value : Nat} {vip : Option UInt64} {routeMode : RelayRouteMode} {self : SetupRequestView}

section Writes

variable (capacity : Nat)

theorem putSetupByte_writes (value : UInt8) :
    Writes .bufferTooSmall capacity (putSetupByte value capacity) [value] True where
  sound := by
    intro out result hout h
    unfold putSetupByte at h
    split at h
    · cases h
    cases h
    refine ⟨trivial, rfl, ?_⟩
    simp only [length_append, length_singleton]
    omega
  complete := by
    intro out _ hfits
    simp only [length_singleton] at hfits
    rw [putSetupByte, if_neg (by omega)]
  room := by
    intro out hfits
    simp only [length_singleton] at hfits
    simp only [putSetupByte, if_neg (by omega : ¬ capacity ≤ out.length), ne_eq, reduceCtorEq,
      not_false_eq_true]

theorem putConnectionId_writes (cid : ConnectionId) :
    Writes .bufferTooSmall capacity (putConnectionId cid capacity) cid.bytes True where
  sound := by
    intro out result hout h
    obtain ⟨bs, hencode, h⟩ := bind_eq_ok.mp h
    obtain ⟨hlen, rfl⟩ := encode_eq_ok.mp hencode
    cases h
    refine ⟨trivial, rfl, ?_⟩
    rw [length_append, length_bytes]
    omega
  complete := by
    intro out _ hfits
    rw [length_bytes] at hfits
    have hencode : cid.encode (capacity - out.length) = .ok cid.bytes :=
      encode_eq_ok.mpr ⟨by omega, rfl⟩
    simp [putConnectionId, hencode]
  room := by
    intro out hfits
    rw [length_bytes] at hfits
    have hencode : cid.encode (capacity - out.length) = .ok cid.bytes :=
      encode_eq_ok.mpr ⟨by omega, rfl⟩
    simp [putConnectionId, hencode]

def vipBytes : Option UInt64 → Bytes
  | some vip => 1 :: toBytes 8 vip.toNat
  | none => [0]

def reverseCidBytes : Option ConnectionId → Bytes
  | some cid => 1 :: cid.bytes
  | none => [0]

def routeModeBytes (version : UInt8) (routeMode : RelayRouteMode) : Bytes :=
  if setupRequestVersion ≤ version then [routeMode.byte] else []

/-- A request between its version and its blocks. -/
def headBytes (version : UInt8) (head : SetupHead) : Bytes :=
  varint head.transactionId ++ ([head.mode.byte] ++ (routeModeBytes version head.routeMode ++
    ([head.circuit.openerRole.byte] ++
      (varint head.circuit.sequence ++ (vipBytes head.destinationVip ++
      reverseCidBytes head.previousReverseCid)))))

theorem putVip_writes (vip : Option UInt64) :
    Writes .bufferTooSmall capacity (putVip vip capacity) (vipBytes vip) True := by
  cases vip with
  | none => exact putSetupByte_writes capacity 0
  | some vip =>
    exact ((putSetupByte_writes capacity 1).bind (putData_writes capacity _)).congr (by simp) rfl

theorem putReverseCid_writes (cid : Option ConnectionId) :
    Writes .bufferTooSmall capacity (putReverseCid cid capacity) (reverseCidBytes cid) True := by
  cases cid with
  | none => exact putSetupByte_writes capacity 0
  | some cid =>
    exact ((putSetupByte_writes capacity 1).bind (putConnectionId_writes capacity cid)).congr
      (by simp) rfl

theorem putRouteMode_writes (version : UInt8) (routeMode : RelayRouteMode) :
    Writes .bufferTooSmall capacity (putRouteMode version routeMode capacity)
    (routeModeBytes version routeMode) True := by
  unfold putRouteMode routeModeBytes
  split
  · exact putSetupByte_writes capacity routeMode.byte
  · exact .nothing Error.bufferTooSmall capacity

theorem putSetupHead_writes (version : UInt8) (head : SetupHead) (count : Nat) :
    Writes .bufferTooSmall capacity (putSetupHead version head count capacity)
      (version :: (headBytes version head ++ varint count))
      (head.transactionId < varintBound ∧ head.circuit.sequence < varintBound ∧
        count < varintBound) := by
  have h := (putSetupByte_writes capacity version).bind
    ((put_writes capacity head.transactionId).bind
    ((putSetupByte_writes capacity head.mode.byte).bind
      ((putRouteMode_writes capacity version head.routeMode).bind
      ((putSetupByte_writes capacity head.circuit.openerRole.byte).bind
        ((put_writes capacity head.circuit.sequence).bind
        ((putVip_writes capacity head.destinationVip).bind
          ((putReverseCid_writes capacity head.previousReverseCid).bind
          (put_writes capacity count))))))))
  exact h.congr (by simp) (by simp [headBytes])

def blockBytes (block : SetupBlock) : Bytes :=
  [block.kind, block.version, block.protection] ++ (varint block.payload.length ++ block.payload)

theorem putSetupBlock_writes (block : SetupBlock) :
    Writes .bufferTooSmall capacity (putSetupBlock block capacity) (blockBytes block)
      (block.payload.length < varintBound) := by
  have h := (putSetupByte_writes capacity block.kind).bind
    ((putSetupByte_writes capacity block.version).bind
    ((putSetupByte_writes capacity block.protection).bind
      ((put_writes capacity block.payload.length).bind (putData_writes capacity block.payload))))
  exact h.congr (by simp) rfl

/-- The loop over the blocks checks the size after each. -/
theorem putSetupBlocks_ok {capacity : Nat} {blocks : List SetupBlock} (hblocks : blocks ≠ [])
    {result : Bytes} (hout : out.length ≤ capacity)
    (h : putSetupBlocks capacity blocks out = .ok result) :
    result = out ++ blocks.flatMap blockBytes ∧ result.length ≤ maxSetupBodyBytes := by
  induction blocks generalizing out with
  | nil => exact absurd rfl hblocks
  | cons block blocks ih =>
    obtain ⟨next, hblock, h⟩ := bind_eq_ok.mp h
    obtain ⟨-, rfl, hnext⟩ := (putSetupBlock_writes capacity block).sound hout hblock
    split at h
    · cases h
    rename_i hsize
    cases blocks with
    | nil =>
      cases h
      exact ⟨by simp, not_lt.mp hsize⟩
    | cons other blocks =>
      obtain ⟨rfl, hlength⟩ := ih (by simp) hnext h
      exact ⟨by simp, hlength⟩

end Writes

/-! ## What is read back -/

@[simp] theorem takeSetupByte_cons (byte : UInt8) (rest : Bytes) :
    takeSetupByte (byte :: rest) = .ok (byte, rest) := rfl

theorem takeVarint_varint (h : value < varintBound) (rest : Bytes) :
    takeVarint (varint value ++ rest) = .ok (value, rest) := by
  simp only [takeVarint, getVarint_varint h, ok_bind, drop_left' (length_varint value)]

@[simp] theorem takeConnectionId_bytes (cid : ConnectionId) (rest : Bytes) :
    takeConnectionId (cid.bytes ++ rest) = .ok (cid, rest) := by
  simp only [takeConnectionId, decode_bytes, ok_bind, drop_left' cid.length_bytes]

@[simp] theorem SetupMode.ofByte_byte (mode : SetupMode) :
    SetupMode.ofByte mode.byte = .ok mode := by
  cases mode <;> rfl

@[simp] theorem RelayRouteMode.ofByte_byte (mode : RelayRouteMode) :
    RelayRouteMode.ofByte mode.byte = .ok mode := by
  cases mode <;> rfl

@[simp] theorem Role.ofByte_byte (role : Role) : Role.ofByte role.byte = .ok role := by
  cases role <;> rfl

theorem takeVip_vipBytes (h : vip ≠ some 0) (rest : Bytes) :
    takeVip (vipBytes vip ++ rest) = .ok (vip, rest) := by
  cases vip with
  | none => rfl
  | some vip =>
    have hlen : (toBytes 8 vip.toNat).length = 8 := length_toBytes _ _
    have hvalue : UInt64.ofNat (ofBytes 0 (toBytes 8 vip.toNat)) = vip := by
      rw [ofBytes_toBytes, mod_eq_of_lt (by simpa using vip.toNat_lt)]
      simp
    simp only [takeVip, vipBytes, cons_append, takeSetupByte_cons, ok_bind, take_left' hlen,
      drop_left' hlen, hvalue, length_append, hlen]
    rw [if_neg (by decide), if_pos trivial, if_neg (by omega), if_neg (by simpa using h)]

/-- A reverse id that no decoder accepts. -/
def IsZeroCid (cid : Option ConnectionId) : Prop := ∃ zero, cid = some zero ∧ zero.value = 0

instance (cid : Option ConnectionId) : Decidable (IsZeroCid cid) :=
  decidable_of_iff (cid.any (·.value = 0) = true) (by cases cid <;> simp [IsZeroCid])

theorem takeReverseCid_bytes (cid : Option ConnectionId) (rest : Bytes) :
    takeReverseCid (reverseCidBytes cid ++ rest) = if IsZeroCid cid then
      .error .invalid else .ok (cid, rest) := by
  cases cid with
  | none => rfl
  | some cid =>
    simp only [takeReverseCid, reverseCidBytes, cons_append, takeSetupByte_cons, ok_bind]
    simp [IsZeroCid]

/-- What the decoder demands of a head, apart from the reverse id. -/
structure SetupHead.Valid (version : UInt8) (head : SetupHead) : Prop where
  known : version = setupVersion ∨ version = setupRequestVersion
  transactionId : head.transactionId ≠ 0 ∧ head.transactionId < varintBound
  sequence : head.circuit.sequence ≠ 0 ∧ head.circuit.sequence < varintBound
  destinationVip : head.destinationVip ≠ some 0
  routeMode : version = setupVersion → head.routeMode = .layered

variable {version : UInt8}

theorem takeRouteMode_bytes (hversion : version = setupVersion ∨ version = setupRequestVersion)
    (hroute : version = setupVersion → routeMode = .layered) (rest : Bytes) :
    takeRouteMode version (routeModeBytes version routeMode ++ rest) = .ok (routeMode, rest) := by
  rcases hversion with rfl | rfl
  · rw [hroute rfl]
    rfl
  · simp [takeRouteMode, routeModeBytes, setupVersion, setupRequestVersion]

theorem takeSetupHead_headBytes (h : head.Valid version) (rest : Bytes) :
    takeSetupHead version (headBytes version head ++ rest) =
      if IsZeroCid head.previousReverseCid then .error .invalid else .ok (head, rest) := by
  simp only [takeSetupHead, headBytes, append_assoc, takeVarint_varint h.transactionId.2, ok_bind,
    cons_append, nil_append, takeSetupByte_cons, SetupMode.ofByte_byte,
    takeRouteMode_bytes h.known h.routeMode, Role.ofByte_byte, takeVarint_varint h.sequence.2,
    takeVip_vipBytes h.destinationVip, takeReverseCid_bytes]
  split
  · rfl
  · rfl

/-- The blocks that a byte string holds, however their lengths are written. -/
def BlocksIn : List SetupBlock → Bytes → Prop
  | [], bytes => bytes = []
  | block :: blocks, bytes =>
    block.Valid ∧ ∃ rest, takeBlockHead bytes =
      .ok ((block.kind, block.version, block.protection, block.payload.length),
        block.payload ++ rest) ∧
      BlocksIn blocks rest

theorem takeBlockHead_blockBytes (h : block.Valid) (rest : Bytes) :
    takeBlockHead (blockBytes block ++ rest) =
      .ok ((block.kind, block.version, block.protection, block.payload.length),
        block.payload ++ rest) := by
  have hlen : block.payload.length < varintBound := h.length_le.trans_lt (by decide)
  simp [takeBlockHead, blockBytes, takeSetupByte_cons, takeVarint_varint hlen]

variable {blocks : List SetupBlock}

theorem blocksIn_flatMap (h : ∀ block ∈ blocks, block.Valid) :
    BlocksIn blocks (blocks.flatMap blockBytes) := by
  induction blocks with
  | nil => rfl
  | cons block blocks ih =>
    have hvalid := h block mem_cons_self
    refine ⟨hvalid, blocks.flatMap blockBytes, ?_, ih (forall_mem_cons.mp h).2⟩
    rw [flatMap_cons, takeBlockHead_blockBytes hvalid]

theorem checkBlocks_of_blocksIn {bytes : Bytes} (h : BlocksIn blocks bytes) :
    checkBlocks blocks.length bytes = .ok [] := by
  induction blocks generalizing bytes with
  | nil =>
    cases h
    rfl
  | cons block blocks ih =>
    obtain ⟨hvalid, rest, hhead, hrest⟩ := h
    obtain ⟨hkind, hversion, hprotection, hnonempty, hlength⟩ := hvalid
    simp only [length_cons, checkBlocks, hhead, ok_bind, drop_left]
    rw [if_neg, ih hrest]
    rw [length_append]
    simp only [not_or, not_lt, not_not]
    exact ⟨hkind, hversion, hprotection, hnonempty, hlength, by omega⟩

theorem blocksIn_of_checkBlocks {count : Nat} {bytes : Bytes}
    (h : checkBlocks count bytes = .ok []) :
    ∃ blocks, blocks.length = count ∧ BlocksIn blocks bytes := by
  induction count generalizing bytes with
  | zero =>
    cases h
    exact ⟨[], rfl, rfl⟩
  | succ count ih =>
    obtain ⟨⟨⟨kind, version, protection, len⟩, rest⟩, hhead, h⟩ := bind_eq_ok.mp h
    simp only at h
    split at h
    · cases h
    rename_i hvalid
    simp only [not_or, not_lt, not_not] at hvalid
    obtain ⟨hkind, hversion, hprotection, hnonempty, hlen, hrest⟩ := hvalid
    have htake : (rest.take len).length = len := length_take_of_le hrest
    obtain ⟨blocks, hlength, hblocks⟩ := ih h
    refine ⟨⟨kind, version, protection, rest.take len⟩ :: blocks, by simp [hlength], ?_,
      rest.drop len, ?_, hblocks⟩
    · exact ⟨hkind, hversion, hprotection, by rwa [htake], by rwa [htake]⟩
    · rw [hhead, htake, take_append_drop]

theorem get_blocksIn {bytes : Bytes} (h : BlocksIn blocks bytes) (index : Nat) :
    SetupBlockBytes.get ⟨bytes, blocks.length⟩ index = blocks[index]? := by
  unfold SetupBlockBytes.get
  split
  · rename_i hle
    exact (getElem?_eq_none hle).symm
  rename_i hlt
  rw [not_le] at hlt
  induction blocks generalizing bytes index with
  | nil => exact absurd hlt (not_lt_zero _)
  | cons block blocks ih =>
    obtain ⟨-, rest, hhead, hrest⟩ := h
    unfold getBlock
    rw [hhead]
    simp only
    rw [if_neg (by rw [length_append]; omega)]
    cases index with
    | zero => simp
    | succ index =>
      simp only [drop_left]
      exact ih hrest index (by simpa using hlt)

/-! ## What a decoder accepts -/

/-- The reader took at least `n` bytes and left `rest`. -/
def Took (input rest : Bytes) (n : Nat) : Prop :=
  ∃ before, input = before ++ rest ∧ n ≤ before.length

variable {rest : Bytes} {input : Bytes}

theorem Took.trans {between : Bytes} {m : Nat} (h₁ : Took input between n)
    (h₂ : Took between rest m) :
    Took input rest (n + m) := by
  obtain ⟨first, rfl, hn⟩ := h₁
  obtain ⟨second, rfl, hm⟩ := h₂
  exact ⟨first ++ second, (append_assoc _ _ _).symm, by rw [length_append]; omega⟩

theorem Took.length_le (h : Took input rest n) : n + rest.length ≤ input.length := by
  obtain ⟨before, rfl, hn⟩ := h
  rw [length_append]
  omega

theorem took_drop {used : Nat} (hused : used ≤ input.length) (hn : n ≤ used) :
    Took input (input.drop used) n :=
  ⟨input.take used, (take_append_drop _ _).symm, by rwa [length_take_of_le hused]⟩

theorem takeSetupByte_ok {byte : UInt8} (h : takeSetupByte input = .ok (byte, rest)) :
    Took input rest 1 := by
  cases input with
  | nil => cases h
  | cons first tail =>
    cases h
    exact ⟨[byte], rfl, le_refl _⟩

theorem takeVarint_ok (h : takeVarint input = .ok (value, rest)) :
    value < varintBound ∧ Took input rest (varintLen value) := by
  obtain ⟨⟨v, used⟩, hget, h⟩ := bind_eq_ok.mp h
  cases h
  obtain ⟨hvalue, -, hused⟩ := getVarint_ok hget
  exact ⟨hvalue, took_drop hused (varintLen_le_of_getVarint hget)⟩

theorem takeConnectionId_ok {cid : ConnectionId} (h : takeConnectionId input = .ok (cid, rest)) :
    Took input rest cid.encodedLen := by
  obtain ⟨⟨id, used⟩, hdecode, h⟩ := bind_eq_ok.mp h
  cases h
  obtain ⟨hlen, -, hused⟩ := decode_ok hdecode
  exact took_drop hused hlen.ge

theorem takeVip_ok (h : takeVip input = .ok (vip, rest)) :
    vip ≠ some 0 ∧ Took input rest (vipBytes vip).length := by
  obtain ⟨⟨byte, tail⟩, hbyte, h⟩ := bind_eq_ok.mp h
  have htail := takeSetupByte_ok hbyte
  simp only at h
  split at h
  · cases h
    exact ⟨by simp, htail⟩
  split at h
  · split at h
    · cases h
    rename_i hlen
    split at h
    · cases h
    rename_i hvip
    cases h
    refine ⟨by simpa using hvip, ?_⟩
    exact htail.trans (took_drop (not_lt.mp hlen) (le_refl _))
  · cases h

theorem takeReverseCid_ok {cid : Option ConnectionId} (h : takeReverseCid input = .ok (cid, rest)) :
    ¬ IsZeroCid cid ∧ Took input rest (reverseCidBytes cid).length := by
  obtain ⟨⟨byte, tail⟩, hbyte, h⟩ := bind_eq_ok.mp h
  have htail := takeSetupByte_ok hbyte
  simp only at h
  split at h
  · cases h
    exact ⟨by simp [IsZeroCid], htail⟩
  split at h
  · obtain ⟨⟨id, after⟩, hid, h⟩ := bind_eq_ok.mp h
    split at h
    · cases h
    rename_i hzero
    cases h
    refine ⟨by simpa [IsZeroCid] using hzero, ?_⟩
    rw [reverseCidBytes, length_cons, length_bytes, add_comm]
    exact htail.trans (takeConnectionId_ok hid)
  · cases h

section

variable (hversion : version = setupVersion ∨ version = setupRequestVersion)
include hversion

theorem takeRouteMode_ok (h : takeRouteMode version input = .ok (routeMode, rest)) :
    (version = setupVersion → routeMode = .layered) ∧
      Took input rest (routeModeBytes version routeMode).length := by
  unfold takeRouteMode at h
  rcases hversion with rfl | rfl
  · rw [if_pos rfl] at h
    cases h
    exact ⟨fun _ => rfl, [], rfl, le_refl _⟩
  rw [if_neg (by decide)] at h
  obtain ⟨⟨byte, tail⟩, hbyte, h⟩ := bind_eq_ok.mp h
  obtain ⟨mode, -, h⟩ := bind_eq_ok.mp h
  cases h
  exact ⟨fun habsurd => absurd habsurd (by decide), takeSetupByte_ok hbyte⟩

theorem takeSetupHead_ok (h : takeSetupHead version input = .ok (head, rest)) :
    (head.transactionId ≠ 0 → head.circuit.sequence ≠ 0 → head.Valid version) ∧
      ¬ IsZeroCid head.previousReverseCid ∧
      Took input rest (headBytes version head).length := by
  simp only [takeSetupHead, bind_eq_ok] at h
  obtain ⟨⟨transactionId, rest₁⟩, hid, ⟨modeByte, rest₂⟩, hmodeByte, mode, -, ⟨routeMode, rest₃⟩,
      hroute, ⟨roleByte, rest₄⟩, hroleByte, role, -, ⟨sequence, rest₅⟩, hsequence, ⟨vip, rest₆⟩,
      hvip, ⟨cid, rest₇⟩, hcid, h⟩ := h
  cases h
  obtain ⟨hidLt, hidTook⟩ := takeVarint_ok hid
  obtain ⟨hrouteMode, hrouteTook⟩ := takeRouteMode_ok hversion hroute
  obtain ⟨hsequenceLt, hsequenceTook⟩ := takeVarint_ok hsequence
  obtain ⟨hvipNe, hvipTook⟩ := takeVip_ok hvip
  obtain ⟨hcidNe, hcidTook⟩ := takeReverseCid_ok hcid
  refine ⟨fun hid hsequence =>
    ⟨hversion, ⟨hid, hidLt⟩, ⟨hsequence, hsequenceLt⟩, hvipNe, hrouteMode⟩, hcidNe, ?_⟩
  simp only [headBytes, length_append, length_varint]
  exact hidTook.trans ((takeSetupByte_ok hmodeByte).trans
    (hrouteTook.trans ((takeSetupByte_ok hroleByte).trans
    (hsequenceTook.trans (hvipTook.trans hcidTook)))))

end

/-! ## Requests -/

/-- A view whose blocks are these. -/
structure SetupRequestView.Holds (view : SetupRequestView) (held : List SetupBlock) : Prop where
  valid : view.toSetupHead.Valid view.version
  reverse : ¬ IsZeroCid view.previousReverseCid
  count : view.blocks.count = held.length
  blocks : BlocksIn held view.blocks.bytes
  bounds : 1 ≤ held.length ∧ held.length ≤ maxSetupBlocks

theorem SetupRequestView.Holds.get (h : self.Holds blocks)
    (index : Nat) : self.blocks.get index = blocks[index]? := by
  have := get_blocksIn h.blocks index
  rwa [← h.count] at this

theorem SetupRequest.decode_ok {view : SetupRequestView} (h : decode input = .ok view) :
    (∃ blocks, view.Holds blocks) ∧ input.length ≤ maxSetupBodyBytes ∧
      (headBytes view.version view.toSetupHead).length + 2 + view.blocks.bytes.length ≤
        input.length := by
  unfold decode at h
  cases input with
  | nil => cases h
  | cons version rest =>
  simp only at h
  split at h
  · cases h
  rename_i hstart
  rw [not_or, not_lt, not_not] at hstart
  obtain ⟨hsize, hversion⟩ := hstart
  obtain ⟨⟨head, afterHead⟩, hhead, h⟩ := bind_eq_ok.mp h
  obtain ⟨⟨count, blockBytes⟩, hcount, h⟩ := bind_eq_ok.mp h
  simp only at h hcount
  split at h
  · cases h
  rename_i hnonzero
  simp only [not_or] at hnonzero
  obtain ⟨hid, hsequence, hcountPos, hcountLe⟩ := hnonzero
  obtain ⟨left, hcheck, h⟩ := bind_eq_ok.mp h
  split at h
  · cases h
  rename_i hleft
  rw [not_not] at hleft
  cases h
  obtain ⟨blocks, hlength, hblocks⟩ := blocksIn_of_checkBlocks (hleft ▸ hcheck)
  obtain ⟨hvalid, hreverse, htook⟩ := takeSetupHead_ok hversion hhead
  have hlen := htook.length_le
  have hcountTook := (takeVarint_ok hcount).2.length_le
  have := varintLen_pos count
  refine ⟨⟨blocks, hvalid hid hsequence, hreverse, hlength.symm, hblocks, by omega, by omega⟩,
    hsize, ?_⟩
  simp only [length_cons]
  omega

/-- A head and blocks, written one after the other. -/
theorem SetupRequest.decode_wire (hhead : head.Valid version)
    {bytes : Bytes} (hblocks : BlocksIn blocks bytes)
    (hbounds : 1 ≤ blocks.length ∧ blocks.length ≤ maxSetupBlocks)
    (hsize : (version :: (headBytes version head ++ varint blocks.length) ++ bytes).length ≤
      maxSetupBodyBytes) :
    decode (version :: (headBytes version head ++ varint blocks.length) ++ bytes) =
      if IsZeroCid head.previousReverseCid then .error .invalid
      else .ok ⟨head, version, ⟨bytes, blocks.length⟩,
        version :: (headBytes version head ++ varint blocks.length) ++ bytes⟩ := by
  have hcount : blocks.length < varintBound := hbounds.2.trans_lt (by decide)
  unfold decode
  simp only [cons_append, append_assoc] at hsize ⊢
  rw [if_neg (by rw [not_or, not_lt, not_not]; exact ⟨hsize, hhead.known⟩),
    takeSetupHead_headBytes hhead]
  split
  · rfl
  simp only [ok_bind, takeVarint_varint hcount, checkBlocks_of_blocksIn hblocks]
  rw [if_neg, if_neg (by simp)]
  simp only [not_or, not_lt]
  exact ⟨hhead.transactionId.1, hhead.sequence.1, by omega, hbounds.2⟩

/-- The view reads exactly the request. -/
def SetupRequestView.Reads (self : SetupRequestView) (request : SetupRequest) : Prop :=
  self.toSetupHead = request.toSetupHead ∧ self.blocks.count = request.blocks.length ∧
    ∀ index, self.blocks.get index = request.blocks[index]?

theorem SetupRequest.decode_encode {request : SetupRequest} {bytes : Bytes}
    (h : request.encode capacity = .ok bytes) :
    ∃ view, decode bytes = .ok view ∧ view.Reads request := by
  unfold encode at h
  split at h
  · cases h
  rename_i hvalid
  simp only [not_or, not_lt, not_exists, not_and, not_not] at hvalid
  obtain ⟨hid, hsequence, hnonempty, hcount, hvip, hreverse, hblocks⟩ := hvalid
  obtain ⟨out, hput, h⟩ := bind_eq_ok.mp h
  obtain ⟨⟨hidLt, hsequenceLt, -⟩, rfl, hout⟩ :=
    (putSetupHead_writes capacity _ _ _).sound (zero_le _) hput
  obtain ⟨rfl, hsize⟩ := putSetupBlocks_ok hnonempty hout h
  have hhead : request.toSetupHead.Valid setupRequestVersion :=
    ⟨.inr rfl, ⟨hid, hidLt⟩, ⟨hsequence, hsequenceLt⟩, hvip, fun habsurd =>
      absurd habsurd (by decide)⟩
  have hbounds : 1 ≤ request.blocks.length ∧ request.blocks.length ≤ maxSetupBlocks :=
    ⟨length_pos_iff.mpr hnonempty, hcount⟩
  have hdecode := decode_wire hhead (blocksIn_flatMap hblocks) hbounds hsize
  have hzero : ¬ IsZeroCid request.previousReverseCid := by
    rintro ⟨zero, hsome, hvalue⟩
    rw [hsome] at hreverse
    simp [hvalue] at hreverse
  rw [if_neg hzero] at hdecode
  exact ⟨_, hdecode, rfl, rfl, get_blocksIn (blocksIn_flatMap hblocks)⟩

/-! ## One hop -/

theorem takeBlockHead_ok {fields : UInt8 × UInt8 × UInt8 × Nat}
    (h : takeBlockHead input = .ok (fields, rest)) : Took input rest 4 := by
  simp only [takeBlockHead, bind_eq_ok] at h
  obtain ⟨⟨kind, rest₁⟩, hkind, ⟨version, rest₂⟩, hversion, ⟨protection, rest₃⟩, hprotection,
      ⟨len, rest₄⟩, hlen, h⟩ := h
  cases h
  obtain ⟨before, hbefore, hle⟩ := (takeVarint_ok hlen).2
  have htook : Took rest₃ rest₄ 1 := ⟨before, hbefore, (varintLen_pos len).trans_le hle⟩
  exact (takeSetupByte_ok hkind).trans
    ((takeSetupByte_ok hversion).trans ((takeSetupByte_ok hprotection).trans htook))

/-- The shortest instruction has a kind, a length, one byte of address, a lease and a quota. -/
theorem SetupBlock.length_of_instruction
    (h : block.instruction = .ok instruction) : 5 ≤ block.payload.length := by
  unfold SetupBlock.instruction at h
  split at h
  · cases h
  simp only [SetupHopInstruction.decode, bind_eq_ok] at h
  obtain ⟨⟨kind, rest₁⟩, hkind, ⟨len, rest₂⟩, hlen, h⟩ := h
  simp only at h hlen
  split at h
  · cases h
  rename_i haddress
  obtain ⟨⟨lease, rest₃⟩, hlease, h⟩ := bind_eq_ok.mp h
  obtain ⟨⟨quota, rest₄⟩, hquota, -⟩ := bind_eq_ok.mp h
  simp only at hquota
  have h₁ := (takeSetupByte_ok hkind).length_le
  have h₂ := (takeSetupByte_ok hlen).length_le
  have h₃ := (takeVarint_ok hlease).2.length_le
  have h₄ := (takeVarint_ok hquota).2.length_le
  have := varintLen_pos lease
  have := varintLen_pos quota
  simp only [length_drop] at h₃
  omega

namespace SetupRequestView

variable {remaining : Bytes} {reverses : List (Option ConnectionId)}

/-- The request that the next hop gets. -/
def nextWire (self : SetupRequestView) (reverse : Option ConnectionId) (count : Nat)
    (remaining : Bytes) : Bytes :=
  self.version :: (headBytes self.version { self.toSetupHead with previousReverseCid := reverse } ++
    varint count) ++
    remaining

variable {held : List SetupBlock}

theorem Holds.next_valid (h : self.Holds held)
    (reverse : Option ConnectionId) : SetupHead.Valid self.version { self.toSetupHead with
      previousReverseCid := reverse } :=
  ⟨h.valid.known, h.valid.transactionId, h.valid.sequence, h.valid.destinationVip,
    h.valid.routeMode⟩

/-- The length of the head without a reverse id, which no hop changes. -/
def bareLength (self : SetupRequestView) : Nat :=
  (headBytes self.version { self.toSetupHead with previousReverseCid := none }).length

variable (self : SetupRequestView) (reverse : Option ConnectionId)

theorem length_headBytes :
    (headBytes self.version { self.toSetupHead with previousReverseCid := reverse }).length + 1 =
      self.bareLength + (reverseCidBytes reverse).length := by
  simp only [bareLength, headBytes, length_append, reverseCidBytes, length_singleton]
  omega

theorem bareLength_le : self.bareLength ≤ (headBytes self.version self.toSetupHead).length := by
  have hself : (headBytes self.version self.toSetupHead).length + 1 =
      self.bareLength + (reverseCidBytes self.previousReverseCid).length := self.length_headBytes
        self.previousReverseCid
  have hpos : 1 ≤ (reverseCidBytes self.previousReverseCid).length := by
    cases self.previousReverseCid <;> simp [reverseCidBytes]
  omega

/-- The next hop's request has a reverse id of nine bytes, at most. -/
theorem length_nextWire_le (count : Nat) (hcount : count ≤ maxSetupBlocks) (remaining : Bytes) :
    (self.nextWire reverse count remaining).length ≤ self.bareLength + 10 + remaining.length := by
  have hlen : varintLen count = 1 := by
    rw [varintLen, if_pos (hcount.trans_lt (by decide))]
  have hreverse : (reverseCidBytes reverse).length ≤ 9 := by
    cases reverse with
    | none => simp [reverseCidBytes]
    | some cid =>
      have := cid.encodedLen_le
      simp only [reverseCidBytes, length_cons, length_bytes]
      omega
  have hhead := self.length_headBytes reverse
  simp only at hhead
  simp only [nextWire, length_cons, length_append, length_varint]
  omega

variable {capacity : Nat}

/-- The re-encoder, once it has found what remains. -/
theorem encodeAfter_eq_ok_iff {self : SetupRequestView} (hholds : self.Holds held)
    (hconsumed : self.consumedBlocks < self.blocks.count)
    (hinstruction : self.currentHopInstruction = .ok instruction)
    (hskip : skipBlocks self.consumedBlocks self.blocks.bytes = .ok remaining)
    (reverse : Option ConnectionId) :
    self.encodeAfterFirstBlockWithReverseCid reverse capacity = .ok out ↔
      out = self.nextWire reverse (self.blocks.count - self.consumedBlocks) remaining ∧
        out.length ≤ capacity ∧
        out.length ≤ maxSetupBodyBytes := by
  have hcount : self.blocks.count - self.consumedBlocks < varintBound := by
    have := hholds.bounds.2
    rw [hholds.count]
    unfold maxSetupBlocks at this
    unfold varintBound
    omega
  have hvalid := hholds.next_valid reverse
  have hwrites := (putSetupHead_writes capacity self.version { self.toSetupHead with
    previousReverseCid := reverse }
    (self.blocks.count - self.consumedBlocks)).bind (putData_writes capacity remaining)
  have hiff := hwrites.eq_ok_iff out
  unfold encodeAfterFirstBlockWithReverseCid
  rw [if_neg (not_le.mpr hconsumed), hinstruction, ok_bind, hskip, ok_bind, ← bind_assoc,
    bind_eq_ok]
  constructor
  · rintro ⟨written, hput, h⟩
    split at h
    · cases h
    rename_i hsize
    cases h
    obtain ⟨-, hlength, rfl⟩ := hiff.mp hput
    exact ⟨rfl, hlength, not_lt.mp hsize⟩
  rintro ⟨rfl, hlength, hsize⟩
  refine ⟨_, hiff.mpr ⟨⟨⟨hvalid.transactionId.2, hvalid.sequence.2, hcount⟩, trivial⟩, hlength,
    rfl⟩, ?_⟩
  rw [if_neg (not_lt.mpr hsize)]

/-- The next hop decodes what this one writes, unless the reverse id is zero. -/
theorem decode_nextWire {self : SetupRequestView} (hholds : self.Holds held)
    (hblocks : BlocksIn blocks remaining)
    (hbounds : 1 ≤ blocks.length ∧ blocks.length ≤ maxSetupBlocks) (reverse : Option ConnectionId)
    (hsize : (self.nextWire reverse blocks.length remaining).length ≤ maxSetupBodyBytes) :
    SetupRequest.decode (self.nextWire reverse blocks.length remaining) = if IsZeroCid reverse then
      .error .invalid
      else .ok ⟨{ self.toSetupHead with previousReverseCid := reverse }, self.version,
        ⟨remaining, blocks.length⟩, self.nextWire reverse blocks.length remaining⟩ :=
  decode_wire (hholds.next_valid reverse) hblocks hbounds hsize

/-- Below the bounds of every buffer by what a hop may add. -/
def size (self : SetupRequestView) : Nat :=
  (headBytes self.version self.toSetupHead).length + 2 + self.blocks.bytes.length

theorem Holds.currentHopInstruction {self : SetupRequestView}
    (h : self.Holds (block :: blocks)) : self.currentHopInstruction = block.instruction := by
  unfold SetupRequestView.currentHopInstruction
  rw [h.get 0]
  rfl

/-- A relay on a layered or routed path drops its own block, which makes more room than its reverse
id takes. -/
theorem encodeAfter_drops {self : SetupRequestView}
    (hholds : self.Holds (block :: blocks)) (hroute : self.routeMode ≠ .telescoping)
    (hblocks : blocks ≠ []) (hinstruction : block.instruction = .ok instruction)
    (reverse : Option ConnectionId) (hcapacity : self.size ≤ capacity)
    (hsize : self.size ≤ maxSetupBodyBytes) :
    ∃ remaining, BlocksIn blocks remaining ∧ remaining <:+ self.blocks.bytes ∧
      self.encodeAfterFirstBlockWithReverseCid reverse capacity =
        .ok (self.nextWire reverse blocks.length remaining) ∧
      (self.nextWire reverse blocks.length remaining).length ≤ self.size := by
  obtain ⟨-, remaining, hhead, hremaining⟩ := hholds.blocks
  have hconsumed : self.consumedBlocks = 1 := if_pos hroute
  have hcount : self.blocks.count = blocks.length + 1 := hholds.count
  have hpos : 1 ≤ blocks.length := length_pos_iff.mpr hblocks
  have hskip : skipBlocks self.consumedBlocks self.blocks.bytes = .ok remaining := by
    rw [hconsumed]
    simp only [skipBlocks, hhead, ok_bind]
    rw [if_neg (by rw [length_append]; omega), drop_left]
  have htook := (takeBlockHead_ok hhead).length_le
  have hpayload := SetupBlock.length_of_instruction hinstruction
  have hwire := self.length_nextWire_le reverse blocks.length
    (by have := hholds.bounds.2; rw [length_cons] at this; omega) remaining
  have hless : (self.nextWire reverse blocks.length remaining).length ≤ self.size := by
    have := self.bareLength_le
    unfold size
    rw [length_append] at htook
    omega
  refine ⟨remaining, hremaining, ?_, ?_, hless⟩
  · obtain ⟨before, hbefore, -⟩ := takeBlockHead_ok hhead
    exact ⟨before ++ block.payload, by rw [hbefore, append_assoc]⟩
  · rw [encodeAfter_eq_ok_iff hholds (by omega) (hholds.currentHopInstruction.trans hinstruction)
      hskip, hconsumed, hcount]
    exact ⟨rfl, hless.trans hcapacity, hless.trans hsize⟩

/-! ## Many hops -/

/-- Every hop decodes the request and writes it again, under its own reverse id. -/
def passOn (capacity : Nat) : Bytes → List (Option ConnectionId) → Except Error Bytes
  | input, [] => .ok input
  | input, reverse :: reverses => do
      let view ← SetupRequest.decode input
      let out ← view.encodeAfterFirstBlockWithReverseCid reverse capacity
      passOn capacity out reverses

/-- The fields of the head, under the last reverse id. -/
def headAfter (self : SetupRequestView) (reverses : List (Option ConnectionId)) : SetupHead :=
  { self.toSetupHead with previousReverseCid := reverses.getLast?.getD self.previousReverseCid }

theorem headAfter_cons (reverses : List (Option ConnectionId)) {next : SetupRequestView}
    (hnext : next.toSetupHead = { self.toSetupHead with previousReverseCid := reverse }) :
    next.headAfter reverses = self.headAfter (reverse :: reverses) := by
  unfold headAfter
  rw [hnext]
  cases reverses with
  | nil => rfl
  | cons other reverses => simp [getLast?_cons]

/-- The request that arrives: the same, some blocks further on, as they were sent. -/
structure Advanced (view : SetupRequestView) (reverses : List (Option ConnectionId))
    (after : SetupRequestView) : Prop where
  head : after.toSetupHead = view.headAfter reverses
  count : after.blocks.count + reverses.length = view.blocks.count
  get : ∀ index, after.blocks.get index = view.blocks.get (index + reverses.length)
  bytes : after.blocks.bytes <:+ view.blocks.bytes

/-- The request passes through these hops, and whoever gets it reads it as described. -/
def Arrives (input : Bytes) (capacity : Nat) (reverses : List (Option ConnectionId))
    (described : SetupRequestView → Prop) : Prop :=
  ∃ out after, passOn capacity input reverses = .ok out ∧ SetupRequest.decode out = .ok after ∧
    described after

/-- The block at this position instructs a relay. -/
def RelayAt (self : SetupRequestView) (index : Nat) : Prop :=
  ∃ block instruction, self.blocks.get index = some block ∧ block.instruction = .ok instruction

theorem decode_zero {self : SetupRequestView} (hholds : self.Holds held)
    {reverse : Option ConnectionId} (hzero : IsZeroCid reverse) (count : Nat) (remaining : Bytes) :
    SetupRequest.decode (self.nextWire reverse count remaining) = .error .invalid := by
  unfold SetupRequest.decode nextWire
  simp only [cons_append, append_assoc]
  split
  · rfl
  · rw [takeSetupHead_headBytes (hholds.next_valid reverse), if_pos hzero]
    rfl

theorem encodeAfter_ok {self : SetupRequestView} (hholds : self.Holds held)
    {reverse : Option ConnectionId}
    (h : self.encodeAfterFirstBlockWithReverseCid reverse capacity = .ok out) :
    ∃ remaining, skipBlocks self.consumedBlocks self.blocks.bytes = .ok remaining ∧
      out = self.nextWire reverse (self.blocks.count - self.consumedBlocks) remaining ∧
      out.length ≤ maxSetupBodyBytes := by
  have hself := h
  unfold encodeAfterFirstBlockWithReverseCid at h
  split at h
  · cases h
  rename_i hconsumed
  obtain ⟨instruction, hinstruction, h⟩ := bind_eq_ok.mp h
  obtain ⟨remaining, hskip, h⟩ := bind_eq_ok.mp h
  obtain ⟨hout, -, hsize⟩ :=
    (encodeAfter_eq_ok_iff hholds (not_le.mp hconsumed) hinstruction hskip reverse).mp hself
  exact ⟨remaining, hskip, hout, hsize⟩

/-- Whatever is read at the end, every hop on the way has given a reverse id that is not zero. -/
theorem nonzero_of_passOn {input : Bytes}
    {after : SetupRequestView} (hpass : passOn capacity input reverses = .ok out)
    (hafter : SetupRequest.decode out = .ok after) : ∀ reverse ∈ reverses, ¬ IsZeroCid reverse := by
  induction reverses generalizing input with
  | nil => simp
  | cons reverse reverses ih =>
    obtain ⟨view, hview, hpass⟩ := bind_eq_ok.mp hpass
    obtain ⟨next, hnext, hpass⟩ := bind_eq_ok.mp hpass
    rw [forall_mem_cons]
    refine ⟨fun hzero => ?_, ih hpass⟩
    obtain ⟨⟨held, hholds⟩, -⟩ := decode_ok hview
    obtain ⟨remaining, -, rfl, -⟩ := encodeAfter_ok hholds hnext
    have hundecodable := decode_zero hholds hzero (view.blocks.count - view.consumedBlocks)
      remaining
    cases reverses with
    | nil =>
      cases hpass
      rw [hundecodable] at hafter
      cases hafter
    | cons other reverses =>
      simp only [passOn, hundecodable] at hpass
      cases hpass

theorem passOn_cons {input : Bytes} {self : SetupRequestView}
    (hdecode : SetupRequest.decode input = .ok self) {reverse : Option ConnectionId}
    (hencode : self.encodeAfterFirstBlockWithReverseCid reverse capacity = .ok out)
    (reverses : List (Option ConnectionId)) :
    passOn capacity input (reverse :: reverses) = passOn capacity out reverses := by
  simp [passOn, hdecode, hencode]

/-- Along a layered or routed path the request loses one block at each hop. -/
theorem arrives_advanced {input : Bytes} {self : SetupRequestView}
    (hdecode : SetupRequest.decode input = .ok self) (hroute : self.routeMode ≠ .telescoping)
    (hcapacity : input.length ≤ capacity) (hhops : reverses.length < self.blocks.count)
    (hrelays : ∀ index < reverses.length, self.RelayAt index)
    (hnonzero : ∀ reverse ∈ reverses, ¬ IsZeroCid reverse) :
    Arrives input capacity reverses (self.Advanced reverses) := by
  induction reverses generalizing input self with
  | nil => exact ⟨input, self, rfl, hdecode, rfl, rfl, fun _ => rfl, suffix_rfl⟩
  | cons reverse reverses ih =>
    rw [forall_mem_cons] at hnonzero
    obtain ⟨⟨held, hholds⟩, hinput, hsize⟩ := decode_ok hdecode
    obtain ⟨first, instruction, hfirst, hinstruction⟩ := hrelays 0 (by simp)
    rw [hholds.get 0] at hfirst
    cases held with
    | nil => cases hfirst
    | cons block blocks =>
    cases hfirst
    have hcount : self.blocks.count = blocks.length + 1 := hholds.count
    have hne : blocks ≠ [] := by
      rintro rfl
      simp [hcount] at hhops
    obtain ⟨remaining, hremaining, hsuffix, hencode, hless⟩ :=
      encodeAfter_drops hholds hroute hne hinstruction reverse
      (hsize.trans hcapacity) (hsize.trans hinput)
    have hbounds : 1 ≤ blocks.length ∧ blocks.length ≤ maxSetupBlocks :=
      ⟨length_pos_iff.mpr hne, (le_succ _).trans hholds.bounds.2⟩
    have hnext := decode_nextWire hholds hremaining hbounds reverse
      (hless.trans (hsize.trans hinput))
    rw [if_neg hnonzero.1] at hnext
    -- The next hop sees the same blocks, one position earlier.
    have hget : ∀ index, SetupBlockBytes.get ⟨remaining, blocks.length⟩ index =
        self.blocks.get (index + 1) := by
      intro index
      rw [hholds.get, get_blocksIn hremaining, getElem?_cons_succ]
    have hrelays' : ∀ index < reverses.length,
        RelayAt ⟨{ self.toSetupHead with previousReverseCid := reverse }, self.version,
        ⟨remaining, blocks.length⟩, self.nextWire reverse blocks.length remaining⟩ index := by
      intro index hindex
      obtain ⟨other, otherInstruction, hother, hotherInstruction⟩ :=
        hrelays (index + 1) (by simpa using hindex)
      exact ⟨other, otherInstruction, (hget index).trans hother, hotherInstruction⟩
    have hhops' : reverses.length < blocks.length := by
      rw [length_cons] at hhops
      omega
    obtain ⟨out, after, hpass, hafter, hadvanced⟩ :=
      ih hnext hroute (hless.trans (hsize.trans hcapacity)) hhops' hrelays' hnonzero.2
    refine ⟨out, after, (passOn_cons hdecode hencode reverses).trans hpass, hafter, ?_,
      ?_, ?_, ?_⟩
    · exact hadvanced.head.trans (headAfter_cons self reverse reverses rfl)
    · have := hadvanced.count
      simp only at this
      rw [length_cons]
      omega
    · intro index
      rw [hadvanced.get index, hget, length_cons, add_assoc]
    · exact hadvanced.bytes.trans hsuffix

section Telescoping

variable {input : Bytes} {self : SetupRequestView} {capacity : Nat}
    {reverses : List (Option ConnectionId)}

/-- The view of the next hop, when no block is dropped. -/
def telescoped (self : SetupRequestView) (reverse : Option ConnectionId) : SetupRequestView :=
  ⟨{ self.toSetupHead with previousReverseCid := reverse }, self.version, self.blocks,
    self.nextWire reverse self.blocks.count self.blocks.bytes⟩

theorem consumedBlocks_telescoping (hroute : self.routeMode = .telescoping) :
    self.consumedBlocks = 0 :=
  if_neg (by simpa using hroute)

theorem decode_telescoped (hholds : self.Holds held) {reverse : Option ConnectionId}
    (hnonzero : ¬ IsZeroCid reverse)
    (hsize : (self.nextWire reverse self.blocks.count self.blocks.bytes).length ≤
      maxSetupBodyBytes) :
    SetupRequest.decode (self.nextWire reverse self.blocks.count self.blocks.bytes) =
      .ok (self.telescoped reverse) := by
  rw [hholds.count] at hsize ⊢
  rw [decode_nextWire hholds hholds.blocks hholds.bounds reverse hsize, if_neg hnonzero]
  simp only [telescoped, ← hholds.count]

/-- Telescoping keeps the block list, at every hop that passes the request on. -/
theorem telescoping_keeps (hdecode : SetupRequest.decode input = .ok self)
    (hroute : self.routeMode = .telescoping) (hpass : passOn capacity input reverses = .ok out)
    (hnonzero : ∀ reverse ∈ reverses, ¬ IsZeroCid reverse) :
    ∃ after, SetupRequest.decode out = .ok after ∧ after.toSetupHead = self.headAfter reverses ∧
      after.blocks = self.blocks := by
  induction reverses generalizing input self with
  | nil =>
    cases hpass
    exact ⟨self, hdecode, rfl, rfl⟩
  | cons reverse reverses ih =>
    rw [forall_mem_cons] at hnonzero
    obtain ⟨⟨held, hholds⟩, -⟩ := decode_ok hdecode
    simp only [passOn, hdecode, ok_bind] at hpass
    obtain ⟨next, hencode, hpass⟩ := bind_eq_ok.mp hpass
    obtain ⟨remaining, hskip, rfl, hsize⟩ := encodeAfter_ok hholds hencode
    rw [consumedBlocks_telescoping hroute] at hskip hsize hpass
    cases hskip
    obtain ⟨after, hafter, hhead, hblocks⟩ :=
      ih (decode_telescoped hholds hnonzero.1 hsize) hroute hpass hnonzero.2
    exact ⟨after, hafter, hhead.trans (headAfter_cons self reverse reverses rfl), hblocks⟩

/-- A hop passes the request on if eight bytes are left for its reverse id. -/
theorem telescoping_passes (hdecode : SetupRequest.decode input = .ok self)
    (hroute : self.routeMode = .telescoping) (hrelay : self.RelayAt 0)
    (hcapacity : self.bareLength + 10 + self.blocks.bytes.length ≤ capacity)
    (hbody : self.bareLength + 10 + self.blocks.bytes.length ≤ maxSetupBodyBytes)
    (hnonzero : ∀ reverse ∈ reverses, ¬ IsZeroCid reverse) :
    ∃ out, passOn capacity input reverses = .ok out := by
  induction reverses generalizing input self with
  | nil => exact ⟨input, rfl⟩
  | cons reverse reverses ih =>
    rw [forall_mem_cons] at hnonzero
    obtain ⟨⟨held, hholds⟩, -⟩ := decode_ok hdecode
    obtain ⟨block, instruction, hblock, hinstruction⟩ := hrelay
    have hcurrent : self.currentHopInstruction = .ok instruction := by
      unfold currentHopInstruction
      rw [hblock]
      exact hinstruction
    have hconsumed := consumedBlocks_telescoping hroute
    have hcount := hholds.count
    have hlength := self.length_nextWire_le reverse self.blocks.count
      (by rw [hcount]; exact hholds.bounds.2)
      self.blocks.bytes
    have hencode : self.encodeAfterFirstBlockWithReverseCid reverse capacity =
        .ok (self.nextWire reverse self.blocks.count self.blocks.bytes) := by
      have hskip : skipBlocks self.consumedBlocks self.blocks.bytes = .ok self.blocks.bytes := by
        rw [hconsumed]; rfl
      have hpos := hholds.bounds.1
      rw [encodeAfter_eq_ok_iff hholds (by omega) hcurrent hskip, hconsumed]
      exact ⟨rfl, hlength.trans hcapacity, hlength.trans hbody⟩
    obtain ⟨out, hpass⟩ := ih (decode_telescoped hholds hnonzero.1 (hlength.trans hbody)) hroute
      ⟨block, instruction, hblock, hinstruction⟩ hcapacity hbody hnonzero.2
    exact ⟨out, (passOn_cons hdecode hencode reverses).trans hpass⟩

end Telescoping

end SetupRequestView

open SetupRequestView

/-! ## Replies -/

def resultBytes : SetupResult → Bytes
  | .accepted endpointCid leaseUs => [0] ++ (endpointCid.bytes ++ varint leaseUs)
  | .rejected code => [1] ++ varint code

def SetupResult.Valid : SetupResult → Prop
  | .accepted endpointCid leaseUs => (endpointCid.value ≠ 0 ∧ leaseUs ≠ 0) ∧ leaseUs < varintBound
  | .rejected code => code ≠ 0 ∧ code < varintBound

def bootstrapAckBytes : Option SetupBootstrapAck → Bytes
  | some ack => [1] ++ (varint ack.bytes.length ++ ack.bytes)
  | none => [0]

def relayCidsBytes (relayCids : SetupRelayCids) : Bytes :=
  varint relayCids.cids.length ++ relayCids.cids.flatMap bytes

namespace SetupReply

/-- A reply after its version. -/
def bytes (self : SetupReply) : Bytes :=
  varint self.transactionId ++ ([self.circuit.openerRole.byte] ++ (varint self.circuit.sequence ++
    (resultBytes self.result ++
      (bootstrapAckBytes self.bootstrapAck ++ relayCidsBytes self.relayCids))))

/-- What can be written at all. A rejection carries nothing but its code. -/
structure Encodable (reply : SetupReply) : Prop where
  transactionId : reply.transactionId ≠ 0 ∧ reply.transactionId < varintBound
  sequence : reply.circuit.sequence ≠ 0 ∧ reply.circuit.sequence < varintBound
  result : reply.result.Valid
  bootstrapAck : reply.result.isRejected = true → reply.bootstrapAck = none
  relayCids : reply.result.isRejected = true → reply.relayCids.cids = []

section Writes

variable (capacity : Nat) (result : SetupResult)

theorem putResult_writes : Writes .bufferTooSmall capacity (putResult result capacity)
    (resultBytes result) result.Valid := by
  cases result with
  | accepted endpointCid leaseUs =>
    unfold putResult
    by_cases hvalid : endpointCid.value ≠ 0 ∧ leaseUs ≠ 0
    · simp only [if_pos hvalid]
      exact ((putSetupByte_writes capacity 0).bind
        ((putConnectionId_writes capacity endpointCid).bind
        (put_writes capacity leaseUs))).congr (by simp [SetupResult.Valid, hvalid]) rfl
    · simp only [if_neg hvalid]
      exact (Writes.fails (by simp) _ capacity).congr
        (by simp only [SetupResult.Valid, hvalid, false_and]) rfl
  | rejected code =>
    unfold putResult
    by_cases hzero : code = 0
    · simp only [if_pos hzero]
      exact (Writes.fails (by simp) _ capacity).congr (by simp [SetupResult.Valid, hzero]) rfl
    simp only [if_neg hzero]
    exact ((putSetupByte_writes capacity 1).bind (put_writes capacity code)).congr
      (by simp [SetupResult.Valid, hzero]) rfl

theorem putBootstrapAck_writes (ack : Option SetupBootstrapAck) :
    Writes .bufferTooSmall capacity (putBootstrapAck result ack capacity) (bootstrapAckBytes ack)
      (result.isRejected = true → ack = none) := by
  cases ack with
  | none =>
    have hput : putBootstrapAck result none capacity = putSetupByte 0 capacity := by
      cases result <;> rfl
    rw [hput]
    exact (putSetupByte_writes capacity 0).congr (by simp) rfl
  | some ack =>
    cases result with
    | accepted endpointCid leaseUs =>
      have hlen : ack.bytes.length < varintBound := ack.length_le.trans_lt (by decide)
      exact ((putSetupByte_writes capacity 1).bind ((put_writes capacity ack.bytes.length).bind
        (putData_writes capacity ack.bytes))).congr (by simp [SetupResult.isRejected, hlen]) rfl
    | rejected code =>
      exact (Writes.fails (by simp) _ capacity).congr (by simp [SetupResult.isRejected]) rfl

theorem putConnectionIds_writes (cids : List ConnectionId) :
    Writes .bufferTooSmall capacity (putConnectionIds capacity cids)
    (cids.flatMap ConnectionId.bytes) True := by
  induction cids with
  | nil => exact .nothing Error.bufferTooSmall capacity
  | cons cid cids ih =>
    exact ((putConnectionId_writes capacity cid).bind ih).congr (by simp) (by simp)

theorem putRelayCids_writes (relayCids : SetupRelayCids) :
    Writes .bufferTooSmall capacity (putRelayCids result relayCids capacity)
    (relayCidsBytes relayCids) (result.isRejected = true → relayCids.cids = []) := by
  have hlen : relayCids.cids.length < varintBound := relayCids.length_le.trans_lt (by decide)
  unfold putRelayCids
  by_cases hrejected : result.isRejected = true ∧ relayCids.cids ≠ []
  · simp only [if_pos hrejected]
    refine (Writes.fails (by simp) _ capacity).congr ?_ rfl
    simp [hrejected.1, hrejected.2]
  simp only [if_neg hrejected]
  refine ((put_writes capacity relayCids.cids.length).bind
    (putConnectionIds_writes capacity relayCids.cids)).congr ?_ rfl
  simp only [hlen, and_self, true_iff]
  intro hresult
  by_contra hne
  exact hrejected ⟨hresult, hne⟩

/-- The encoder before its last check. -/
def write (self : SetupReply) (out : Bytes) : Except Error Bytes := do
  let out ← putSetupByte setupVersion capacity out
  let out ← put self.transactionId capacity out
  let out ← putSetupByte self.circuit.openerRole.byte capacity out
  let out ← put self.circuit.sequence capacity out
  let out ← putResult self.result capacity out
  let out ← putBootstrapAck self.result self.bootstrapAck capacity out
  putRelayCids self.result self.relayCids capacity out

theorem encode_eq (self : SetupReply) : self.encode capacity =
      if self.transactionId = 0 ∨ self.circuit.sequence = 0 then .error .invalid
      else self.write capacity [] >>= fun out => if maxSetupBodyBytes < out.length then
        .error .invalid else .ok out := by
  simp only [encode, write, bind_assoc]

theorem write_writes (self : SetupReply) :
    Writes .bufferTooSmall capacity (self.write capacity) (setupVersion :: self.bytes)
      (self.transactionId < varintBound ∧ self.circuit.sequence < varintBound ∧ self.result.Valid ∧
        (self.result.isRejected = true → self.bootstrapAck = none) ∧
        (self.result.isRejected = true → self.relayCids.cids = [])) := by
  have h := (putSetupByte_writes capacity setupVersion).bind
    ((put_writes capacity self.transactionId).bind
    ((putSetupByte_writes capacity self.circuit.openerRole.byte).bind
      ((put_writes capacity self.circuit.sequence).bind
      ((putResult_writes capacity self.result).bind
        ((putBootstrapAck_writes capacity self.result self.bootstrapAck).bind
        (putRelayCids_writes capacity self.result self.relayCids))))))
  exact h.congr (by simp) (by simp [bytes])

end Writes

theorem length_flatMap_bytes_le (cids : List ConnectionId) :
    (cids.flatMap ConnectionId.bytes).length ≤ 8 * cids.length := by
  induction cids with
  | nil => simp
  | cons cid cids ih =>
    have := cid.encodedLen_le
    simp only [flatMap_cons, length_append, length_cons, length_bytes]
    omega

variable (self : SetupReply)

/-- Every reply fits the array that `encode_packet` keeps for it. -/
theorem length_bytes_le : (setupVersion :: self.bytes).length ≤ 223 := by
  have hid := varintLen_le self.transactionId
  have hsequence := varintLen_le self.circuit.sequence
  have hresult : (resultBytes self.result).length ≤ 17 := by
    cases self.result with
    | accepted endpointCid leaseUs =>
      have := endpointCid.encodedLen_le
      have := varintLen_le leaseUs
      simp only [resultBytes, length_append, length_singleton, length_bytes, length_varint]
      omega
    | rejected code =>
      have := varintLen_le code
      simp only [resultBytes, length_append, length_singleton, length_varint]
      omega
  have hack : (bootstrapAckBytes self.bootstrapAck).length ≤ 131 := by
    cases self.bootstrapAck with
    | none => simp [bootstrapAckBytes]
    | some ack =>
      have hle := ack.length_le
      unfold maxSetupBootstrapAckBytes at hle
      have hlen : varintLen ack.bytes.length ≤ 2 := by
        unfold varintLen
        split_ifs <;> omega
      simp only [bootstrapAckBytes, length_append, length_singleton, length_varint]
      omega
  have hcids : (relayCidsBytes self.relayCids).length ≤ 57 := by
    have hle := self.relayCids.length_le
    have := length_flatMap_bytes_le self.relayCids.cids
    have hlen : varintLen self.relayCids.cids.length = 1 := by
      rw [varintLen, if_pos (hle.trans_lt (by decide))]
    simp only [maxSetupBlocks] at hle
    simp only [relayCidsBytes, length_append, length_varint]
    omega
  simp only [bytes, length_cons, length_append, length_nil, length_varint]
  omega

theorem encode_eq_ok_iff (capacity : Nat) : self.encode capacity = .ok out ↔
      self.Encodable ∧ (setupVersion :: self.bytes).length ≤ capacity ∧ out = setupVersion ::
        self.bytes := by
  have hiff := (self.write_writes capacity).eq_ok_iff out
  have hsize := self.length_bytes_le
  rw [encode_eq]
  constructor
  · intro h
    split at h
    · cases h
    rename_i hzero
    rw [not_or] at hzero
    obtain ⟨written, hwrite, h⟩ := bind_eq_ok.mp h
    split at h
    · cases h
    cases h
    obtain ⟨⟨hid, hsequence, hresult, hack, hcids⟩, hlength, rfl⟩ := hiff.mp hwrite
    exact ⟨⟨⟨hzero.1, hid⟩, ⟨hzero.2, hsequence⟩, hresult, hack, hcids⟩, hlength, rfl⟩
  · rintro ⟨hvalid, hlength, rfl⟩
    have hwrite := hiff.mpr
      ⟨⟨hvalid.transactionId.2, hvalid.sequence.2, hvalid.result, hvalid.bootstrapAck,
        hvalid.relayCids⟩, hlength, rfl⟩
    rw [if_neg (by rw [not_or]; exact ⟨hvalid.transactionId.1, hvalid.sequence.1⟩), hwrite,
      ok_bind, if_neg]
    unfold maxSetupBodyBytes
    omega

theorem encode_ne_full (hcapacity : 223 ≤ capacity) :
    self.encode capacity ≠ .error .bufferTooSmall := by
  have hroom := (self.write_writes capacity).room []
    (by simpa using self.length_bytes_le.trans hcapacity)
  rw [encode_eq]
  split
  · simp
  cases hwrite : self.write capacity [] with
  | error e =>
    rw [hwrite] at hroom
    simpa using hroom
  | ok out =>
    simp only [ok_bind]
    split <;> simp

/-- The two buffers on the way to a packet: the array for the body is never the one that is too
small. -/
theorem encodePacket_ne_full (hcapacity : 239 ≤ capacity) :
    self.encodePacket capacity ≠ .error .bufferTooSmall := by
  unfold encodePacket
  cases hbody : self.encode defaultSetupReplyBytes with
  | error e =>
    have := self.encode_ne_full (by decide : 223 ≤ defaultSetupReplyBytes)
    rw [hbody] at this
    simpa using this
  | ok body =>
  obtain ⟨-, -, rfl⟩ := (self.encode_eq_ok_iff _).mp hbody
  have hsize := self.length_bytes_le
  have hok := @encodeLongPacket_eq_ok ⟨longPacketPathOpenAck, dmeshLongHeaderVersion, none,
    none, 0, 1⟩
    ⟨by decide, rfl, by decide, by decide⟩ (setupVersion :: self.bytes) (by simp)
    (by unfold varintBound; simp only; omega) capacity ?_
  · simp only at hok
    simp [hok]
  simp only [LongHeader.need, length_longStart, length_longCid, length_longToken, Option.map_none,
    Option.getD_none]
  rw [if_neg (by decide)]
  omega

theorem takeResult_bytes {result : SetupResult} (h : result.Valid) (rest : Bytes) :
    takeResult (resultBytes result ++ rest) = .ok (result, rest) := by
  cases result with
  | accepted endpointCid leaseUs =>
    obtain ⟨⟨hcid, hlease⟩, hbound⟩ := h
    simp only [takeResult, resultBytes, cons_append, nil_append, append_assoc, takeSetupByte_cons,
      ok_bind, takeConnectionId_bytes, takeVarint_varint hbound]
    rw [if_pos trivial, if_neg hcid, if_neg hlease]
  | rejected code =>
    obtain ⟨hcode, hbound⟩ := h
    simp only [takeResult, resultBytes, cons_append, nil_append, takeSetupByte_cons, ok_bind,
      takeVarint_varint hbound]
    rw [if_neg (by decide), if_pos trivial, if_neg hcode]

theorem takeBootstrapAck_bytes (ack : Option SetupBootstrapAck) (rest : Bytes) :
    takeBootstrapAck (bootstrapAckBytes ack ++ rest) = .ok (ack, rest) := by
  cases ack with
  | none => rfl
  | some ack =>
    have hlen : ack.bytes.length < varintBound := ack.length_le.trans_lt (by decide)
    simp only [takeBootstrapAck, bootstrapAckBytes, cons_append, nil_append, append_assoc,
      takeSetupByte_cons, ok_bind, takeVarint_varint hlen, take_left, drop_left,
        SetupBootstrapAck.fromSlice]
    rw [if_neg (by decide), if_pos trivial, if_neg (by rw [length_append]; omega),
      dif_pos ⟨ack.nonempty, ack.length_le⟩]
    rfl

theorem takeConnectionIds_bytes {cids : List ConnectionId} (h : ∀ cid ∈ cids, cid.value ≠ 0)
    (rest : Bytes) :
    takeConnectionIds cids.length (cids.flatMap ConnectionId.bytes ++ rest) = .ok (cids, rest) := by
  induction cids with
  | nil => rfl
  | cons cid cids ih =>
    rw [forall_mem_cons] at h
    simp only [length_cons, takeConnectionIds, flatMap_cons, append_assoc, takeConnectionId_bytes,
      ok_bind, ih h.2]
    rw [if_neg h.1]

theorem decode_relayCidsBytes (relayCids : SetupRelayCids) (rest : Bytes) :
    SetupRelayCids.decode (relayCidsBytes relayCids ++ rest) = .ok (relayCids, rest) := by
  have hlen : relayCids.cids.length < varintBound := relayCids.length_le.trans_lt (by decide)
  simp only [SetupRelayCids.decode, relayCidsBytes, append_assoc, takeVarint_varint hlen, ok_bind,
    takeConnectionIds_bytes relayCids.nonzero]
  rw [if_neg (not_lt.mpr relayCids.length_le), dif_pos ⟨relayCids.length_le, relayCids.nonzero⟩]

theorem decode_bytes {self : SetupReply} (h : self.Encodable) :
    SetupReply.decode (setupVersion :: self.bytes) = .ok self := by
  have hsize := self.length_bytes_le
  have hcids := decode_relayCidsBytes self.relayCids []
  rw [append_nil] at hcids
  unfold SetupReply.decode
  simp only
  rw [if_neg (by unfold maxSetupBodyBytes; simp only [not_or, not_not, and_true]; omega)]
  simp only [bytes, takeVarint_varint h.transactionId.2, ok_bind, cons_append, nil_append,
    takeSetupByte_cons, Role.ofByte_byte, takeVarint_varint h.sequence.2, takeResult_bytes h.result,
      takeBootstrapAck_bytes,
    hcids]
  rw [if_neg, if_neg]
  · simp [h.transactionId.1, h.sequence.1]
  · rintro ⟨hrejected, hne⟩
    exact hne (h.relayCids hrejected)
  rintro ⟨hrejected, hsome⟩
  rw [h.bootstrapAck hrejected] at hsome
  cases hsome

end SetupReply

/-! ## The whole -/

/-- Every request and reply that can be written is read back, no reply is too large for the array it
goes through, and a request that relays pass on arrives with the fields it had and the blocks that
are left, exactly if no relay gives zero for its reverse id. -/
theorem setup_messages_survive (request : SetupRequest) (reply : SetupReply) (input : Bytes)
    (capacity : Nat) (reverses : List (Option ConnectionId)) :
    (∀ out, request.encode capacity = .ok out → ∃ view, SetupRequest.decode out = .ok view ∧
      view.Reads request) ∧
    (∀ out, reply.encode capacity = .ok out →
      SetupReply.decode out = .ok reply ∧ reply.encode defaultSetupReplyBytes = .ok out) ∧
    (239 ≤ capacity → reply.encodePacket capacity ≠ .error .bufferTooSmall) ∧
    ∀ view, SetupRequest.decode input = .ok view →
      (view.routeMode ≠ .telescoping → input.length ≤ capacity →
        reverses.length < view.blocks.count →
        (∀ index < reverses.length, view.RelayAt index) →
        (Arrives input capacity reverses (view.Advanced reverses) ↔
          ∀ reverse ∈ reverses, ¬ IsZeroCid reverse)) ∧
      (view.routeMode = .telescoping →
        ∀ out, passOn capacity input reverses = .ok out →
        ((∃ after, SetupRequest.decode out = .ok after ∧
          after.toSetupHead = view.headAfter reverses ∧
            after.blocks = view.blocks) ↔ ∀ reverse ∈ reverses, ¬ IsZeroCid reverse)) ∧
      (view.routeMode = .telescoping → input.length + 8 ≤ capacity →
        input.length + 8 ≤ maxSetupBodyBytes →
        view.RelayAt 0 → (∀ reverse ∈ reverses, ¬ IsZeroCid reverse) →
        ∃ out, passOn capacity input reverses = .ok out) := by
  refine ⟨fun out h => decode_encode h, ?_, reply.encodePacket_ne_full, ?_⟩
  · intro out h
    obtain ⟨hvalid, -, rfl⟩ := (reply.encode_eq_ok_iff capacity).mp h
    refine ⟨SetupReply.decode_bytes hvalid, (reply.encode_eq_ok_iff _).mpr ⟨hvalid, ?_, rfl⟩⟩
    exact reply.length_bytes_le.trans (by decide)
  intro view hdecode
  refine ⟨?_, ?_, ?_⟩
  · intro hroute hcapacity hhops hrelays
    constructor
    · rintro ⟨out, after, hpass, hafter, -⟩
      exact nonzero_of_passOn hpass hafter
    · exact arrives_advanced hdecode hroute hcapacity hhops hrelays
  · intro hroute out hpass
    constructor
    · rintro ⟨after, hafter, -⟩
      exact nonzero_of_passOn hpass hafter
    · exact telescoping_keeps hdecode hroute hpass
  · intro hroute hcapacity hbody hrelay
    obtain ⟨-, -, hsize⟩ := decode_ok hdecode
    have := view.bareLength_le
    exact telescoping_passes hdecode hroute hrelay (by omega) (by omega)

/-- A request with one relay on its way, and the endpoint's block behind it. -/
def relayedBlocks : Bytes := [1, 1, 0, 5, 1, 1, 5, 10, 10] ++ [2, 1, 0, 1, 0xaa]

def relayedWire : Bytes := [2, 7, 0, 0, 0, 9, 0, 0, 2] ++ relayedBlocks

def relayedView : SetupRequestView :=
  ⟨⟨7, .create, .layered, ⟨.client, 9⟩, none, none⟩, 2, ⟨relayedBlocks, 2⟩, relayedWire⟩

theorem relayedView_relayAt : ∀ index < 1, relayedView.RelayAt index := by
  intro index hindex
  obtain rfl : index = 0 := by omega
  exact ⟨⟨1, 1, 0, [1, 1, 5, 10, 10]⟩, ⟨1, [5], 10, 10⟩, by decide +kernel, by decide +kernel⟩

def relayedCid : ConnectionId := ⟨70, Nat.le_of_ble_eq_true rfl⟩

theorem relayedWire_arrives : Arrives relayedWire maxSetupBodyBytes [some relayedCid]
    (relayedView.Advanced [some relayedCid]) := by
  have hdecode : SetupRequest.decode relayedWire = .ok relayedView := by decide +kernel
  have h := (setup_messages_survive ⟨relayedView.toSetupHead, []⟩ ⟨7, ⟨.client, 9⟩, .rejected 1,
    none, ⟨[], by simp, by simp⟩⟩
    relayedWire maxSetupBodyBytes [some relayedCid]).2.2.2 relayedView hdecode
  refine (h.1 (by decide) (by decide) (by decide) relayedView_relayAt).mpr ?_
  simp [IsZeroCid, relayedCid]

/-- A relay that gives zero for its reverse id sends the next one a request that it cannot read. -/
theorem zero_reverse_cid_lost : ¬ ∀ (input : Bytes) (view : SetupRequestView) (capacity : Nat)
      (reverses : List (Option ConnectionId)),
      SetupRequest.decode input = .ok view → view.routeMode ≠ .telescoping →
        input.length ≤ capacity →
      reverses.length < view.blocks.count → (∀ index < reverses.length, view.RelayAt index) →
      Arrives input capacity reverses (view.Advanced reverses) := by
  intro h
  obtain ⟨out, after, hpass, hafter, -⟩ :=
    h relayedWire relayedView maxSetupBodyBytes [some ⟨0, zero_le _⟩]
    (by decide +kernel) (by decide) (by decide) (by decide) relayedView_relayAt
  exact nonzero_of_passOn hpass hafter _ (mem_singleton_self _) ⟨_, rfl, rfl⟩

end QuicLite
