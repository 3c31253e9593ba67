import QuicLite.Nan.Service

/-!
# Service queries of Wi-Fi Direct

A peer asks for the DMesh service in a GAS request with a DNS-SD query, four lengths deep. A filter
decides in the radio callback whether a frame is such a request, the responder parses the frame
again for its answer. Each has its own shortest lengths.
-/

namespace QuicLite.Nan.P2p

open Attributes List

variable {bytes content : Bytes} {start : Nat} {asked : Asked}

inductive P2pError where
  | outputTooSmall
  | malformed

def p2pOuiType : Bytes := [0x50, 0x6f, 0x9a, 0x09]
def publicActionCategory : UInt8 := 4
def gasInitialRequest : UInt8 := 10
def gasInitialResponse : UInt8 := 11
def anqpVendorSpecific : Nat := 0xdddd
def p2pServiceProtocolBonjour : UInt8 := 1
def dnsSdTxtType : Bytes := [0, 16, 1]

/-- `b"dmesh"` -/
def dmesh : Bytes := [0x64, 0x6d, 0x65, 0x73, 0x68]

/-- `u16::from_le_bytes([bytes[start], bytes[start + 1]])` -/
def u16At (bytes : Bytes) (start : Nat) : Nat :=
  ofLe16 (bytes.getD start 0) (bytes.getD (start + 1) 0)

/-- `bytes.get(start..)` -/
def tail (bytes : Bytes) (start : Nat) : Option Bytes :=
  if start ≤ bytes.length then some (bytes.drop start) else none

/-- `bytes.get(start..start + len)` with the length in the two bytes before `start`. -/
def counted (bytes : Bytes) (start : Nat) : Option Bytes :=
  range bytes start (u16At bytes (start - 2))

/-- The public action of a GAS request. -/
def IsAction (body : Bytes) : Prop :=
  9 ≤ body.length ∧ body.take 2 = [publicActionCategory, gasInitialRequest] ∧
    (body.drop 3).take 4 = [108, 2, 0, 0]

/-- The query is for TXT records and has the name in it. -/
def IsTextQuery (dns : Bytes) : Prop := dnsSdTxtType <:+ dns ∧ dmesh <:+: dns

instance (body : Bytes) : Decidable (IsAction body) := inferInstanceAs (Decidable (_ ∧ _))

instance (dns : Bytes) : Decidable (IsTextQuery dns) := inferInstanceAs (Decidable (_ ∧ _))

/-- The levels down to the vendor element, which the filter and the responder read alike, with the
dialog token. -/
def vendorElement (request : Bytes) : Option (UInt8 × Bytes) := do
  let body ← tail request frameData
  guard (IsAction body)
  let query ← counted body 9
  guard (10 ≤ query.length ∧ u16At query 0 = anqpVendorSpecific)
  let vendor ← counted query 4
  return (body.getD 2 0, vendor)

/-! ## The filter -/

def isDmeshDnsSdRequest (request : Bytes) : Bool := Option.isSome do
  let element ← vendorElement request
  let vendor := element.2
  guard (10 ≤ vendor.length ∧ vendor.take 4 = p2pOuiType)
  let service ← counted (vendor.drop 6) 2
  guard (2 ≤ service.length ∧ service.head? = some p2pServiceProtocolBonjour)
  guard (IsTextQuery (service.drop 2))

/-! ## The responder -/

/-- What the responder takes from a request. -/
structure Asked where
  dialogToken : UInt8
  transaction : UInt8
  dnsQuery : Bytes

def parseRequest (request : Bytes) : Option Asked := do
  let (dialogToken, vendor) ← vendorElement request
  guard (8 ≤ vendor.length ∧ vendor.take 4 = p2pOuiType)
  let tlv ← tail vendor 6
  guard (5 ≤ tlv.length)
  let service ← counted tlv 2
  guard (2 ≤ service.length ∧ service.head? = some p2pServiceProtocolBonjour)
  guard (IsTextQuery (service.drop 2))
  return ⟨dialogToken, service.getD 1 0, service.drop 2⟩

/-- `out[at..at + bytes.len()].copy_from_slice(bytes)` -/
def copyAt (out : Bytes) (start : Nat) (bytes : Bytes) : Bytes :=
  out.take start ++ bytes ++ out.drop (start + bytes.length)

/-- One piece after the other, with the length of them all. -/
def write (out : Bytes) (pieces : List Bytes) : Bytes × Nat :=
  pieces.foldl (fun state piece => (copyAt state.1 state.2 piece, state.2 + piece.length)) (out, 0)

/-- One complete TXT item. -/
abbrev TxtItem := { txt : Bytes // txt ≠ [] ∧ txt.length ≤ 255 }

section

variable (asked : Asked) (txt : Bytes)

def serviceResponseLen : Nat := 3 + asked.dnsQuery.length + 1 + txt.length
def vendorResponseLen : Nat := 4 + 2 + 2 + serviceResponseLen asked txt
def queryResponseLen : Nat := 4 + vendorResponseLen asked txt

/-- What is copied into the output, in this order. -/
def responsePieces : List Bytes :=
  [[4, gasInitialResponse, asked.dialogToken, 0, 0, 0, 0], [108, 2, 0, 0],
    le16 (queryResponseLen asked txt), le16 anqpVendorSpecific, le16 (vendorResponseLen asked txt),
    p2pOuiType, le16 1, le16 (serviceResponseLen asked txt), [p2pServiceProtocolBonjour,
    asked.transaction, 0], asked.dnsQuery, [UInt8.ofNat txt.length], txt]

end

def encodeDmeshDnsSdGasInitialResponse (out request txt : Bytes) : Except P2pError (Bytes × Nat) :=
  if txt = [] ∨ 255 < txt.length then .error .malformed
  else match parseRequest request with
  | none => .error .malformed
  | some asked =>
    if out.length < 13 + queryResponseLen asked txt ∨ 65535 < queryResponseLen asked txt then
      .error .outputTooSmall
    else .ok (write out (responsePieces asked txt))

/-! ## The request -/

def dmeshDnsSdQuery : Bytes :=
  [0xdd, 0xdd, 0x1c, 0, 0x50, 0x6f, 0x9a, 0x09, 5, 0, 0x14, 0, 1, 2, 5] ++ dmesh ++ [6, 0x5f] ++
    dmesh ++
    [0xc0, 0x0c, 0, 0x10, 1]

def encodeDmeshDnsSdGasInitialRequest (out : Bytes) (dialogToken : UInt8) :
    Except P2pError (Bytes × Nat) :=
  if out.length < 9 + dmeshDnsSdQuery.length then .error .outputTooSmall
  else
    let out := copyAt out 0 [publicActionCategory, gasInitialRequest, dialogToken, 108, 2, 0,
      0, 0, 0]
    let out := copyAt out 7 (le16 dmeshDnsSdQuery.length)
    .ok (copyAt out 9 dmeshDnsSdQuery, 9 + dmeshDnsSdQuery.length)

/-! ## What both accept -/

/-- The request asks for the service, whatever the shortest lengths. -/
def Asks (request : Bytes) (asked : Asked) : Prop :=
  ∃ body query vendor, tail request frameData = some body ∧ IsAction body ∧
    body.getD 2 0 = asked.dialogToken ∧
    counted body 9 = some query ∧ u16At query 0 = anqpVendorSpecific ∧
      counted query 4 = some vendor ∧
    vendor.take 4 = p2pOuiType ∧ IsTextQuery asked.dnsQuery ∧
    counted (vendor.drop 6) 2 =
      some (p2pServiceProtocolBonjour :: asked.transaction :: asked.dnsQuery)

theorem guard_eq_some {p : Prop} [Decidable p] {u : Unit} : guard p = some u ↔ p := by
  unfold guard
  split <;> simp [*, failure]

theorem tail_eq_some {rest : Bytes} :
    tail bytes start = some rest ↔ start ≤ bytes.length ∧ rest = bytes.drop start := by
  unfold tail
  split <;> simp [*, eq_comm]

theorem length_counted (h : counted bytes start = some content) :
    start + content.length ≤ bytes.length := by
  unfold counted range at h
  split at h
  · cases h
    rw [length_take, length_drop]
    omega
  · cases h

variable {request : Bytes}

/-- The shortest lengths make no difference: a service with the name in it is longer than all of
them. -/
theorem isDmeshDnsSdRequest_iff : isDmeshDnsSdRequest request = true ↔
    ∃ asked, parseRequest request = some asked := by
  simp only [isDmeshDnsSdRequest, parseRequest, Option.isSome_iff_exists, Option.bind_eq_bind,
    Option.bind_eq_some_iff, guard_eq_some, tail_eq_some]
  have hlong : ∀ {vendor service : Bytes}, counted (vendor.drop 6) 2 = some service →
      IsTextQuery (service.drop 2) →
      15 ≤ vendor.length := by
    intro vendor service hservice htext
    have hcounted := length_counted hservice
    have hname : 5 ≤ (service.drop 2).length := htext.2.length_le
    rw [length_drop] at hcounted hname
    omega
  constructor
  · rintro ⟨u, ⟨token, vendor⟩, helement, u, ⟨-, houi⟩, service, hservice, u, hbonjour, htext⟩
    have hlen := hlong hservice htext
    exact ⟨_, _, helement, u, ⟨by omega, houi⟩, _, ⟨by omega, rfl⟩, u, by rw [length_drop]; omega,
      service, hservice,
      u, hbonjour, u, htext, rfl⟩
  · rintro ⟨asked, ⟨token, vendor⟩, helement, u, ⟨-, houi⟩, _, ⟨-, rfl⟩, -, -, service, hservice, -,
      hbonjour, -, htext, -⟩
    have hlen := hlong hservice htext
    exact ⟨u, _, helement, u, ⟨by omega, houi⟩, service, hservice, u, hbonjour, htext⟩

theorem asks_of_parseRequest (h : parseRequest request = some asked) : Asks request asked := by
  simp only [parseRequest, vendorElement, Option.bind_eq_bind, Option.bind_eq_some_iff,
    guard_eq_some, tail_eq_some] at h
  obtain ⟨_, ⟨body, hbody, -, haction, query, hquery, -, ⟨-, hanqp⟩, vendor, hvendor, helement⟩, -,
      ⟨-, houi⟩, _, ⟨-, rfl⟩, -, -, service, hservice, -, ⟨hlen, hbonjour⟩, -, htext, hasked⟩ := h
  cases helement
  cases hasked
  refine ⟨body, query, vendor, tail_eq_some.mpr hbody, haction, rfl, hquery, hanqp, hvendor, houi,
    htext, ?_⟩
  rw [hservice]
  rcases service with _ | ⟨first, _ | ⟨second, rest⟩⟩
  · cases hbonjour
  · simp at hlen
  · cases hbonjour
    rfl

/-! ## What is answered -/

/-- A length of two bytes, and so many bytes. -/
def Counted (bytes content : Bytes) : Prop :=
  ∃ low high, bytes = low :: high :: content ∧ ofLe16 low high = content.length

/-- The answer to a request, with all its lengths. -/
def Answers (asked : Asked) (txt response : Bytes) : Prop :=
  ∃ query vendor service len,
    response = [4, gasInitialResponse, asked.dialogToken, 0, 0, 0, 0, 108, 2, 0, 0] ++ query ∧
    Counted query (le16 anqpVendorSpecific ++ vendor) ∧
      Counted vendor (p2pOuiType ++ [1, 0] ++ service) ∧
    Counted service ([p2pServiceProtocolBonjour, asked.transaction, 0] ++ asked.dnsQuery ++
      len :: txt) ∧
    len.toNat = txt.length

theorem counted_le16 {n : Nat} (hn : n = content.length) (h : n ≤ 65535) :
    Counted (le16 n ++ content) content :=
  ⟨_, _, rfl, hn ▸ ofLe16_le16 (by omega)⟩

theorem write_eq (out : Bytes) (pieces : List Bytes) :
    write out pieces = (pieces.flatten ++ out.drop pieces.flatten.length,
      pieces.flatten.length) := by
  have hfold : ∀ (pieces : List Bytes) (done rest : Bytes),
      pieces.foldl (fun state piece => (copyAt state.1 state.2 piece, state.2 + piece.length))
        (done ++ rest, done.length) =
        (done ++ pieces.flatten ++ rest.drop pieces.flatten.length,
          done.length + pieces.flatten.length) := by
    intro pieces
    induction pieces with
    | nil => simp
    | cons piece pieces ih =>
      intro done rest
      have hcopy : copyAt (done ++ rest) done.length piece = done ++ piece ++
          rest.drop piece.length := by
        rw [copyAt, take_left, drop_append, drop_eq_nil_of_le (by omega), Nat.add_sub_cancel_left,
          nil_append]
      rw [foldl_cons, hcopy, ← length_append, ih]
      simp [Nat.add_assoc]
  simpa [write] using hfold pieces [] out

variable {txt : Bytes}

theorem encodeResponse_ok_iff (htxt : txt ≠ [] ∧ txt.length ≤ 255) {out : Bytes}
    {result : Bytes × Nat} : encodeDmeshDnsSdGasInitialResponse out request txt = .ok result ↔
      ∃ asked, parseRequest request = some asked ∧
      (13 + queryResponseLen asked txt ≤ out.length ∧ queryResponseLen asked txt ≤ 65535) ∧
      write out (responsePieces asked txt) = result := by
  rw [encodeDmeshDnsSdGasInitialResponse, if_neg (by simpa [not_or] using htxt)]
  cases parseRequest request with
  | none => simp
  | some asked =>
    by_cases hroom : out.length < 13 + queryResponseLen asked txt ∨
      65535 < queryResponseLen asked txt
    · simp [hroom]
      omega
    · simp [hroom]
      omega

theorem length_responsePieces (asked : Asked) (txt : Bytes) :
    (responsePieces asked txt).flatten.length = 13 + queryResponseLen asked txt := by
  simp [responsePieces, queryResponseLen, vendorResponseLen, serviceResponseLen, p2pOuiType]
  omega

theorem answers_responsePieces (htxt : txt.length ≤ 255)
    (hfits : queryResponseLen asked txt ≤ 65535) :
    Answers asked txt (responsePieces asked txt).flatten := by
  have hquery : queryResponseLen asked txt = 4 + vendorResponseLen asked txt := rfl
  have hvendor : vendorResponseLen asked txt = 4 + 2 + 2 + serviceResponseLen asked txt := rfl
  have hservice : serviceResponseLen asked txt = 3 + asked.dnsQuery.length + 1 + txt.length := rfl
  refine ⟨_, _, _, UInt8.ofNat txt.length, ?_,
    counted_le16 (n := queryResponseLen asked txt) ?_ hfits,
    counted_le16 (n := vendorResponseLen asked txt) ?_ (by omega),
    counted_le16 (n := serviceResponseLen asked txt) ?_ (by omega), ?_⟩
  · simp [responsePieces, show le16 1 = [1, 0] from rfl]
  · simp [p2pOuiType]
    omega
  · simp [p2pOuiType]
    omega
  · simp
    omega
  · rw [UInt8.toNat_ofNat']
    omega

/-- Wherever the length of the answer can be written, the filter and the responder accept the same
requests; the answer says what was asked and how long it is; and the requests of this device are
among those accepted. -/
structure Agrees (request txt : Bytes) : Prop where
  same : ∀ out : Bytes, 70000 ≤ out.length →
    (∀ asked, Asks request asked → queryResponseLen asked txt ≤ 65535) →
    (isDmeshDnsSdRequest request = true ↔
      ∃ result, encodeDmeshDnsSdGasInitialResponse out request txt = .ok result)
  answered : ∀ out result, encodeDmeshDnsSdGasInitialResponse out request txt = .ok result →
    ∃ asked,
    Asks request asked ∧ Answers asked txt (result.1.take result.2) ∧
      result.1.drop result.2 = out.drop result.2 ∧
      result.1.length = out.length
  built : ∀ (header : List.Vector UInt8 frameData) (out : Bytes) (dialogToken : UInt8),
    41 ≤ out.length →
    ∃ result, encodeDmeshDnsSdGasInitialRequest out dialogToken = .ok result ∧
      isDmeshDnsSdRequest (header.toList ++ result.1.take result.2) = true

theorem filter_responder_agree (request : Bytes) (txt : TxtItem) : Agrees request txt.val where
  same := by
    intro out hout hfits
    rw [isDmeshDnsSdRequest_iff]
    simp only [encodeResponse_ok_iff txt.property]
    constructor
    · rintro ⟨asked, hasked⟩
      have hlen := hfits asked (asks_of_parseRequest hasked)
      exact ⟨_, asked, hasked, ⟨by omega, hlen⟩, rfl⟩
    · rintro ⟨result, asked, hasked, -⟩
      exact ⟨asked, hasked⟩
  answered := by
    intro out result h
    obtain ⟨asked, hasked, ⟨hroom, hfits⟩, rfl⟩ := (encodeResponse_ok_iff txt.property).mp h
    have hlen := length_responsePieces asked txt.val
    rw [write_eq]
    refine ⟨asked, asks_of_parseRequest hasked, ?_, drop_left, ?_⟩
    · rw [take_left]
      exact answers_responsePieces txt.property.2 hfits
    · rw [length_append, length_drop]
      omega
  built := by
    intro header out dialogToken hout
    refine ⟨_, if_neg (not_lt.mpr hout), ?_⟩
    let body := [publicActionCategory, gasInitialRequest, dialogToken, 108, 2, 0, 0, 32, 0] ++
      dmeshDnsSdQuery
    have htail : tail (header.toList ++ body) frameData = some body :=
      tail_eq_some.mpr ⟨by simp, (drop_left' header.toList_length).symm⟩
    show isDmeshDnsSdRequest (header.toList ++ body) = true
    simp only [isDmeshDnsSdRequest, vendorElement, Option.isSome_iff_exists, Option.bind_eq_bind,
      Option.bind_eq_some_iff, guard_eq_some]
    have haction : IsAction body := ⟨by simp [body, dmeshDnsSdQuery], rfl, rfl⟩
    have houi : 10 ≤ (dmeshDnsSdQuery.drop 4).length ∧ (dmeshDnsSdQuery.drop 4).take 4 =
        p2pOuiType := by decide
    have hvendor : counted dmeshDnsSdQuery 4 = some (dmeshDnsSdQuery.drop 4) := rfl
    have hservice : counted ((dmeshDnsSdQuery.drop 4).drop 6) 2 = some (dmeshDnsSdQuery.drop 12) :=
      rfl
    exact ⟨(), (dialogToken, _),
      ⟨body, htail, (), haction, dmeshDnsSdQuery, rfl, (), by decide, _, hvendor, rfl⟩, (), houi,
      _, hservice, (), by decide, by decide⟩

end QuicLite.Nan.P2p
