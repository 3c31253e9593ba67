import QuicLite.Nan.Service

/-!
# Frames and their parsers

`Part` is what a frame of this node carries, `Part.written` the attributes that the builder writes
for it and `Part.requested` those that it was asked for. Phones put several parts in one frame: the
parsers are followed over the attributes of a list of parts, one part at a time.
-/

namespace QuicLite.Nan

open Attributes List Option Nat Attribute

/-! ## Parts -/

variable {info : Bytes}

inductive Part
  | publish (serviceId : MacAddr) (instanceId : UInt8) (info : Bytes) (update : Option UInt8)
  | subscribe (serviceId : MacAddr) (instanceId control : UInt8) (info : Bytes)
  | followup (serviceId : MacAddr) (instanceId requestorInstance : UInt8) (payload : Bytes)

namespace Part

def serviceId : Part → MacAddr
  | .publish serviceId _ _ _ => serviceId
  | .subscribe serviceId _ _ _ => serviceId
  | .followup serviceId _ _ _ => serviceId

def instanceId : Part → UInt8
  | .publish _ instanceId _ _ => instanceId
  | .subscribe _ instanceId _ _ => instanceId
  | .followup _ instanceId _ _ => instanceId

/-- The frame that carries the part alone. -/
def frame (destination source bssid : MacAddr) : Part → Bytes
  | .publish serviceId instanceId info none =>
    buildNanPublishSdf destination source bssid serviceId instanceId info
  | .publish serviceId instanceId info (some update) =>
    buildNanPublishSdfWithSdea destination source bssid serviceId instanceId info (some update)
  | .subscribe serviceId instanceId control info =>
    buildNanUsdSdfWithBssid destination source bssid serviceId instanceId control info
  | .followup serviceId instanceId requestorInstance payload =>
    buildNanFollowupSdfForRequestor destination source bssid serviceId instanceId
      requestorInstance payload

/-- What the builders take whole. -/
def Valid : Part → Prop
  | .publish _ _ info _ => 1 ≤ info.length ∧ info.length ≤ 255
  | .subscribe _ _ control info => 0x10 ≤ control ∧ control ≤ 0x12 ∧ info.length ≤ 231
  | .followup _ _ _ payload => payload.length ≤ 255

instance : DecidablePred Valid
  | .publish _ _ info _ => inferInstanceAs (Decidable (1 ≤ info.length ∧ info.length ≤ 255))
  | .subscribe _ _ control info =>
    inferInstanceAs (Decidable (0x10 ≤ control ∧ control ≤ 0x12 ∧ info.length ≤ 231))
  | .followup _ _ _ payload => inferInstanceAs (Decidable (payload.length ≤ 255))

/-- The service descriptor attribute, with some bytes behind its information. -/
def sda (after : Bytes) : Part → Attribute
  | .publish serviceId instanceId info _ =>
    ⟨0x03, serviceId.toList ++ [instanceId, 0, 0x10, UInt8.ofNat info.length] ++ info ++ after⟩
  | .subscribe serviceId instanceId control _ =>
    ⟨0x03, serviceId.toList ++ [instanceId, 0, control] ++ after⟩
  | .followup serviceId instanceId requestorInstance _ =>
    ⟨0x03, serviceId.toList ++ [instanceId, requestorInstance, 0x02] ++ after⟩

/-- The service descriptor extension attribute, where there is one. -/
def sdea : Part → Option Attribute
  | .publish _ instanceId _ update => update.map fun update =>
    ⟨0x0e, [instanceId, 0x00, 0x02, update]⟩
  | .subscribe _ instanceId _ info =>
    some ⟨0x0e, [instanceId, 0, 0, 0, 4] ++ le16 (4 + info.length) ++ [0x50, 0x6f, 0x9a, 0x00] ++
      info⟩
  | .followup _ instanceId _ payload =>
    some ⟨0x0e, [instanceId, 0, 0] ++ le16 (4 + payload.length) ++ [0x50, 0x6f, 0x9a, 0x02] ++
      payload⟩

/-- The attributes that were asked for: a descriptor, and a separate extension. -/
def requested (p : Part) : List Attribute := p.sda [] :: p.sdea.toList

/-- The attributes that are written. The extension of a publish is inside its descriptor. -/
def written : Part → List Attribute
  | .publish serviceId instanceId info update =>
    [(Part.publish serviceId instanceId info update).sda
      (((Part.publish serviceId instanceId info update).sdea.map encode).getD [])]
  | p => p.requested

/-- The descriptor that receivers are to see. -/
def descriptor : Part → NamedServiceDescriptor
  | .publish serviceId instanceId info _ => ⟨serviceId, ⟨instanceId, 0, 0x10, info⟩⟩
  | .subscribe serviceId instanceId control _ => ⟨serviceId, ⟨instanceId, 0, control, []⟩⟩
  | .followup serviceId instanceId requestorInstance _ =>
    ⟨serviceId, ⟨instanceId, requestorInstance, 0x02, []⟩⟩

/-- The update that a publish asks an extension for. -/
def update : Part → Option UInt8
  | .publish _ _ _ update => update
  | _ => none

/-- The payload of a follow-up. -/
def followupPayload : Part → Option Bytes
  | .followup _ _ _ payload => some payload
  | _ => none

/-- The instance and the information of a subscribe. -/
def subscribeInfo : Part → Option ActiveSubscribeServiceInfo
  | .subscribe _ instanceId _ info => some ⟨instanceId, 0, info⟩
  | _ => none

/-- The extension of a subscribe, and that of a follow-up. -/
abbrev subscribeBody (instanceId : UInt8) (info : Bytes) : Bytes :=
  [instanceId, 0, 0, 0, 4] ++ le16 (4 + info.length) ++ [0x50, 0x6f, 0x9a, 0x00] ++ info

abbrev followupBody (instanceId : UInt8) (payload : Bytes) : Bytes :=
  [instanceId, 0, 0] ++ le16 (4 + payload.length) ++ [0x50, 0x6f, 0x9a, 0x02] ++ payload

theorem length_subscribeBody (instanceId : UInt8) (info : Bytes) :
    (subscribeBody instanceId info).length = 11 + info.length := by
  simp
  omega

variable (serviceId : MacAddr)

theorem written_subscribe (instanceId control : UInt8) (info : Bytes) :
    (Part.subscribe serviceId instanceId control info).written =
      [⟨0x03, serviceId.toList ++ [instanceId, 0, control]⟩,
        ⟨0x0e, subscribeBody instanceId info⟩] := by
  simp [written, requested, sda, sdea]

theorem written_followup (instanceId requestorInstance : UInt8) (payload : Bytes) :
    (Part.followup serviceId instanceId requestorInstance payload).written =
      [⟨0x03, serviceId.toList ++ [instanceId, requestorInstance, 0x02]⟩,
        ⟨0x0e, followupBody instanceId payload⟩] := by
  simp [written, requested, sda, sdea]

/-- The descriptor of a publish is all there is. -/
theorem written_publish (instanceId : UInt8) (info : Bytes) (update : Option UInt8) :
    ∃ after, (Part.publish serviceId instanceId info update).written =
      [⟨0x03, serviceId.toList ++ [instanceId, 0, 0x10, UInt8.ofNat info.length] ++ info ++
        after⟩] :=
  ⟨_, rfl⟩

end Part

open QuicLite.Nan.Part

/-- Several parts in one frame: a header and the attributes of each. -/
def coalesce (destination source bssid : MacAddr) (parts : List Part) : Bytes :=
  sdfHeader destination source bssid ++ parts.flatMap fun p =>
    (p.frame destination source bssid).drop nanActionStart

section Written

variable {destination source bssid : MacAddr} {p : Part}

theorem length_sdfHeader (destination source bssid : MacAddr) :
    (sdfHeader destination source bssid).length = 30 := by
  simp [sdfHeader]

theorem take_of_valid {n : Nat} (h : info.length ≤ n) : info.take n = info := take_of_length_le h

/-- Every builder writes the header and the attributes of its part. -/
theorem frame_eq (hp : p.Valid) (destination source bssid : MacAddr) :
    p.frame destination source bssid = sdfHeader destination source bssid ++
      p.written.flatMap encode := by
  cases p with
  | publish serviceId instanceId info update =>
    have hinfo := take_of_valid hp.2
    cases update with
    | none =>
      have hlength : 6 + (info.length + 1 + 1 + 1 + 1) = 10 + info.length := by omega
      simp [frame, buildNanPublishSdf, buildNanPublishSdfWithSdea, hinfo, written,
        sda, sdea, encode, hlength]
    | some update =>
      have hlength : 6 + (info.length + (2 + 4 + 1) + 1 + 1 + 1 + 1) = 10 + info.length + 7 := by
        omega
      simp [frame, buildNanPublishSdfWithSdea, hinfo, written, sda, sdea,
        encode, hlength, nanSdeaServiceUpdateControl, show le16 4 = [4, 0] from rfl]
  | subscribe serviceId instanceId control info =>
    have hinfo := take_of_valid hp.2.2
    have hlength : 2 + (info.length + 1 + 1 + 1 + 1) + 1 + 1 + 1 + 1 + 1 = 11 + info.length := by
      omega
    simp [frame, buildNanUsdSdfWithBssid, hinfo, written, requested, sda,
      sdea, encode, hlength]
  | followup serviceId instanceId requestorInstance payload =>
    have hinfo := take_of_valid (show payload.length ≤ 255 from hp)
    have hlength : 2 + (payload.length + 1 + 1 + 1 + 1) + 1 + 1 + 1 = 9 + payload.length := by omega
    simp [frame, buildNanFollowupSdfForRequestor, hinfo, written, requested,
      sda, sdea, encode, hlength, show le16 0 = [0, 0] from rfl]

/-- The attributes of a frame are those written for its parts. -/
theorem length_written {a : Attribute} (hp : p.Valid) (ha : a ∈ p.written) :
    a.body.length < 65536 := by
  cases p with
  | publish serviceId instanceId info update =>
    obtain ⟨-, hinfo⟩ := hp
    cases update with
    | none =>
      obtain rfl := mem_singleton.mp ha
      simp [sda, sdea]
      omega
    | some update =>
      obtain rfl := mem_singleton.mp ha
      simp [sda, sdea, encode]
      omega
  | subscribe serviceId instanceId control info =>
    obtain ⟨-, -, hinfo⟩ := hp
    simp only [written, requested, sdea, toList_some, mem_cons, not_mem_nil,
      or_false] at ha
    rcases ha with rfl | rfl
    · simp [sda]
    · simp
      omega
  | followup serviceId instanceId requestorInstance payload =>
    have hinfo : payload.length ≤ 255 := hp
    simp only [written, requested, sdea, toList_some, mem_cons, not_mem_nil,
      or_false] at ha
    rcases ha with rfl | rfl
    · simp [sda]
    · simp
      omega

theorem drop_sdfHeader (destination source bssid : MacAddr) (rest : Bytes) :
    (sdfHeader destination source bssid ++ rest).drop nanActionStart = rest :=
  drop_left' (length_sdfHeader destination source bssid)

section

variable {parts : List Part} (hp : ∀ p ∈ parts, p.Valid)
include hp

theorem coalesce_eq (destination source bssid : MacAddr) : coalesce destination source bssid parts =
      sdfHeader destination source bssid ++
        (parts.flatMap written).flatMap encode := by
  rw [flatMap_assoc]
  refine congrArg _ (flatMap_congr fun p hmem => ?_)
  rw [frame_eq (hp p hmem), drop_sdfHeader]

theorem attributes_coalesce (destination source bssid : MacAddr) :
    attributes ((coalesce destination source bssid parts).drop nanActionStart) =
      parts.flatMap written := by
  rw [coalesce_eq hp, drop_sdfHeader]
  refine attributes_flatMap fun a ha => ?_
  obtain ⟨p, hmem, ha⟩ := mem_flatMap.mp ha
  exact length_written (hp p hmem) ha

theorem isNanSdf_coalesce (hne : parts ≠ []) (destination source bssid : MacAddr) :
    isNanSdf (coalesce destination source bssid parts) = true := by
  obtain ⟨p, rest, rfl⟩ := exists_cons_of_ne_nil hne
  have hlength : 0 < ((p :: rest).flatMap written |>.flatMap encode).length := by
    have hwritten : ∃ a more, p.written = a :: more := by
      cases p with
      | publish => exact ⟨_, _, rfl⟩
      | subscribe => exact ⟨_, _, rfl⟩
      | followup => exact ⟨_, _, rfl⟩
    obtain ⟨a, more, hwritten⟩ := hwritten
    rw [flatMap_cons, hwritten, cons_append, flatMap_cons]
    exact lt_of_lt_of_le (succ_pos _) (le_add_right _ _)
  have hheader : sdfHeader destination source bssid =
      ([0xd0, 0x00, 0x00, 0x00] ++ destination.toList ++ source.toList ++
        bssid.toList ++ [0x00, 0x00]) ++
        [0x04, 0x09, 0x50, 0x6f, 0x9a, 0x13] := by
    simp [sdfHeader]
  have hlead : ([0xd0, 0x00, 0x00, 0x00] ++ destination.toList ++ source.toList ++ bssid.toList ++
      [0x00, 0x00] : Bytes).length = 24 := by simp
  rw [coalesce_eq hp]
  unfold isNanSdf
  rw [Bool.and_eq_true, decide_eq_true_eq]
  constructor
  · rw [length_append, length_sdfHeader, nanActionStart]
    omega
  unfold range frameData
  rw [if_pos (by rw [length_append, length_sdfHeader]; omega), hheader, append_assoc,
    drop_left' hlead]
  rfl

end

/-! ## Descriptors -/

variable (serviceId : MacAddr)

theorem take_mac (tail : Bytes) : (serviceId.toList ++ tail).take 6 = serviceId.toList :=
  take_left' serviceId.toList_length

theorem getD_mac (tail : Bytes) (i : Nat) :
    (serviceId.toList ++ tail).getD (6 + i) 0 = tail.getD i 0 := by
  rw [getD_eq_getElem?_getD, getD_eq_getElem?_getD,
    getElem?_append_right (by rw [serviceId.toList_length]; omega), serviceId.toList_length,
      Nat.add_sub_cancel_left]

theorem toMac_toList : toMac serviceId.toList = some serviceId := by
  unfold toMac
  rw [dif_pos serviceId.toList_length]
  rfl

/-- The body of a descriptor, taken apart. -/
theorem serviceDescriptorBody_eq (i r c : UInt8) (rest : Bytes) :
    serviceDescriptorBody (serviceId.toList ++ i :: r :: c :: rest) serviceId =
      if 0x10 ≤ c ∧ c ≤ 0x12 then
        if rest = [] then some ⟨i, r, c, []⟩
        else (range (serviceId.toList ++ i :: r :: c :: rest) 10
          (rest.getD 0 0).toNat).map fun payload => ⟨i, r, c, payload⟩
      else if c ≤ 2 then some ⟨i, r, c, []⟩
      else none := by
  have h6 := getD_mac serviceId (i :: r :: c :: rest) 0
  have h7 := getD_mac serviceId (i :: r :: c :: rest) 1
  have h8 := getD_mac serviceId (i :: r :: c :: rest) 2
  have h9 := getD_mac serviceId (i :: r :: c :: rest) 3
  simp only [add_zero, getD_cons_zero, getD_cons_succ] at h6 h7 h8 h9
  have hlength : (serviceId.toList ++ i :: r :: c :: rest).length = 9 + rest.length := by
    simp
    omega
  have hnine : 9 + rest.length = 9 ↔ rest = [] := by
    rw [← length_eq_zero_iff]
    omega
  unfold serviceDescriptorBody
  rw [hlength, if_neg (by simp), h6, h7, h8, h9]
  simp

theorem namedDescriptor_eq (i r c : UInt8) (rest : Bytes) :
    namedDescriptor ⟨0x03, serviceId.toList ++ i :: r :: c :: rest⟩ =
      (serviceDescriptorBody (serviceId.toList ++ i :: r :: c :: rest) serviceId).map fun d =>
        ⟨serviceId, d⟩ := by
  unfold namedDescriptor
  rw [if_pos ⟨rfl, by simp; omega⟩, take_mac, toMac_toList]
  rfl

/-- Every part has one descriptor, and it is read as it was written. -/
theorem filterMap_written (hp : p.Valid) :
    p.written.filterMap namedDescriptor = [p.descriptor] := by
  have hskip : ∀ body : Bytes, namedDescriptor ⟨0x0e, body⟩ = none := fun body =>
    if_neg fun h => absurd h.1 (show ¬ (0x0e : UInt8) = 0x03 by decide)
  cases p with
  | publish serviceId instanceId info update =>
    have hlength : (UInt8.ofNat info.length).toNat = info.length := by
      rw [UInt8.toNat_ofNat', mod_eq_of_lt (lt_succ_of_le hp.2)]
    have hread : ∀ after : Bytes,
        namedDescriptor ⟨0x03, serviceId.toList ++ [instanceId, 0, 0x10, .ofNat info.length] ++
          info ++ after⟩ =
          some ⟨serviceId, ⟨instanceId, 0, 0x10, info⟩⟩ := by
      intro after
      have hbody : serviceId.toList ++ [instanceId, 0, 0x10, .ofNat info.length] ++ info ++ after =
          serviceId.toList ++ instanceId :: 0 :: 0x10 ::
            (.ofNat info.length :: (info ++ after)) := by simp
      have hten : (serviceId.toList ++ [instanceId, 0, 0x10, .ofNat info.length]).length = 10 := by
        simp
      rw [hbody, namedDescriptor_eq, serviceDescriptorBody_eq, if_pos (by decide), if_neg (by simp),
        getD_cons_zero, hlength, ← hbody, range, if_pos (by simp; omega), append_assoc _ info after,
        drop_left' hten, take_left]
      rfl
    obtain ⟨after, hwritten⟩ := written_publish serviceId instanceId info update
    rw [hwritten, filterMap_cons, hread]
    rfl
  | subscribe serviceId instanceId control info =>
    have hread := namedDescriptor_eq serviceId instanceId 0 control []
    rw [serviceDescriptorBody_eq, if_pos ⟨hp.1, hp.2.1⟩] at hread
    rw [written_subscribe, filterMap_cons, filterMap_cons, hread]
    rfl
  | followup serviceId instanceId requestorInstance payload =>
    have hread := namedDescriptor_eq serviceId instanceId requestorInstance 0x02 []
    rw [serviceDescriptorBody_eq, if_neg (by decide)] at hread
    rw [written_followup, filterMap_cons, filterMap_cons, hread]
    rfl

/-- The descriptors of a frame, in order. -/
theorem serviceDescriptors_coalesce {parts : List Part} (hp : ∀ p ∈ parts, p.Valid)
    (destination source bssid : MacAddr) :
    serviceDescriptors (coalesce destination source bssid parts) = parts.map descriptor := by
  by_cases hne : parts = []
  · rw [hne]
    unfold serviceDescriptors coalesce
    rw [if_neg]
    · rfl
    · simp [isNanSdf, length_sdfHeader, nanActionStart]
  rw [serviceDescriptors, if_pos (isNanSdf_coalesce hp hne destination source bssid),
    attributes_coalesce hp, filterMap_flatMap]
  rw [flatMap_congr fun p hmem => filterMap_written (hp p hmem)]
  exact flatMap_pure_eq_map _ _

end Written

/-! ## Follow-ups -/

section Walks

variable {parts : List Part} {instanceId : UInt8} {front : Bytes} {start : Nat} {i r c : UInt8}

theorem range_append {middle after : Bytes} {len : Nat} (hfront : front.length = start)
    (hmiddle : middle.length = len) :
    range (front ++ (middle ++ after)) start len = some middle := by
  unfold range
  rw [if_pos (by simp; omega), drop_left' hfront, take_left' hmiddle]

theorem range_end {last : Bytes} (hfront : front.length = start) :
    range (front ++ last) start last.length = some last := by
  have h : range (front ++ (last ++ [])) start last.length = some last := range_append hfront rfl
  rwa [append_nil] at h

/-- The extension of a follow-up is read where its instance is asked for. -/
theorem followupExtension_followup {serviceId : MacAddr} {requestorInstance : UInt8}
    {payload : Bytes} (hp : (followup serviceId instanceId requestorInstance payload).Valid)
    (i : UInt8) (rest : List Attribute) :
    followupExtension i ((followup serviceId instanceId requestorInstance payload).written ++
      rest) =
      if instanceId = i then some payload else followupExtension i rest := by
  have hlength : payload.length ≤ 255 := hp
  have hdeclared : ofLe16
      ((followupBody instanceId payload).getD 3 0)
        ((followupBody instanceId payload).getD 4 0) =
        4 + payload.length := ofLe16_le16 (by omega)
  rw [written_followup, cons_append, cons_append, nil_append, followupExtension,
    followupExtension, if_neg (fun h => absurd h.1 (show ¬ (0x03 : UInt8) = 0x0e by decide))]
  have hbody : followupBody instanceId payload =
      [instanceId, 0, 0, .ofNat (4 + payload.length), .ofNat ((4 + payload.length) / 256)] ++
        ([0x50, 0x6f, 0x9a, 0x02] ++ payload) := by simp [le16]
  have hwfa : range (followupBody instanceId payload) 5 4 = some [0x50, 0x6f, 0x9a, 0x02] := by
    rw [hbody]
    exact range_append rfl rfl
  have hpayload : range (followupBody instanceId payload) 9 payload.length = some payload :=
    range_end rfl
  have htotal : (followupBody instanceId payload).length = 9 + payload.length := by
    simp
    omega
  by_cases hi : instanceId = i
  · rw [if_pos ⟨rfl, by rw [htotal]; omega, hi⟩, if_pos hi]
    simp only [hdeclared]
    rw [if_neg (by omega), Nat.add_sub_cancel_left, if_pos ⟨hwfa, htotal.symm⟩, hpayload]
  · rw [if_neg fun h => hi h.2.2, if_neg hi]

/-- The extension of a subscribe declares too much to be one of a follow-up. -/
theorem followupExtension_subscribe {serviceId : MacAddr} {control : UInt8}
    (hp : (subscribe serviceId instanceId control info).Valid) (i : UInt8) (rest : List Attribute) :
    followupExtension i ((subscribe serviceId instanceId control info).written ++ rest) =
      followupExtension i rest := by
  have hlength : info.length ≤ 231 := hp.2.2
  have htotal := length_subscribeBody instanceId info
  rw [written_subscribe, cons_append, cons_append, nil_append, followupExtension,
    followupExtension, if_neg (fun h => absurd h.1 (show ¬ (0x03 : UInt8) = 0x0e by decide))]
  have hdeclared : ofLe16
      ((subscribeBody instanceId info).getD 3 0)
        ((subscribeBody instanceId info).getD 4 0) = 1024 := rfl
  split
  · simp only [hdeclared]
    rw [if_neg (by decide), if_neg fun h => absurd h.2 (by omega)]
  · rfl

theorem followupExtension_publish (serviceId : MacAddr) (instanceId : UInt8) (info : Bytes)
    (update : Option UInt8) (i : UInt8) (rest : List Attribute) :
    followupExtension i ((publish serviceId instanceId info update).written ++ rest) =
      followupExtension i rest := by
  obtain ⟨after, hwritten⟩ := written_publish serviceId instanceId info update
  rw [hwritten, cons_append, nil_append, followupExtension,
    if_neg (fun h => absurd h.1 (show ¬ (0x03 : UInt8) = 0x0e by decide))]

/-- The first follow-up of an instance. -/
theorem followupExtension_parts (hp : ∀ p ∈ parts, p.Valid) (i : UInt8) :
    followupExtension i (parts.flatMap written) =
      (parts.find? fun p => p.followupPayload.isSome && decide (p.instanceId = i)).bind
        followupPayload := by
  induction parts with
  | nil => rfl
  | cons p parts ih =>
    have htail := ih (forall_mem_cons.mp hp).2
    have hhead := hp p mem_cons_self
    rw [flatMap_cons]
    cases p with
    | publish serviceId instanceId info update => rw [followupExtension_publish, htail]; rfl
    | subscribe serviceId instanceId control info =>
      rw [followupExtension_subscribe hhead, htail]; rfl
    | followup serviceId instanceId requestorInstance payload =>
      rw [followupExtension_followup hhead, htail]
      by_cases hi : instanceId = i
      · rw [if_pos hi]
        simp [Part.followupPayload, Part.instanceId, hi]
      · rw [if_neg hi]
        simp [Part.instanceId, hi]

/-! ## Subscribes -/

/-- An extension of another instance says nothing about a subscribe. -/
theorem subscribeExtension_other {subscribe : UInt8 × UInt8} {body : Bytes}
    (h : body.getD 0 0 ≠ subscribe.1) : subscribeExtension subscribe body = none :=
  if_neg fun hmatch => h hmatch.2.1

theorem subscribeExtension_own (h : info.length ≤ 231) : subscribeExtension (instanceId, 0)
    (subscribeBody instanceId info) = some ⟨instanceId, 0, info⟩ := by
  have hdeclared : ofLe16
      ((subscribeBody instanceId info).getD 5 0)
        ((subscribeBody instanceId info).getD 6 0) =
        4 + info.length := ofLe16_le16 (by omega)
  have htotal := length_subscribeBody instanceId info
  have hwfa : range (subscribeBody instanceId info) 7 4 = some [0x50, 0x6f, 0x9a, 0x00] := by
    rw [subscribeBody, append_assoc _ _ info]
    exact range_append rfl rfl
  have hinfo : range (subscribeBody instanceId info) 11 info.length = some info :=
    range_end rfl
  unfold subscribeExtension
  rw [if_pos ⟨by rw [htotal]; omega, rfl, rfl⟩]
  simp only [hdeclared, htotal, Nat.add_sub_cancel_left]
  rw [if_pos ⟨by omega, Nat.le_refl _, hwfa⟩, hinfo]
  rfl

/-- The descriptor of an active control is remembered, if it is of the service. -/
theorem activeSubscribe_sda {serviceId : MacAddr} (hc : 0x10 ≤ c ∧ c ≤ 0x12) (other : MacAddr)
    (tail : Bytes) (subscribe : Option (UInt8 × UInt8)) (rest : List Attribute) :
    activeSubscribe serviceId subscribe (⟨0x03, other.toList ++ i :: r :: c :: tail⟩ :: rest) =
      activeSubscribe serviceId (if other = serviceId then some (i, r) else subscribe) rest := by
  have h6 := getD_mac other (i :: r :: c :: tail) 0
  have h7 := getD_mac other (i :: r :: c :: tail) 1
  have h8 := getD_mac other (i :: r :: c :: tail) 2
  simp only [add_zero, getD_cons_zero, getD_cons_succ] at h6 h7 h8
  rw [activeSubscribe, h6, h7, h8, take_mac]
  by_cases hother : other = serviceId
  · rw [if_pos ⟨rfl, by simp; omega, congrArg _ hother, hc⟩, if_pos hother]
  · rw [if_neg fun h => hother (Subtype.ext h.2.2.1), if_neg hother,
      if_neg (show ¬ (0x03 : UInt8) = 0x0e by decide)]

/-- The descriptor of a follow-up is not remembered. -/
theorem activeSubscribe_inactive (hc : ¬0x10 ≤ c) (serviceId other : MacAddr) (tail : Bytes)
    (subscribe : Option (UInt8 × UInt8)) (rest : List Attribute) :
    activeSubscribe serviceId subscribe (⟨0x03, other.toList ++ i :: r :: c :: tail⟩ :: rest) =
      activeSubscribe serviceId subscribe rest := by
  have h8 := getD_mac other (i :: r :: c :: tail) 2
  rw [activeSubscribe, h8, if_neg fun h =>
    hc h.2.2.2.1, if_neg (show ¬ (0x03 : UInt8) = 0x0e by decide)]

theorem activeSubscribe_sdea (serviceId : MacAddr) (body : Bytes)
    (subscribe : Option (UInt8 × UInt8)) (rest : List Attribute) :
    activeSubscribe serviceId subscribe (⟨0x0e, body⟩ :: rest) =
      (subscribe.bind fun subscribe => subscribeExtension subscribe body).or
        (activeSubscribe serviceId subscribe rest) := by
  rw [activeSubscribe]
  cases subscribe.bind fun subscribe => subscribeExtension subscribe body <;> rfl

/-- The first subscribe of the service, whatever stands before it: instances tell the parts
apart. -/
theorem activeSubscribe_parts (hp : ∀ p ∈ parts, p.Valid)
    (hdistinct : (parts.map Part.instanceId).Nodup) (serviceId : MacAddr)
    (subscribe : Option (UInt8 × UInt8))
    (hsubscribe : ∀ s, subscribe = some s → ∀ p ∈ parts, p.instanceId ≠ s.1) :
    activeSubscribe serviceId subscribe (parts.flatMap written) =
      (parts.find? fun p => p.subscribeInfo.isSome && decide (p.serviceId = serviceId)).bind
        subscribeInfo := by
  induction parts generalizing subscribe with
  | nil => rfl
  | cons p parts ih =>
    rw [map_cons, nodup_cons] at hdistinct
    have htail := fun subscribe => ih (forall_mem_cons.mp hp).2 hdistinct.2 subscribe
    have hkeep : ∀ s, subscribe = some s → ∀ q ∈ parts, q.instanceId ≠ s.1 := fun s hs q hq =>
      hsubscribe s hs q (mem_cons_of_mem _ hq)
    have hown : ∀ q ∈ parts, q.instanceId ≠ p.instanceId := fun q hq heq =>
      hdistinct.1 (mem_map.mpr ⟨q, hq, heq⟩)
    have hother : ∀ body : Bytes, body.getD 0 0 = p.instanceId →
        (subscribe.bind fun subscribe => subscribeExtension subscribe body) = none := by
      intro body hbody
      cases hs : subscribe with
      | none => rfl
      | some s =>
        refine subscribeExtension_other ?_
        rw [hbody]
        exact hsubscribe s hs p mem_cons_self
    rw [flatMap_cons]
    cases p with
    | publish other instanceId info update =>
      obtain ⟨after, hwritten⟩ := written_publish other instanceId info update
      have hbody : other.toList ++ [instanceId, 0, 0x10, .ofNat info.length] ++ info ++ after =
          other.toList ++ instanceId :: 0 :: 0x10 :: (.ofNat info.length :: (info ++ after)) := by
            simp
      rw [hwritten, cons_append, nil_append, hbody, activeSubscribe_sda (by decide)]
      by_cases hsame : other = serviceId
      · rw [if_pos hsame, htail _ fun s hs q hq => by cases hs; exact hown q hq]
        rfl
      · rw [if_neg hsame, htail _ hkeep]
        rfl
    | followup other instanceId requestorInstance payload =>
      rw [written_followup, cons_append, cons_append, nil_append,
        activeSubscribe_inactive (by decide), activeSubscribe_sdea, hother _ rfl, htail _ hkeep]
      rfl
    | subscribe other instanceId control info =>
      obtain ⟨hlow, hhigh, hinfo⟩ := hp _ mem_cons_self
      rw [written_subscribe, cons_append, cons_append, nil_append,
        activeSubscribe_sda ⟨hlow, hhigh⟩, activeSubscribe_sdea]
      by_cases hsame : other = serviceId
      · rw [if_pos hsame, bind_some, subscribeExtension_own hinfo]
        simp [Part.subscribeInfo, Part.serviceId, hsame]
      · rw [if_neg hsame, hother _ rfl, htail _ hkeep]
        simp [Part.serviceId, hsame]

end Walks

/-! ## What is read back -/

section

variable (serviceId : MacAddr) (parts : List Part)

def firstOf : Option Part :=
  parts.find? fun p => decide (p.serviceId = serviceId)

def firstFollowup : Option Part :=
  parts.find? fun p => p.followupPayload.isSome && decide (p.serviceId = serviceId)

def firstSubscribe : Option Part :=
  parts.find? fun p => p.subscribeInfo.isSome && decide (p.serviceId = serviceId)

end

section ReadBack

variable (destination source bssid : MacAddr)

/-- The frame of a part alone is read as it was built. -/
def Part.ReadAlone : Part → Prop
  | .publish serviceId instanceId info update =>
    serviceDescriptor ((publish serviceId instanceId info update).frame destination source
      bssid) serviceId =
      some ⟨instanceId, 0, 0x10, info⟩
  | .subscribe serviceId instanceId control info =>
    activeSubscribeServiceInfo
      ((subscribe serviceId instanceId control info).frame destination source bssid)
      serviceId = some ⟨instanceId, 0, info⟩
  | .followup serviceId instanceId requestorInstance payload =>
    followupServiceInfo ((followup serviceId instanceId requestorInstance payload).frame
      destination source bssid)
      serviceId = some payload

/-- Frames are read back alone and coalesced, and their attributes are those that were asked for. -/
structure ReadBack (parts : List Part) : Prop where
  alone : ∀ p ∈ parts, p.ReadAlone destination source bssid
  partition : ∀ p ∈ parts,
    p.requested.flatMap encode = (p.frame destination source bssid).drop nanActionStart
  descriptors : serviceDescriptors (coalesce destination source bssid parts) =
    parts.map descriptor
  followups : ∀ serviceId p, firstFollowup serviceId parts = some p →
    followupServiceInfo (coalesce destination source bssid parts) serviceId = p.followupPayload
  subscribes : ∀ serviceId p, firstSubscribe serviceId parts = some p →
    activeSubscribeServiceInfo (coalesce destination source bssid parts) serviceId = p.subscribeInfo

/-- No publish asks for an extension, and the first part of a service that has a follow-up is a
follow-up. -/
structure Separable (parts : List Part) : Prop where
  plain : ∀ p ∈ parts, p.update = none
  leading : ∀ serviceId p, firstFollowup serviceId parts = some p → firstOf serviceId parts = some p

end ReadBack

section Main

variable {destination source bssid : MacAddr} {parts : List Part} {p : Part}

theorem coalesce_singleton (hp : p.Valid) :
    coalesce destination source bssid [p] = p.frame destination source bssid := by
  rw [coalesce, flatMap_singleton, frame_eq hp, drop_sdfHeader]

/-- The part of a service is its first descriptor. -/
theorem serviceDescriptor_coalesce (hp : ∀ p ∈ parts, p.Valid) (serviceId : MacAddr) :
    serviceDescriptor (coalesce destination source bssid parts) serviceId =
      (firstOf serviceId parts).map fun p => p.descriptor.descriptor := by
  have hid : ∀ p : Part, p.descriptor.serviceId = p.serviceId := by
    intro p
    cases p <;> rfl
  rw [serviceDescriptor, serviceDescriptors_coalesce hp, find?_map, Option.map_map, firstOf]
  simp only [Function.comp_def, hid]

/-- Parts of one instance are one part. -/
theorem eq_of_instance (hdistinct : (parts.map instanceId).Nodup) {q : Part} (hp : p ∈ parts)
    (hq : q ∈ parts) (h : p.instanceId = q.instanceId) : p = q :=
  inj_on_of_nodup_map hdistinct hp hq h

/-- The extension of an instance is that of the part. -/
theorem followupExtension_coalesce (hp : ∀ p ∈ parts, p.Valid)
    (hdistinct : (parts.map instanceId).Nodup) (hmem : p ∈ parts) :
    followupExtension p.instanceId (parts.flatMap written) = p.followupPayload := by
  rw [followupExtension_parts hp]
  cases hfind : parts.find? fun q =>
    q.followupPayload.isSome && decide (q.instanceId = p.instanceId) with
  | none =>
    have hnone := find?_eq_none.mp hfind p hmem
    rw [decide_eq_true rfl, Bool.and_true, not_isSome_iff_eq_none] at hnone
    exact hnone.symm
  | some q =>
    have hq := find?_some hfind
    rw [Bool.and_eq_true, decide_eq_true_eq] at hq
    rw [eq_of_instance hdistinct (mem_of_find?_eq_some hfind) hmem hq.2]
    rfl

/-- The first part of a service is its first follow-up, if it is one. -/
theorem firstFollowup_of_firstOf {serviceId : MacAddr} (h : firstOf serviceId parts = some p)
    (hpayload : p.followupPayload.isSome) : firstFollowup serviceId parts = some p := by
  obtain ⟨hservice, before, after, rfl, hbefore⟩ := find?_eq_some_iff_append.mp h
  refine find?_eq_some_iff_append.mpr ⟨by rw [hpayload, Bool.true_and, hservice], before, after,
    rfl, ?_⟩
  intro q hq
  rw [Bool.not_and, hbefore q hq, Bool.or_true]

theorem followupServiceInfo_of_descriptor {frame : Bytes} {serviceId : MacAddr}
    {d : ServiceDescriptor} (h : serviceDescriptor frame serviceId = some d) :
    followupServiceInfo frame serviceId =
      if d.control &&& 0x03 ≠ 0x02 then none
      else if d.payload ≠ [] then some d.payload
      else followupExtension d.instanceId (attributes (frame.drop nanActionStart)) := by
  rw [followupServiceInfo, h]

/-- A follow-up is returned exactly where it is the first part of its service. -/
theorem followupServiceInfo_coalesce (hp : ∀ p ∈ parts, p.Valid)
    (hdistinct : (parts.map instanceId).Nodup) {serviceId : MacAddr}
    (h : firstFollowup serviceId parts = some p) :
    followupServiceInfo (coalesce destination source bssid parts) serviceId = p.followupPayload ↔
      firstOf serviceId parts = some p := by
  have hmem := mem_of_find?_eq_some h
  have hfollowup := find?_some h
  rw [Bool.and_eq_true, decide_eq_true_eq] at hfollowup
  obtain ⟨hpayload, hservice⟩ := hfollowup
  obtain ⟨q, hq⟩ : ∃ q, firstOf serviceId parts = some q :=
    isSome_iff_exists.mp (find?_isSome.mpr ⟨p, hmem, decide_eq_true hservice⟩)
  have hextension := followupExtension_coalesce hp hdistinct (mem_of_find?_eq_some hq)
  have hdescriptor : serviceDescriptor (coalesce destination source bssid parts) serviceId =
      some q.descriptor.descriptor := by rw [serviceDescriptor_coalesce hp, hq, map_some]
  rw [followupServiceInfo_of_descriptor hdescriptor, attributes_coalesce hp, hq, some_inj]
  cases q with
  | publish other instanceId info update =>
    have hcontrol : (publish other instanceId info update).descriptor.descriptor.control &&&
        0x03 ≠ 0x02 :=
      show (0x10 : UInt8) &&& 0x03 ≠ 0x02 by decide
    rw [if_pos hcontrol]
    constructor
    · intro hinfo
      rw [← hinfo] at hpayload
      cases hpayload
    · rintro rfl
      cases hpayload
  | subscribe other instanceId control info =>
    have hnone : followupExtension
        (subscribe other instanceId control info).descriptor.descriptor.instanceId
        (parts.flatMap written) = none := hextension
    have hempty : ¬ (subscribe other instanceId control info).descriptor.descriptor.payload ≠
        [] :=
      not_not_intro rfl
    rw [if_neg hempty, hnone, ite_self]
    constructor
    · intro hinfo
      rw [← hinfo] at hpayload
      cases hpayload
    · rintro rfl
      cases hpayload
  | followup other instanceId requestorInstance payload =>
    have hsame : followup other instanceId requestorInstance payload = p :=
      some_inj.mp ((firstFollowup_of_firstOf hq rfl).symm.trans h)
    have hempty : ¬ (followup other instanceId requestorInstance
        payload).descriptor.descriptor.payload ≠ [] :=
      not_not_intro rfl
    have hcontrol : ¬ (followup other instanceId requestorInstance
        payload).descriptor.descriptor.control &&& 0x03 ≠
        0x02 := show ¬ (0x02 : UInt8) &&& 0x03 ≠ 0x02 by decide
    rw [← hsame, if_neg hcontrol]
    exact ⟨fun _ => rfl, fun _ => hextension⟩

/-- Every subscribe is found by its service. -/
theorem activeSubscribeServiceInfo_coalesce (hp : ∀ p ∈ parts, p.Valid)
    (hdistinct : (parts.map Part.instanceId).Nodup) {serviceId : MacAddr}
    (h : firstSubscribe serviceId parts = some p) :
    activeSubscribeServiceInfo (coalesce destination source bssid parts) serviceId =
      p.subscribeInfo := by
  have hne : parts ≠ [] := ne_nil_of_mem (mem_of_find?_eq_some h)
  -- No descriptor has its information inline under an active control.
  have hinline : (serviceDescriptors (coalesce destination source bssid parts)).find? (fun item =>
      decide (item.serviceId = serviceId) &&
        (item.descriptor.control == 0x11 || item.descriptor.control == 0x12) &&
        !item.descriptor.payload.isEmpty) = none := by
    rw [serviceDescriptors_coalesce hp, find?_eq_none]
    intro item hitem
    obtain ⟨q, -, rfl⟩ := mem_map.mp hitem
    cases q with
    | publish => simp [Part.descriptor]
    | subscribe => simp [Part.descriptor]
    | followup => simp [Part.descriptor]
  rw [activeSubscribeServiceInfo, if_pos (isNanSdf_coalesce hp hne destination source bssid),
    hinline, attributes_coalesce hp,
    activeSubscribe_parts hp hdistinct serviceId none fun s hs => by cases hs]
  exact congrArg (fun first => first.bind Part.subscribeInfo) h

theorem readAlone_of_valid (hp : p.Valid) : p.ReadAlone destination source bssid := by
  have hall : ∀ q ∈ [p], q.Valid := fun q hq => by rwa [mem_singleton.mp hq]
  have hdistinct : ([p].map Part.instanceId).Nodup := nodup_singleton _
  cases p with
  | publish serviceId instanceId info update =>
    rw [Part.ReadAlone, ← coalesce_singleton hp, serviceDescriptor_coalesce hall]
    simp [firstOf, Part.serviceId, Part.descriptor]
  | subscribe serviceId instanceId control info =>
    have hfirst : firstSubscribe serviceId [Part.subscribe serviceId instanceId control info] =
        some (.subscribe serviceId instanceId control info) := find?_cons_of_pos
          (decide_eq_true rfl)
    rw [ReadAlone, ← coalesce_singleton hp,
      activeSubscribeServiceInfo_coalesce hall hdistinct hfirst]
    rfl
  | followup serviceId instanceId requestorInstance payload =>
    have hfirst : firstOf serviceId [followup serviceId instanceId requestorInstance payload] =
        some (.followup serviceId instanceId requestorInstance payload) := find?_cons_of_pos
          (decide_eq_true rfl)
    rw [ReadAlone, ← coalesce_singleton hp,
      (followupServiceInfo_coalesce hall hdistinct (firstFollowup_of_firstOf hfirst rfl)).mpr
        hfirst]
    rfl

/-- The attributes of a frame are those asked for exactly where it carries no update. -/
theorem partition_iff (hp : p.Valid) :
    p.requested.flatMap encode = (p.frame destination source bssid).drop nanActionStart ↔
      p.update = none := by
  rw [frame_eq hp, drop_sdfHeader]
  cases p with
  | publish serviceId instanceId info update =>
    cases update with
    | none => exact ⟨fun _ => rfl, fun _ => rfl⟩
    | some update =>
    refine ⟨fun h => ?_, fun h => by cases h⟩
    have hbound : ∀ a ∈ (publish serviceId instanceId info (some update)).requested,
        a.body.length < 65536 := by
      obtain ⟨-, hinfo⟩ := hp
      intro a ha
      simp only [requested, sdea, map_some, toList_some, mem_cons, not_mem_nil,
        or_false] at ha
      rcases ha with rfl | rfl
      · simp [sda]
        omega
      · simp
    -- Two attributes are asked for and one is written.
    have hsame := congrArg attributes h
    rw [attributes_flatMap hbound, attributes_flatMap fun a ha => length_written hp ha] at hsame
    cases congrArg length hsame
  | subscribe => exact ⟨fun _ => rfl, fun _ => rfl⟩
  | followup => exact ⟨fun _ => rfl, fun _ => rfl⟩

/-- Frames are read back exactly where no publish carries an extension and no other part of its
service stands before a follow-up. -/
theorem readBack_iff (hp : ∀ p ∈ parts, p.Valid) (hdistinct : (parts.map instanceId).Nodup) :
    ReadBack destination source bssid parts ↔ Separable parts := by
  constructor
  · intro h
    exact ⟨fun p hmem => (partition_iff (hp p hmem)).mp (h.partition p hmem),
      fun serviceId p hfirst =>
        (followupServiceInfo_coalesce hp hdistinct hfirst).mp (h.followups serviceId p hfirst)⟩
  intro h
  exact ⟨fun p hmem => readAlone_of_valid (hp p hmem), fun p hmem =>
    (partition_iff (hp p hmem)).mpr (h.plain p hmem),
      serviceDescriptors_coalesce hp destination source bssid, fun serviceId p hfirst =>
      (followupServiceInfo_coalesce hp hdistinct hfirst).mpr (h.leading serviceId p hfirst),
        fun serviceId p hfirst => activeSubscribeServiceInfo_coalesce hp hdistinct hfirst⟩

end Main

/-! ## A coalesced frame -/

def broadcast : MacAddr := ⟨[0xff, 0xff, 0xff, 0xff, 0xff, 0xff], rfl⟩

def chatService : MacAddr := ⟨[0x51, 0x50, 0x9a, 0x01, 0x02, 0x03], rfl⟩

def lampService : MacAddr := ⟨[0x51, 0x50, 0x9a, 0x0a, 0x0b, 0x0c], rfl⟩

/-- A subscribe, a publish and a follow-up of two services. -/
def phoneParts : List Part :=
  [.subscribe lampService 1 0x12 [7], .publish lampService 2 [8, 9] none,
    .followup chatService 3 1 [5, 6]]

theorem phoneParts_readBack : ReadBack broadcast lampService chatService phoneParts :=
  (readBack_iff (by decide) (by decide)).mpr
    ⟨by decide, by
      intro serviceId p h
      have hp := mem_of_find?_eq_some h
      have hfollowup := find?_some h
      simp only [phoneParts, mem_cons, not_mem_nil, or_false] at hp
      rcases hp with rfl | rfl | rfl
      · cases hfollowup
      · cases hfollowup
      rw [Bool.and_eq_true, decide_eq_true_eq] at hfollowup
      obtain ⟨-, rfl⟩ := hfollowup
      rfl⟩

/-- With an update the extension of a publish is inside its descriptor, and a follow-up behind a
publish of its service is not found. -/
theorem not_readBack : ¬ ReadBack broadcast lampService
    chatService [.publish chatService 1 [8] (some 3)] ∧
      ¬ ReadBack broadcast lampService
        chatService [.publish chatService 1 [8] none, .followup chatService 2 1 [5]] := by
  constructor
  · intro h
    have hbytes := h.partition _ mem_cons_self
    exact absurd hbytes (by decide)
  intro h
  have hinfo := h.followups chatService (.followup chatService 2 1 [5]) rfl
  exact absurd hinfo (by decide)

end QuicLite.Nan
