import QuicLite.Lib.Attributes
import QuicLite.Nan.State

/-!
# Service discovery frames

The frames that carry a service: a publish, an active subscribe, a follow-up. Each is a header and a
few attributes. The information of a publish is in its descriptor, that of the other two in an
extension attribute behind it, each with a layout of its own. Parsers go through the attributes of a
frame, which may come from several of these frames.
-/

namespace QuicLite.Nan

open Attributes

/-! ## Building -/

def nanActionStart : Nat := 30

/-- Address one, two and three of an action frame, and the NAN action. -/
def sdfHeader (destination source bssid : MacAddr) : Bytes :=
  [0xd0, 0x00, 0x00, 0x00] ++ destination.toList ++ source.toList ++ bssid.toList ++
    [0x00, 0x00, 0x04, 0x09, 0x50, 0x6f, 0x9a, 0x13]

def buildNanUsdSdfWithBssid (destination source bssid serviceId : MacAddr)
    (instanceId control : UInt8) (serviceInfo : Bytes) : Bytes :=
  let info := serviceInfo.take 231
  sdfHeader destination source bssid ++ [0x03] ++ le16 9 ++
    serviceId.toList ++ [instanceId, 0, control] ++ [0x0e] ++
    le16 (11 + info.length) ++ [instanceId, 0, 0, 0, 4] ++
      le16 (4 + info.length) ++ [0x50, 0x6f, 0x9a, 0x00] ++ info

def nanSdeaServiceUpdateControl : Bytes := [0x00, 0x02]

section

variable (destination source clusterBssid serviceId : MacAddr)

/-- With an update the length of the descriptor counts the seven bytes of the extension behind
it. -/
def buildNanPublishSdfWithSdea (instanceId : UInt8)
    (serviceInfo : Bytes) (sdeaUpdate : Option UInt8) : Bytes :=
  let info := serviceInfo.take 255
  let sdeaLen := sdeaUpdate.isSome.toNat * 7
  let descriptorLen := 6 + 4 + info.length + sdeaLen
  sdfHeader destination source clusterBssid ++ [0x03] ++ le16 descriptorLen ++ serviceId.toList ++
    [instanceId, 0, 0x10, UInt8.ofNat info.length] ++ info ++
    match sdeaUpdate with
    | some update => [0x0e, 0x04, 0x00, instanceId] ++ nanSdeaServiceUpdateControl ++ [update]
    | none => []

def buildNanPublishSdf (instanceId : UInt8) (serviceInfo : Bytes) : Bytes :=
  buildNanPublishSdfWithSdea destination source clusterBssid serviceId instanceId serviceInfo none

def buildNanFollowupSdfForRequestor (instanceId requestorInstanceId : UInt8) (payload : Bytes) :
    Bytes :=
  let payload := payload.take 255
  let sdeaLen := 9 + payload.length
  sdfHeader destination source clusterBssid ++ [0x03] ++ le16 9 ++ serviceId.toList ++
    [instanceId, requestorInstanceId, 0x02] ++ [0x0e] ++ le16 sdeaLen ++ [instanceId] ++ le16 0 ++
    le16 (4 + payload.length) ++ [0x50, 0x6f, 0x9a, 0x02] ++ payload

end

/-! ## Parsing -/

def isNanSdf (frame : Bytes) : Bool :=
  decide (nanActionStart < frame.length) &&
    range frame frameData 6 == some [0x04, 0x09, 0x50, 0x6f, 0x9a, 0x13]

structure ServiceDescriptor where
  instanceId : UInt8
  requestorInstance : UInt8
  control : UInt8
  payload : Bytes

structure NamedServiceDescriptor where
  serviceId : MacAddr
  descriptor : ServiceDescriptor

/-- An active control has its information behind a length byte, if it has any. -/
def serviceDescriptorBody (body : Bytes) (serviceId : MacAddr) : Option ServiceDescriptor :=
  if body.length < 9 ∨ body.take 6 ≠ serviceId.toList then none
  else if 0x10 ≤ body.getD 8 0 ∧ body.getD 8 0 ≤ 0x12 then
    if body.length = 9 then some ⟨body.getD 6 0, body.getD 7 0, body.getD 8 0, []⟩
    else (range body 10 (body.getD 9 0).toNat).map fun payload =>
      ⟨body.getD 6 0, body.getD 7 0, body.getD 8 0, payload⟩
  else if body.getD 8 0 ≤ 2 then some ⟨body.getD 6 0, body.getD 7 0, body.getD 8 0, []⟩
  else none

def namedDescriptor (a : Attribute) : Option NamedServiceDescriptor :=
  if a.id = 0x03 ∧ 9 ≤ a.body.length then
    (toMac (a.body.take 6)).bind fun serviceId =>
      (serviceDescriptorBody a.body serviceId).map fun d => ⟨serviceId, d⟩
  else none

def serviceDescriptors (frame : Bytes) : List NamedServiceDescriptor :=
  if isNanSdf frame then (attributes (frame.drop nanActionStart)).filterMap namedDescriptor else []

/-- The first descriptor of a service. -/
def serviceDescriptor (frame : Bytes) (serviceId : MacAddr) : Option ServiceDescriptor :=
  ((serviceDescriptors frame).find? fun item => item.serviceId = serviceId).map
    NamedServiceDescriptor.descriptor

/-- The first extension of an instance that has the layout of a follow-up. -/
def followupExtension (instanceId : UInt8) : List Attribute → Option Bytes
  | [] => none
  | a :: rest =>
    if a.id = 0x0e ∧ 9 ≤ a.body.length ∧ a.body.getD 0 0 = instanceId then
      let declared := ofLe16 (a.body.getD 3 0) (a.body.getD 4 0)
      if declared < 4 then none
      else if range a.body 5 4 = some [0x50, 0x6f, 0x9a, 0x02] ∧
        9 + (declared - 4) = a.body.length then
        range a.body 9 (declared - 4)
      else followupExtension instanceId rest
    else followupExtension instanceId rest

def followupServiceInfo (frame : Bytes) (serviceId : MacAddr) : Option Bytes :=
  match serviceDescriptor frame serviceId with
  | none => none
  | some descriptor =>
    if descriptor.control &&& 0x03 ≠ 0x02 then none
    else if descriptor.payload ≠ [] then some descriptor.payload
    else followupExtension descriptor.instanceId (attributes (frame.drop nanActionStart))

structure ActiveSubscribeServiceInfo where
  instanceId : UInt8
  requestorInstance : UInt8
  serviceInfo : Bytes

/-- The information of an extension that belongs to a subscribe: wrapped, or else raw. -/
def subscribeExtension (subscribe : UInt8 × UInt8) (body : Bytes) :
    Option ActiveSubscribeServiceInfo :=
  if 7 ≤ body.length ∧ body.getD 0 0 = subscribe.1 ∧ body.getD 1 0 = subscribe.2 then
    let declared := ofLe16 (body.getD 5 0) (body.getD 6 0)
    if 4 ≤ declared ∧ 11 + (declared - 4) ≤ body.length ∧
      range body 7 4 = some [0x50, 0x6f, 0x9a, 0x00] then
      (range body 11 (declared - 4)).map fun info => ⟨subscribe.1, subscribe.2, info⟩
    else if 7 + declared = body.length then (range body 7 declared).map fun info =>
      ⟨subscribe.1, subscribe.2, info⟩
    else none
  else none

/-- The walk over the attributes: the last active descriptor of the service, and the first extension
that fits it. -/
def activeSubscribe (serviceId : MacAddr) :
    Option (UInt8 × UInt8) → List Attribute → Option ActiveSubscribeServiceInfo
  | _, [] => none
  | subscribe, a :: rest =>
    if a.id = 0x03 ∧ 9 ≤ a.body.length ∧ a.body.take 6 = serviceId.toList ∧ 0x10 ≤ a.body.getD 8 0 ∧
        a.body.getD 8 0 ≤ 0x12 then
      activeSubscribe serviceId (some (a.body.getD 6 0, a.body.getD 7 0)) rest
    else if a.id = 0x0e then
      match subscribe.bind fun subscribe => subscribeExtension subscribe a.body with
      | some info => some info
      | none => activeSubscribe serviceId subscribe rest
    else activeSubscribe serviceId subscribe rest

def activeSubscribeServiceInfo (frame : Bytes) (serviceId : MacAddr) :
    Option ActiveSubscribeServiceInfo :=
  if isNanSdf frame then
    match (serviceDescriptors frame).find? fun item => decide (item.serviceId = serviceId) &&
        (item.descriptor.control == 0x11 || item.descriptor.control == 0x12) &&
          !item.descriptor.payload.isEmpty with
    | some item =>
      some ⟨item.descriptor.instanceId, item.descriptor.requestorInstance, item.descriptor.payload⟩
    | none => activeSubscribe serviceId none (attributes (frame.drop nanActionStart))
  else none

end QuicLite.Nan
