import QuicLite.Endpoint.Records

/-!
# Packets on their way to a bearer

An association numbers and records a packet before a bearer has seen it. The bearer accepts the
packet, or returns it untouched; the node then keeps it in the one pending slot of that bearer, and
the record is marked as not accepted until a retry succeeds. Record and packet are linked by a tag,
`PacketAcceptance`. Unaccepted records are passed over by loss detection, by probing and by
suspension, so a tag that gets lost keeps its bytes unsent for good.

Runs are lists of steps of one node: calls on its associations, submissions and their outcomes,
retries, completions, registration and removal of bearers.
-/

namespace QuicLite

open List Option Function Nat EndpointState

structure PacketAcceptance where
  association : Nat
  packetNumber : Nat

/-- A registered bearer, with the submission that it returned as blocked. -/
structure RegisteredBearer where
  id : Nat
  pending : Option (Packet × Option PacketAcceptance)

def RegisteredBearer.tag (bearer : RegisteredBearer) : Option PacketAcceptance :=
  bearer.pending.bind (·.2)

/-- A packet that was built, tagged when it is handed to `submit_node_packet`. -/
structure NodeEgress where
  packet : Packet
  acceptance : Option PacketAcceptance

/-- The answer of a bearer to a submission. -/
inductive Verdict where
  | accepted
  | wouldBlock

namespace BearerNode

variable {P : Nat}

/-- Associations are named by handles that are not used again, and so are bearers. `egress` is the
stack of packets between being built and being submitted: submitting one may build another. -/
structure State (P : Nat) where
  clockUs : Nat
  associations : Nat → Option (EndpointState P)
  nextAssociation : Nat
  bearers : List RegisteredBearer
  nextBearer : Nat
  egress : List NodeEgress

namespace State

def new (P : Nat) : State P := ⟨0, fun _ => none, 0, [], 1, []⟩

/-! ## Outcomes -/

section

variable (node : State P)

/-- `slot_mut(association)` -/
def onAssociation (association : Nat) (f : EndpointState P → EndpointState P) : State P :=
  { node with
    associations := update node.associations association
      ((node.associations association).map f) }

def packetAcceptanceFor (association : Nat) (packet : Packet) : Option PacketAcceptance := do
  let endpoint ← node.associations association
  let (header, _) ← (ShortHeader.decodeWithExpected packet.bytes endpoint.nextPacketNumber).toOption
  some ⟨association, header.packetNumber⟩

def recordPacketAcceptance : Option PacketAcceptance → State P
  | none => node
  | some tag => node.onAssociation tag.association fun e =>
    (e.packetSubmissionAccepted tag.packetNumber node.clockUs).1

def recordPacketBlocked : Option PacketAcceptance → State P
  | none => node
  | some tag => node.onAssociation tag.association fun e =>
    (e.packetSubmissionBlocked tag.packetNumber).1

def recordPacketSendFailure : Option PacketAcceptance → State P
  | none => node
  | some tag => node.onAssociation tag.association fun e =>
    (e.packetSubmissionFailed tag.packetNumber).1

def setPending (bearer : Nat) (pending : Option (Packet × Option PacketAcceptance)) : State P :=
  { node with
    bearers := node.bearers.map fun entry => if entry.id = bearer then
      { entry with pending := pending } else entry }

/-- `self.bearers.get_mut(id)` -/
def bearer? (id : Nat) : Option RegisteredBearer := node.bearers.find? fun entry => entry.id == id

/-- `submit_node_packet`, with the answer of the bearer if it is asked. -/
def submitNodePacket (egress : NodeEgress) (bearer : Nat) (verdict : Verdict) : State P :=
  match node.bearer? bearer with
  | none => node.recordPacketSendFailure egress.acceptance
  | some entry =>
    if entry.pending.isSome then node.recordPacketSendFailure egress.acceptance
    else
      match verdict with
      | .accepted => node.recordPacketAcceptance egress.acceptance
      | .wouldBlock =>
        (node.setPending bearer (some (egress.packet, egress.acceptance))).recordPacketBlocked
          egress.acceptance

/-- `retry_pending`, and what `drain_bearer_events` makes of its result. -/
def retryPending (bearer : Nat) (verdict : Verdict) : State P :=
  match node.bearer? bearer with
  | none => node
  | some entry =>
    match entry.pending, verdict with
    | some (_, acceptance), .accepted =>
      (node.setPending bearer none).recordPacketAcceptance acceptance
    | _, _ => node

end

/-- Paths that lose their last address are suspended and report it. -/
def suspendPaths (node : State P) : List (Nat × Nat) → State P
  | [] => node
  | (association, pathId) :: paths =>
    suspendPaths (node.onAssociation association fun e =>
      (e.suspendPath pathId).modifyPath pathId fun path =>
        (path.queueStatus .standby).toOption.getD path) paths

/-- `suspended` are the paths whose last address was learned through this bearer. -/
def removeBearer (node : State P) (id : Nat) (suspended : List (Nat × Nat)) : State P :=
  if (node.bearer? id).isSome then
    let remaining := { node with bearers := node.bearers.filter fun entry => entry.id != id }
    remaining.suspendPaths suspended
  else node

end State

open State

/-! ## Steps -/

/-- The outcome of a submission is reported by the node alone. -/
def isOutcome : Op → Bool
  | .packetSubmissionBlocked _ | .packetSubmissionAccepted .. | .packetSubmissionFailed _ => true
  | _ => false

inductive Step where
  | insert (role : Role) (limits : ConnectionLimits) (maxPacketSize historyCapacity : Nat)
  | remove (association : Nat)
  | call (association : Nat) (op : Op)
  | submit (bearer : Nat) (verdict : Verdict)
  | discard
  | ready (bearer : Nat) (verdict : Verdict)
  | completed (acceptance : Option PacketAcceptance) (failed : Bool)
  | register
  | removeBearer (id : Nat) (suspended : List (Nat × Nat))
  | advanceClock (nowUs : Nat)

/-- A call on one association; the packet that it wrote, if any, is tagged and put on the stack. -/
def State.call (node : State P) (association : Nat) (op : Op) : State P :=
  match node.associations association with
  | none => node
  | some endpoint =>
    if isOutcome op then node
    else
      let outcome := endpoint.apply op
      let node := { node with
        associations := update node.associations association (some outcome.state) }
      match outcome.result with
      | .ok (some packet) =>
        { node with egress := ⟨packet, node.packetAcceptanceFor association packet⟩ :: node.egress }
      | _ => node

def State.step (node : State P) : Step → State P
  | .insert role limits maxPacketSize historyCapacity =>
    { node with
      associations := update node.associations node.nextAssociation
        (some (newWithHistoryCapacity P role limits maxPacketSize historyCapacity))
      nextAssociation := node.nextAssociation + 1 }
  | .remove association =>
    { node with associations := update node.associations association none }
  | .call association op => node.call association op
  | .submit bearer verdict =>
    match node.egress with
    | [] => node
    | egress :: rest => submitNodePacket { node with egress := rest } egress bearer verdict
  | .discard => { node with egress := node.egress.tail }
  | .ready bearer verdict => node.retryPending bearer verdict
  | .completed acceptance failed => if failed then node.recordPacketSendFailure acceptance else node
  | .register =>
    { node with
      bearers := node.bearers ++ [⟨node.nextBearer, none⟩], nextBearer := node.nextBearer + 1 }
  | .removeBearer id suspended => node.removeBearer id suspended
  | .advanceClock nowUs => { node with clockUs := max node.clockUs nowUs }

/-! ## Ownership -/

namespace State

variable {id : Nat} {egress : NodeEgress}
variable {pending : Option (Packet × Option PacketAcceptance)} {endpoint : EndpointState P}
variable {rest : List NodeEgress}

/-- Every record that no bearer has accepted is that of a packet in the pending slot of exactly one
bearer. -/
def Owned (node : State P) : Prop :=
  ∀ association endpoint, node.associations association = some endpoint → ∀ sent ∈ endpoint.records,
    sent.accepted = false → ∃! bearer, bearer ∈ node.bearers ∧ ∃ packet : Packet,
      bearer.pending = some (packet, some ⟨association, sent.packetNumber⟩) ∧
      packet.header.packetNumber = sent.packetNumber

/-- A tag that was given to this packet. -/
structure Proper (node : State P) (packet : Packet) (tag : PacketAcceptance) : Prop where
  issued : tag.association < node.nextAssociation
  used : ∀ endpoint, node.associations tag.association = some endpoint →
    tag.packetNumber < endpoint.nextPacketNumber
  number : packet.header.packetNumber = tag.packetNumber

variable {node : State P}

theorem Proper.carry {node' : State P} {packet : Packet} {tag : PacketAcceptance}
    (h : node.Proper packet tag) (hnext : node.nextAssociation ≤ node'.nextAssociation)
    (hlive : ∀ e, node'.associations tag.association = some e →
      node.associations tag.association = some e) : node'.Proper packet tag :=
  ⟨h.issued.trans_le hnext, fun e he => h.used e (hlive e he), h.number⟩

/-- No tag is on two packets, and every unaccepted record has its tag on a pending one. -/
structure Inv (node : State P) : Prop where
  live : ∀ association endpoint, node.associations association = some endpoint →
    association < node.nextAssociation
  distinct : ∀ association endpoint, node.associations association = some endpoint →
    endpoint.Distinct
  ids : ∀ b ∈ node.bearers, ∀ b' ∈ node.bearers, b.id = b'.id → b = b'
  registered : ∀ b ∈ node.bearers, b.id < node.nextBearer
  pending : ∀ b ∈ node.bearers, ∀ packet tag, b.pending = some (packet, some tag) →
    node.Proper packet tag
  built : ∀ g ∈ node.egress, ∀ tag, g.acceptance = some tag → node.Proper g.packet tag
  apart : ∀ b ∈ node.bearers, ∀ b' ∈ node.bearers, ∀ tag, b.tag = some tag → b'.tag = some tag →
    b.id = b'.id
  waiting : ∀ b ∈ node.bearers, ∀ g ∈ node.egress, ∀ tag, b.tag = some tag → g.acceptance ≠ some tag
  stacked : node.egress.Pairwise fun g g' => ∀ tag, g.acceptance = some tag →
    g'.acceptance ≠ some tag
  owned : ∀ association endpoint, node.associations association = some endpoint →
    ∀ i sent, endpoint.Holds i sent →
    sent.accepted = false → ∃ b ∈ node.bearers, b.tag = some ⟨association, sent.packetNumber⟩

theorem Inv.unique_owner (h : Inv node) : node.Owned := by
  intro association endpoint hendpoint sent hsent hunaccepted
  obtain ⟨i, hholds⟩ := mem_records.mp hsent
  obtain ⟨b, hb, htag⟩ := h.owned association endpoint hendpoint i sent hholds hunaccepted
  obtain ⟨⟨packet, acceptance⟩, hpending, rfl⟩ := bind_eq_some_iff.mp htag
  refine ⟨b, ⟨hb, packet, hpending, (h.pending b hb packet _ hpending).number⟩, ?_⟩
  rintro b' ⟨hb', packet', hpending', -⟩
  apply h.ids b' hb' b hb
  exact h.apart b' hb' b hb _ (by rw [RegisteredBearer.tag, hpending', bind_some]) htag

theorem inv_new : Inv (new P) where
  live := by
    intro association endpoint h
    cases h
  distinct := by
    intro association endpoint h
    cases h
  ids := by
    intro b hb
    cases hb
  registered := by
    intro b hb
    cases hb
  pending := by
    intro b hb
    cases hb
  built := by
    intro g hg
    cases hg
  apart := by
    intro b hb
    cases hb
  waiting := by
    intro b hb
    cases hb
  stacked := .nil
  owned := by
    intro association endpoint h
    cases h

/-! ### One association moves -/

variable {association : Nat} {f : EndpointState P → EndpointState P}

theorem onAssociation_some {other : Nat} {endpoint' : EndpointState P}
    (h : (node.onAssociation association f).associations other = some endpoint') :
    ∃ endpoint, node.associations other = some endpoint ∧
      (other = association ∧ endpoint' = f endpoint ∨ other ≠ association ∧
        endpoint' = endpoint) := by
  change update _ _ _ _ = _ at h
  by_cases heq : other = association
  · subst heq
    rw [update_self, map_eq_some_iff] at h
    obtain ⟨endpoint, hendpoint, rfl⟩ := h
    exact ⟨endpoint, hendpoint, .inl ⟨rfl, rfl⟩⟩
  · rw [update_of_ne heq] at h
    exact ⟨endpoint', h, .inr ⟨heq, rfl⟩⟩

section

variable (h : Inv node)
include h

/-- One association may number packets and settle records; what it unaccepts must be tagged. -/
theorem Inv.onAssociation
    (hnext : ∀ e, node.associations association = some e →
      e.nextPacketNumber ≤ (f e).nextPacketNumber)
    (hdistinct : ∀ e, node.associations association = some e → e.Distinct → (f e).Distinct)
    (howned : ∀ e, node.associations association = some e → ∀ i sent', (f e).Holds i sent' →
      sent'.accepted = false →
      (∃ sent, e.Holds i sent ∧ sent.accepted = false ∧ sent'.packetNumber = sent.packetNumber) ∨
      ∃ b ∈ node.bearers, b.tag = some ⟨association, sent'.packetNumber⟩) :
    Inv (node.onAssociation association f) := by
  have hproper : ∀ packet tag, node.Proper packet tag →
      (node.onAssociation association f).Proper packet tag := by
    intro packet tag hp
    refine ⟨hp.issued, fun endpoint' hendpoint' => ?_, hp.number⟩
    obtain ⟨endpoint, hendpoint, ⟨heq, rfl⟩ | ⟨-, rfl⟩⟩ := onAssociation_some hendpoint'
    · exact (hp.used endpoint hendpoint).trans_le (hnext endpoint (heq ▸ hendpoint))
    · exact hp.used endpoint' hendpoint
  refine ⟨?_, ?_, h.ids, h.registered, fun b hb packet tag hpending =>
    hproper packet tag (h.pending b hb packet tag hpending), fun g hg tag htag =>
      hproper g.packet tag (h.built g hg tag htag), h.apart, h.waiting, h.stacked, ?_⟩
  · intro other endpoint' hendpoint'
    obtain ⟨endpoint, hendpoint, -⟩ := onAssociation_some hendpoint'
    exact h.live other endpoint hendpoint
  · intro other endpoint' hendpoint'
    obtain ⟨endpoint, hendpoint, ⟨rfl, rfl⟩ | ⟨-, rfl⟩⟩ := onAssociation_some hendpoint'
    · exact hdistinct endpoint hendpoint (h.distinct other endpoint hendpoint)
    · exact h.distinct other endpoint' hendpoint
  intro other endpoint' hendpoint' i sent' hholds hunaccepted
  obtain ⟨endpoint, hendpoint, ⟨rfl, rfl⟩ | ⟨-, rfl⟩⟩ := onAssociation_some hendpoint'
  · rcases howned endpoint hendpoint i sent' hholds hunaccepted with ⟨sent, hsent, hwas, hnumber⟩ |
      htagged
    · obtain ⟨b, hb, htag⟩ := h.owned other endpoint hendpoint i sent hsent hwas
      exact ⟨b, hb, hnumber ▸ htag⟩
    · exact htagged
  · exact h.owned other endpoint' hendpoint i sent' hholds hunaccepted

/-- What only numbers and settles records keeps every tag in place. -/
theorem Inv.follow (hf : ∀ e, Follows e (f e)) : Inv (node.onAssociation association f) := by
  apply h.onAssociation
  · intro e _
    exact (hf e).next
  · intro e _
    exact (hf e).distinct
  intro e _ i sent' hholds hunaccepted
  rcases (hf e).origin i sent' hholds with ⟨sent, hsent, hcontinues⟩ | ⟨haccepted, -, -⟩
  · refine .inl ⟨sent, hsent, ?_, hcontinues.number⟩
    cases hwas : sent.accepted with
    | false => rfl
    | true =>
      rw [hcontinues.accepted hwas] at hunaccepted
      cases hunaccepted
  · rw [haccepted] at hunaccepted
    cases hunaccepted

variable (acceptance : Option PacketAcceptance)

theorem Inv.recordPacketAcceptance : Inv (node.recordPacketAcceptance acceptance) := by
  cases acceptance with
  | none => exact h
  | some tag =>
    apply h.follow
    intro e
    have hstep : e.Follows (e.step (.packetSubmissionAccepted tag.packetNumber node.clockUs)) := by
      apply e.step_follows
      rintro _ ⟨⟩
    exact hstep

theorem Inv.recordPacketSendFailure : Inv (node.recordPacketSendFailure acceptance) := by
  cases acceptance with
  | none => exact h
  | some tag =>
    apply h.follow
    intro e
    have hstep : e.Follows (e.step (.packetSubmissionFailed tag.packetNumber)) := by
      apply e.step_follows
      rintro _ ⟨⟩
    exact hstep

/-- A record is unaccepted only once its packet is in a pending slot. -/
theorem Inv.recordPacketBlocked {acceptance : Option PacketAcceptance}
    (howner : ∀ tag, acceptance = some tag → ∃ b ∈ node.bearers, b.tag = some tag) :
    Inv (node.recordPacketBlocked acceptance) := by
  cases acceptance with
  | none => exact h
  | some tag =>
  apply h.onAssociation
  · intro e _
    rw [packetSubmissionBlocked_next]
  · intro e _ hdistinct
    exact packetSubmissionBlocked_distinct hdistinct tag.packetNumber
  intro e _ i sent' hholds hunaccepted
  obtain ⟨sent, hsent, hnumber, hsame⟩ := packetSubmissionBlocked_origin hholds
  by_cases heq : sent'.packetNumber = tag.packetNumber
  · rw [heq]
    exact .inr (howner tag rfl)
  · obtain rfl := hsame heq
    exact .inl ⟨sent', hsent, hunaccepted, rfl⟩

end

/-! ### Bearers come, go and hold packets -/

variable {entry : RegisteredBearer}

theorem bearer?_some (h : node.bearer? id = some entry) : entry ∈ node.bearers ∧ entry.id = id := by
  have hmatch : (entry.id == id) = true :=
    find?_some (p := fun entry : RegisteredBearer => entry.id == id) h
  exact ⟨mem_of_find?_eq_some h, eq_of_beq hmatch⟩

/-- Bearers that give up their packets or leave, while the tag of no unaccepted record is lost. -/
theorem Inv.withBearers (h : Inv node) {bearers' : List RegisteredBearer}
    (hold : ∀ b' ∈ bearers', ∃ b ∈ node.bearers,
      b'.id = b.id ∧ (b'.pending = none ∨ b'.pending = b.pending))
    (hids : ∀ b ∈ bearers', ∀ b' ∈ bearers', b.id = b'.id → b = b')
    (howned : ∀ association endpoint, node.associations association = some endpoint →
      ∀ i sent, endpoint.Holds i sent →
      sent.accepted = false → ∃ b ∈ bearers', b.tag = some ⟨association, sent.packetNumber⟩) :
    Inv { node with bearers := bearers' } := by
  have htag : ∀ b' ∈ bearers', ∀ tag, b'.tag = some tag → ∃ b ∈ node.bearers,
      b'.id = b.id ∧ b.tag = some tag := by
    intro b' hb' tag htag
    obtain ⟨b, hb, hid, hnone | hsame⟩ := hold b' hb'
    · rw [RegisteredBearer.tag, hnone] at htag
      cases htag
    · rw [RegisteredBearer.tag, hsame] at htag
      exact ⟨b, hb, hid, htag⟩
  refine ⟨h.live, h.distinct, hids, ?_, ?_, fun g hg tag htag =>
    (h.built g hg tag htag).carry le_rfl fun _ he => he, ?_, ?_, h.stacked, howned⟩
  · intro b' hb'
    obtain ⟨b, hb, hid, -⟩ := hold b' hb'
    rw [hid]
    exact h.registered b hb
  · intro b' hb' packet tag hpending
    obtain ⟨b, hb, -, hnone | hsame⟩ := hold b' hb'
    · rw [hnone] at hpending
      cases hpending
    · exact (h.pending b hb packet tag (hsame ▸ hpending)).carry le_rfl fun _ he => he
  · intro b₁ hb₁ b₂ hb₂ tag htag₁ htag₂
    obtain ⟨c₁, hc₁, hid₁, hct₁⟩ := htag b₁ hb₁ tag htag₁
    obtain ⟨c₂, hc₂, hid₂, hct₂⟩ := htag b₂ hb₂ tag htag₂
    rw [hid₁, hid₂]
    exact h.apart c₁ hc₁ c₂ hc₂ tag hct₁ hct₂
  · intro b' hb' g hg tag htag'
    obtain ⟨b, hb, -, hbt⟩ := htag b' hb' tag htag'
    exact h.waiting b hb g hg tag hbt

theorem setPending_mem {b' : RegisteredBearer} (h : b' ∈ (node.setPending id pending).bearers) :
    ∃ b ∈ node.bearers, b'.id = b.id ∧ (b.id = id ∧ b' = ⟨b.id, pending⟩ ∨ b.id ≠ id ∧ b' = b) := by
  obtain ⟨b, hb, rfl⟩ := mem_map.mp h
  refine ⟨b, hb, ?_⟩
  split_ifs with hid
  · exact ⟨rfl, .inl ⟨hid, rfl⟩⟩
  · exact ⟨rfl, .inr ⟨hid, rfl⟩⟩

section

variable (h : Inv node)
include h

theorem setPending_ids :
    ∀ b ∈ (node.setPending id pending).bearers, ∀ b' ∈ (node.setPending id pending).bearers,
      b.id = b'.id → b = b' := by
  intro b hb b' hb' heq
  obtain ⟨c, hc, hid, hcase⟩ := setPending_mem hb
  obtain ⟨c', hc', hid', hcase'⟩ := setPending_mem hb'
  obtain rfl : c = c' := h.ids c hc c' hc' (by rw [← hid, ← hid', heq])
  rcases hcase with ⟨hsame, rfl⟩ | ⟨hne, rfl⟩
  · rcases hcase' with ⟨-, rfl⟩ | ⟨hne', rfl⟩
    · rfl
    · exact absurd hsame hne'
  rcases hcase' with ⟨hsame', rfl⟩ | ⟨-, rfl⟩
  · exact absurd hsame' hne
  · rfl

/-- No unaccepted record has this tag. -/
def Settled (node : State P) (tag : PacketAcceptance) : Prop :=
  ∀ endpoint, node.associations tag.association = some endpoint → ∀ i sent, endpoint.Holds i sent →
    sent.packetNumber = tag.packetNumber → sent.accepted

/-- The owner of an unaccepted record is not one whose tag is settled. -/
theorem Inv.other_owner (hsettled : ∀ tag, entry.tag = some tag → node.Settled tag)
    (hendpoint : node.associations association = some endpoint) {i : Nat} {sent : SentPacket}
    (hholds : endpoint.Holds i sent) (hunaccepted : sent.accepted = false) :
    ∃ b ∈ node.bearers, b.tag = some ⟨association, sent.packetNumber⟩ ∧ b ≠ entry := by
  obtain ⟨b, hb, htag⟩ := h.owned association endpoint hendpoint i sent hholds hunaccepted
  refine ⟨b, hb, htag, ?_⟩
  rintro rfl
  have haccepted := hsettled _ htag endpoint hendpoint i sent hholds rfl
  rw [haccepted] at hunaccepted
  cases hunaccepted

section

variable {id : Nat} (hentry : node.bearer? id = some entry)
  (hsettled : ∀ tag, entry.tag = some tag → node.Settled tag)
include hentry hsettled

theorem Inv.release : Inv (node.setPending id none) := by
  obtain ⟨hmem, hid⟩ := bearer?_some hentry
  apply h.withBearers
  · intro b' hb'
    obtain ⟨b, hb, hsame, ⟨-, rfl⟩ | ⟨-, rfl⟩⟩ := setPending_mem hb'
    · exact ⟨b, hb, rfl, .inl rfl⟩
    · exact ⟨b', hb, rfl, .inr rfl⟩
  · exact setPending_ids h
  intro association endpoint hendpoint i sent hholds hunaccepted
  obtain ⟨b, hb, htag, hother⟩ := h.other_owner hsettled hendpoint hholds hunaccepted
  refine ⟨b, mem_map.mpr ⟨b, hb, if_neg fun heq => ?_⟩, htag⟩
  exact hother (h.ids b hb entry hmem (heq.trans hid.symm))

theorem Inv.withdraw :
    Inv { node with bearers := node.bearers.filter fun entry => entry.id != id } := by
  obtain ⟨hmem, hid⟩ := bearer?_some hentry
  apply h.withBearers
  · intro b hb
    exact ⟨b, mem_of_mem_filter hb, rfl, .inr rfl⟩
  · intro b hb b' hb'
    exact h.ids b (mem_of_mem_filter hb) b' (mem_of_mem_filter hb')
  intro association endpoint hendpoint i sent hholds hunaccepted
  obtain ⟨b, hb, htag, hother⟩ := h.other_owner hsettled hendpoint hholds hunaccepted
  refine ⟨b, mem_filter.mpr ⟨hb, bne_iff_ne.mpr fun heq => ?_⟩, htag⟩
  exact hother (h.ids b hb entry hmem (heq.trans hid.symm))

end

/-- After an acceptance the tag is settled. -/
theorem Inv.settled (tag : PacketAcceptance) :
    (node.recordPacketAcceptance (some tag)).Settled tag := by
  intro endpoint' hendpoint' i sent hholds hnumber
  obtain ⟨endpoint, hendpoint, ⟨-, rfl⟩ | ⟨hne, -⟩⟩ := onAssociation_some hendpoint'
  · exact accepted_of_packetSubmissionAccepted (h.distinct _ endpoint hendpoint) hholds hnumber
  · exact absurd rfl hne

/-- A bearer takes the packet on top of the stack into its empty slot. -/
theorem Inv.retain (hegress : node.egress = egress :: rest) (hentry : node.bearer? id = some entry)
    (hempty : entry.pending = none) :
    Inv (setPending { node with egress := rest } id (some (egress.packet, egress.acceptance))) := by
  obtain ⟨hmem, hid⟩ := bearer?_some hentry
  have htop : egress ∈ node.egress := hegress ▸ mem_cons_self
  have hrest : ∀ g ∈ rest, g ∈ node.egress := fun g hg => hegress ▸ mem_cons_of_mem egress hg
  have hstacked := h.stacked
  rw [hegress, pairwise_cons] at hstacked
  -- every bearer either holds what it held, or is this one with the packet on top
  have hcases : ∀ b' ∈ (setPending { node with
      egress := rest } id (some (egress.packet, egress.acceptance))).bearers,
      b' = ⟨id, some (egress.packet, egress.acceptance)⟩ ∨ b' ∈ node.bearers ∧ b'.id ≠ id := by
    intro b' hb'
    obtain ⟨b, hb, -, ⟨hsame, rfl⟩ | ⟨hne, rfl⟩⟩ := setPending_mem hb'
    · exact .inl (by rw [hsame])
    · exact .inr ⟨hb, hne⟩
  have hkept : ∀ b ∈ node.bearers, b.id ≠ id →
      b ∈ (setPending { node with
        egress := rest } id (some (egress.packet, egress.acceptance))).bearers :=
    fun b hb hne => mem_map.mpr ⟨b, hb, if_neg hne⟩
  refine ⟨h.live, h.distinct, ?_, ?_, ?_, ?_, ?_, ?_, hstacked.2, ?_⟩
  · intro b hb b' hb' heq
    rcases hcases b hb with rfl | ⟨hb, hne⟩
    · rcases hcases b' hb' with rfl | ⟨hb', hne'⟩
      · rfl
      · exact absurd heq.symm hne'
    rcases hcases b' hb' with rfl | ⟨hb', hne'⟩
    · exact absurd heq hne
    · exact h.ids b hb b' hb' heq
  · intro b hb
    rcases hcases b hb with rfl | ⟨hb, -⟩
    · exact hid ▸ h.registered entry hmem
    · exact h.registered b hb
  · intro b hb packet tag hpending
    rcases hcases b hb with rfl | ⟨hb, -⟩
    · obtain ⟨rfl, htag⟩ := Prod.mk.inj (some.inj hpending)
      exact (h.built egress htop tag htag).carry le_rfl fun _ he => he
    · exact (h.pending b hb packet tag hpending).carry le_rfl fun _ he => he
  · intro g hg tag htag
    exact (h.built g (hrest g hg) tag htag).carry le_rfl fun _ he => he
  · intro b hb b' hb' tag htag htag'
    rcases hcases b hb with rfl | ⟨hb, hne⟩
    · rcases hcases b' hb' with rfl | ⟨hb', -⟩
      · rfl
      · exact absurd htag (h.waiting b' hb' egress htop tag htag')
    rcases hcases b' hb' with rfl | ⟨hb', -⟩
    · exact absurd htag' (h.waiting b hb egress htop tag htag)
    · exact h.apart b hb b' hb' tag htag htag'
  · intro b hb g hg tag htag
    rcases hcases b hb with rfl | ⟨hb, -⟩
    · exact hstacked.1 g hg tag htag
    · exact h.waiting b hb g (hrest g hg) tag htag
  · intro association endpoint hendpoint i sent hholds hunaccepted
    obtain ⟨b, hb, htag⟩ := h.owned association endpoint hendpoint i sent hholds hunaccepted
    refine ⟨b, hkept b hb fun heq => ?_, htag⟩
    -- this bearer held nothing, so it owned nothing
    obtain rfl := h.ids b hb entry hmem (heq.trans hid.symm)
    rw [RegisteredBearer.tag, hempty] at htag
    cases htag

/-! ### The steps -/

theorem Inv.withEgress {egress' : List NodeEgress} (hsub : egress'.Sublist node.egress) :
    Inv { node with egress := egress' } := by
  refine ⟨h.live, h.distinct, h.ids, h.registered, ?_, ?_, h.apart, ?_, h.stacked.sublist hsub,
    h.owned⟩
  · intro b hb packet tag hpending
    exact (h.pending b hb packet tag hpending).carry le_rfl fun _ he => he
  · intro g hg tag htag
    exact (h.built g (hsub.subset hg) tag htag).carry le_rfl fun _ he => he
  · intro b hb g hg
    exact h.waiting b hb g (hsub.subset hg)

/-- A packet that takes the next number of its association has a tag that is on no other packet. -/
theorem Inv.push (hproper : ∀ tag, egress.acceptance = some tag → node.Proper egress.packet tag)
    (hbearers : ∀ b ∈ node.bearers, ∀ tag, b.tag = some tag → egress.acceptance ≠ some tag)
    (hegress : ∀ g ∈ node.egress, ∀ tag, egress.acceptance = some tag → g.acceptance ≠ some tag) :
    Inv { node with egress := egress :: node.egress } := by
  refine ⟨h.live, h.distinct, h.ids, h.registered, ?_, ?_, h.apart, ?_, ?_, h.owned⟩
  · intro b hb packet tag hpending
    exact (h.pending b hb packet tag hpending).carry le_rfl fun _ he => he
  · intro g hg tag htag
    rcases mem_cons.mp hg with rfl | hg
    · exact (hproper tag htag).carry le_rfl fun _ he => he
    · exact (h.built g hg tag htag).carry le_rfl fun _ he => he
  · intro b hb g hg tag htag
    rcases mem_cons.mp hg with rfl | hg
    · exact hbearers b hb tag htag
    · exact h.waiting b hb g hg tag htag
  · exact pairwise_cons.mpr ⟨hegress, h.stacked⟩

end

theorem onAssociation_eq
    (h : node.associations association = some endpoint) (f : EndpointState P → EndpointState P) :
    { node with associations := update node.associations association (some (f endpoint)) } =
      node.onAssociation association f := by
  rw [onAssociation, h, map_some]

theorem isOutcome_ne {op : Op} (h : isOutcome op = false) :
    ∀ packetNumber, op ≠ .packetSubmissionBlocked packetNumber := by
  rintro packetNumber rfl
  cases h

section

variable (h : Inv node)
include h

theorem Inv.call (association : Nat) (op : Op) : Inv (node.call association op) := by
  unfold State.call
  split
  · exact h
  rename_i endpoint hendpoint
  split_ifs with houtcome
  · exact h
  have hop := isOutcome_ne (Bool.eq_false_iff.mpr houtcome)
  extract_lets outcome node'
  have hnode' : node' = node.onAssociation association fun e => e.step op :=
    onAssociation_eq hendpoint fun e => e.step op
  have hinv : Inv node' := by
    rw [hnode']
    exact h.follow fun e => e.step_follows hop
  split
  · rename_i packet hresult
    -- the packet reads back with the number that it used up
    obtain ⟨header, len, hdecode, hnumber, hheader⟩ := apply_read_back hresult
    have hlive : node'.associations association = some (endpoint.step op) := update_self ..
    have htag : node'.packetAcceptanceFor association packet =
        some ⟨association, endpoint.nextPacketNumber⟩ := by
      rw [packetAcceptanceFor, hlive]
      simp only [bind_eq_bind, bind_some, hdecode, Except.toOption]
      rw [hnumber]
    have hfresh : ∀ packet' tag, node.Proper packet' tag →
        (⟨association, endpoint.nextPacketNumber⟩ : PacketAcceptance) ≠ tag := by
      rintro packet' tag hproper rfl
      exact lt_irrefl _ (hproper.used endpoint hendpoint)
    have hbelow := (apply_emits hresult).2
    apply hinv.push
    · intro tag hsome
      obtain rfl := some.inj (htag.symm.trans hsome)
      refine ⟨h.live association endpoint hendpoint, fun e he => ?_, hheader⟩
      obtain rfl := some.inj (hlive.symm.trans he)
      rw [hbelow]
      exact lt_succ_self _
    · intro b hb tag hpending hsome
      obtain rfl := some.inj (htag.symm.trans hsome)
      obtain ⟨⟨packet', acceptance⟩, hp, rfl⟩ := bind_eq_some_iff.mp hpending
      exact hfresh packet' _ (h.pending b hb packet' _ hp) rfl
    · intro g hg tag hsome hbuilt
      obtain rfl := some.inj (htag.symm.trans hsome)
      exact hfresh g.packet _ (h.built g hg _ hbuilt) rfl
  · exact hinv

theorem Inv.insert (role : Role) (limits : ConnectionLimits) (maxPacketSize historyCapacity : Nat) :
    Inv (node.step (.insert role limits maxPacketSize historyCapacity)) := by
  have hcases : ∀ association endpoint,
      (node.step (.insert role limits maxPacketSize historyCapacity)).associations association =
        some endpoint →
      association = node.nextAssociation ∧
        endpoint = .newWithHistoryCapacity P role limits maxPacketSize historyCapacity ∨
      association ≠ node.nextAssociation ∧ node.associations association = some endpoint := by
    intro association endpoint hendpoint
    change update _ _ _ _ = _ at hendpoint
    by_cases heq : association = node.nextAssociation
    · subst heq
      rw [update_self] at hendpoint
      exact .inl ⟨rfl, (some.inj hendpoint).symm⟩
    · rw [update_of_ne heq] at hendpoint
      exact .inr ⟨heq, hendpoint⟩
  have hempty : ∀ i sent,
      ¬(newWithHistoryCapacity P role limits maxPacketSize historyCapacity).Holds i sent := by
    intro i sent hholds
    have hmem : some sent ∈ replicate _ none := mem_of_getElem? hholds
    cases eq_of_mem_replicate hmem
  have hproper : ∀ packet tag, node.Proper packet tag →
      (node.step (.insert role limits maxPacketSize historyCapacity)).Proper packet tag := by
    intro packet tag hproper
    apply hproper.carry (le_succ _)
    intro e he
    rcases hcases _ e he with ⟨heq, -⟩ | ⟨-, he⟩
    · exact absurd heq hproper.issued.ne
    · exact he
  refine ⟨?_, ?_, h.ids, h.registered, fun b hb packet tag hp =>
    hproper packet tag (h.pending b hb packet tag hp), fun g hg tag ht =>
      hproper g.packet tag (h.built g hg tag ht), h.apart, h.waiting, h.stacked, ?_⟩
  · intro association endpoint hendpoint
    rcases hcases association endpoint hendpoint with ⟨rfl, -⟩ | ⟨-, hold⟩
    · exact lt_succ_self _
    · exact (h.live association endpoint hold).trans (lt_succ_self _)
  · intro association endpoint hendpoint
    rcases hcases association endpoint hendpoint with ⟨-, rfl⟩ | ⟨-, hold⟩
    · exact ⟨fun i sent hholds => absurd hholds (hempty i sent), fun i j a b ha =>
        absurd ha (hempty i a)⟩
    · exact h.distinct association endpoint hold
  intro association endpoint hendpoint i sent hholds hunaccepted
  rcases hcases association endpoint hendpoint with ⟨-, rfl⟩ | ⟨-, hold⟩
  · exact absurd hholds (hempty i sent)
  · exact h.owned association endpoint hold i sent hholds hunaccepted

theorem Inv.remove (association : Nat) :
    Inv { node with associations := update node.associations association none } := by
  have hold : ∀ other endpoint, update node.associations association none other = some endpoint →
      node.associations other = some endpoint := by
    intro other endpoint hendpoint
    by_cases heq : other = association
    · subst heq
      rw [update_self] at hendpoint
      cases hendpoint
    · rwa [update_of_ne heq] at hendpoint
  refine ⟨fun a e he => h.live a e (hold a e he), fun a e he => h.distinct a e (hold a e he), h.ids,
    h.registered, ?_, ?_, h.apart, h.waiting, h.stacked, fun a e he => h.owned a e (hold a e he)⟩
  · intro b hb packet tag hpending
    exact (h.pending b hb packet tag hpending).carry le_rfl (hold tag.association)
  · intro g hg tag htag
    exact (h.built g hg tag htag).carry le_rfl (hold tag.association)

theorem Inv.register : Inv (node.step .register) := by
  have hcases : ∀ b ∈ (node.step .register).bearers, b = ⟨node.nextBearer, none⟩ ∨
      b ∈ node.bearers := by
    intro b hb
    rcases mem_append.mp hb with hb | hb
    · exact .inr hb
    · exact .inl (mem_singleton.mp hb)
  refine ⟨h.live, h.distinct, ?_, ?_, ?_, ?_, ?_, ?_, h.stacked, ?_⟩
  · intro b hb b' hb' heq
    rcases hcases b hb with rfl | hb
    · rcases hcases b' hb' with rfl | hb'
      · rfl
      · exact absurd heq (h.registered b' hb').ne'
    rcases hcases b' hb' with rfl | hb'
    · exact absurd heq (h.registered b hb).ne
    · exact h.ids b hb b' hb' heq
  · intro b hb
    rcases hcases b hb with rfl | hb
    · exact lt_succ_self _
    · exact (h.registered b hb).trans (lt_succ_self _)
  · intro b hb packet tag hpending
    rcases hcases b hb with rfl | hb
    · cases hpending
    · exact (h.pending b hb packet tag hpending).carry le_rfl fun _ he => he
  · intro g hg tag htag
    exact (h.built g hg tag htag).carry le_rfl fun _ he => he
  · intro b hb b' hb' tag htag htag'
    rcases hcases b hb with rfl | hb
    · cases htag
    rcases hcases b' hb' with rfl | hb'
    · cases htag'
    · exact h.apart b hb b' hb' tag htag htag'
  · intro b hb g hg tag htag
    rcases hcases b hb with rfl | hb
    · cases htag
    · exact h.waiting b hb g hg tag htag
  · intro association endpoint hendpoint i sent hholds hunaccepted
    obtain ⟨b, hb, htag⟩ := h.owned association endpoint hendpoint i sent hholds hunaccepted
    exact ⟨b, mem_append_left _ hb, htag⟩

theorem Inv.submitNodePacket (hegress : node.egress = egress :: rest) (bearer : Nat)
    (verdict : Verdict) :
    Inv (submitNodePacket { node with egress := rest } egress bearer verdict) := by
  have hpopped : Inv { node with egress := rest } :=
    h.withEgress (hegress ▸ sublist_cons_self egress rest)
  unfold State.submitNodePacket
  split
  · exact hpopped.recordPacketSendFailure egress.acceptance
  rename_i entry hentry
  split_ifs with hbusy
  · exact hpopped.recordPacketSendFailure egress.acceptance
  cases verdict with
  | accepted => exact hpopped.recordPacketAcceptance egress.acceptance
  | wouldBlock =>
    have hempty : entry.pending = none := not_isSome_iff_eq_none.mp hbusy
    apply (h.retain hegress hentry hempty).recordPacketBlocked
    intro tag htag
    obtain ⟨hmem, hid⟩ := bearer?_some hentry
    exact ⟨_, mem_map.mpr ⟨entry, hmem, if_pos hid⟩, htag⟩

theorem Inv.retryPending (bearer : Nat) (verdict : Verdict) :
    Inv (node.retryPending bearer verdict) := by
  unfold State.retryPending
  split
  · exact h
  rename_i entry hentry
  split
  · rename_i packet acceptance hpending
    -- accept first, let go then: the two do not touch the same part of the node
    have hswap : (node.setPending bearer none).recordPacketAcceptance acceptance =
        (node.recordPacketAcceptance acceptance).setPending bearer none := by
      cases acceptance <;> rfl
    have hfound : (node.recordPacketAcceptance acceptance).bearer? bearer = some entry := by
      cases acceptance <;> exact hentry
    rw [hswap]
    apply (h.recordPacketAcceptance acceptance).release hfound
    intro tag htag
    rw [RegisteredBearer.tag, hpending] at htag
    obtain rfl : acceptance = some tag := htag
    exact h.settled tag
  · exact h

theorem Inv.suspendPaths (paths : List (Nat × Nat)) : Inv (node.suspendPaths paths) := by
  induction paths generalizing node with
  | nil => exact h
  | cons entry paths ih =>
    obtain ⟨association, pathId⟩ := entry
    apply ih
    apply h.follow
    intro e
    have hsuspend : e.Follows (e.step (.suspendPath pathId)) := by
      apply e.step_follows
      rintro _ ⟨⟩
    exact hsuspend.trans (.of_slots rfl le_rfl)

end

/-- The bearer holds the packet of a record that is still unaccepted. -/
def holdsUnaccepted (node : State P) (id : Nat) : Bool :=
  (node.bearer? id).any fun entry => entry.tag.any fun tag =>
    (node.associations tag.association).any fun endpoint =>
    endpoint.records.any fun sent => sent.packetNumber == tag.packetNumber && !sent.accepted

theorem settled_of_holdsUnaccepted
    (h : node.holdsUnaccepted id = false) (hentry : node.bearer? id = some entry) :
    ∀ tag, entry.tag = some tag → node.Settled tag := by
  intro tag htag endpoint hendpoint i sent hholds hnumber
  rw [holdsUnaccepted, hentry, any_some, htag, any_some, hendpoint, any_some,
    List.any_eq_false] at h
  have := h sent (mem_records.mpr ⟨i, hholds⟩)
  simpa [hnumber] using this

/-- No bearer is removed while it holds the packet of an unaccepted record. -/
def Keeps (node : State P) : Step → Prop
  | .removeBearer id _ => node.holdsUnaccepted id = false
  | _ => True

instance (node : State P) : (step : Step) → Decidable (node.Keeps step)
  | .removeBearer id _ => inferInstanceAs (Decidable (node.holdsUnaccepted id = false))
  | .insert .. | .remove _ | .call .. | .submit .. | .discard | .ready .. | .completed ..
  | .register | .advanceClock _ => isTrue trivial

theorem Inv.step (h : Inv node) {step : Step} (hkeeps : node.Keeps step) :
    Inv (node.step step) := by
  cases step with
  | insert => exact h.insert ..
  | remove => exact h.remove ..
  | call => exact h.call ..
  | submit bearer verdict =>
    show Inv (match node.egress with
      | [] => node
      | egress :: rest => .submitNodePacket { node with egress := rest } egress bearer verdict)
    split
    · exact h
    · rename_i egress rest hegress
      exact h.submitNodePacket hegress bearer verdict
  | discard => exact h.withEgress (tail_sublist _)
  | ready => exact h.retryPending ..
  | completed acceptance failed =>
    show Inv (if failed then node.recordPacketSendFailure acceptance else node)
    split
    · exact h.recordPacketSendFailure acceptance
    · exact h
  | register => exact h.register
  | removeBearer id suspended =>
    show Inv (node.removeBearer id suspended)
    unfold removeBearer
    split_ifs with hsome
    · obtain ⟨entry, hentry⟩ := isSome_iff_exists.mp hsome
      exact (h.withdraw hentry (settled_of_holdsUnaccepted hkeeps hentry)).suspendPaths suspended
    · exact h
  | advanceClock nowUs =>
    refine ⟨h.live, h.distinct, h.ids, h.registered, ?_, ?_, h.apart, h.waiting, h.stacked, h.owned⟩
    · intro b hb packet tag hpending
      exact (h.pending b hb packet tag hpending).carry le_rfl fun _ he => he
    · intro g hg tag htag
      exact (h.built g hg tag htag).carry le_rfl fun _ he => he

/-- While no bearer is removed under an unaccepted record, every unaccepted record is owned by
exactly one bearer. -/
theorem unaccepted_owned {steps : List Step} (hrun : Runs.Along step Keeps (new P) steps) :
    (Runs.exec step (new P) steps).Owned :=
  (hrun.invariant (P := Inv) (fun _ _ h hkeeps => h.step hkeeps) inv_new).unique_owner

/-- Some record of the association is not accepted. -/
def hasUnaccepted (node : State P) (association : Nat) : Bool :=
  (node.associations association).any fun endpoint => endpoint.records.any fun sent =>
    !sent.accepted

/-- A client whose first stream packet is blocked by its only bearer. -/
def blockedRun : List Step :=
  [.register, .insert .client ⟨1000, 100000, 50000, 16, 4⟩ 1100 4,
    .call 0 (.config (.installConnectionIds clientId serverId)),
    .call 0 (.openSendStream 4 50000),
      .call 0 (.encodeStreamPacket 0 serverId ⟨4, 0, false, [1, 2, 3]⟩ 1100),
    .submit 1 .wouldBlock]

/-- The packet is accepted on a retry and the next one is blocked by a second bearer, while the
first is removed. -/
def handoverRun : List Step :=
  blockedRun ++ [.ready 1 .accepted, .register,
    .call 0 (.encodeStreamPacket 0 serverId ⟨4, 3, false, [4, 5]⟩ 1100),
      .submit 2 .wouldBlock,
    .removeBearer 1 [(0, 0)]]

theorem handoverRun_owned : (Runs.exec step (new 1100) handoverRun).hasUnaccepted 0 = true ∧
      (Runs.exec step (new 1100) handoverRun).Owned := by
  refine ⟨by decide +kernel, unaccepted_owned ?_⟩
  decide +kernel

/-- Where the blocking bearer itself is removed, the record stays unaccepted and no bearer is left
to report on it. -/
theorem removed_bearer_unowned :
    ¬(Runs.exec step (new 1100) (blockedRun ++ [.removeBearer 1 [(0, 0)]])).Owned := by
  intro howned
  have hunaccepted : (Runs.exec step (.new 1100)
      (blockedRun ++ [.removeBearer 1 [(0, 0)]])).hasUnaccepted 0 =
      true := by decide +kernel
  obtain ⟨endpoint, hendpoint, hany⟩ := (any_eq_true _ _).mp hunaccepted
  obtain ⟨sent, hsent, hopen⟩ := any_eq_true.mp hany
  obtain ⟨b, ⟨hb, -⟩, -⟩ := howned 0 endpoint hendpoint sent hsent (by simpa using hopen)
  have hnone : (Runs.exec step (.new 1100)
      (blockedRun ++ [.removeBearer 1 [(0, 0)]])).bearers.isEmpty = true := by
    decide +kernel
  cases hb

end State

end BearerNode

end QuicLite
