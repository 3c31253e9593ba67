import QuicLite.Endpoint.Refusals

/-!
# What a refused stream write consumes

A stream packet is checked, paced, charged to the credit of its stream, to the flight and to the
send order of its path, in this order. Up to the pacing check a refusal leaves the refill and
nothing else. A refusal by one of the later steps keeps what the earlier ones took: the credit of
the stream is asked for only after the pacing tokens were spent, and the send order after credit and
flight were.
-/

namespace QuicLite

open PathState Bool Nat

namespace PathState

/-- A path after the refill for its clock reading, or before it, with any deadline. -/
inductive Refilled (p : PathState) : PathState → Prop where
  | kept (deadline : Option Nat) : Refilled p { p with pacingDeadlineUs := deadline }
  | filled (deadline : Option Nat) :
      Refilled p { p.refillPacing p.sendClock with pacingDeadlineUs := deadline }

variable {p : PathState} {packetBytes nowUs : Nat}

theorem refillPacing_le_last (p : PathState) (nowUs : Nat) :
    nowUs ≤ (p.refillPacing nowUs).pacingLastRefillUs := by
  unfold refillPacing
  extract_lets elapsed
  split
  · omega
  · exact le_refl _

/-- At one clock reading the tokens are refilled once. -/
theorem refillPacing_idle (h : nowUs ≤ p.pacingLastRefillUs) : p.refillPacing nowUs = p := by
  unfold refillPacing
  exact if_pos (by omega)

/-- Both buckets hold what a packet costs. -/
def Pays (p : PathState) (packetBytes : Nat) : Prop :=
  satMul packetBytes (2 ^ 16) ≤ p.pacingByteTokensQ16 ∧ 2 ^ 16 ≤ p.pacingPacketTokensQ16

theorem canSendPaced_pays (h : p.pacingConfig.enabled = true)
    (hpays : (p.refillPacing nowUs).Pays packetBytes) : p.canSendPaced packetBytes nowUs =
      ({ p.refillPacing nowUs with pacingDeadlineUs := none }, true) := by
  obtain ⟨deadline, heq⟩ := canSendPaced_enabled h packetBytes nowUs
  have hbytes := Nat.sub_eq_zero_of_le hpays.1
  have hpackets := Nat.sub_eq_zero_of_le hpays.2
  exact heq.trans (if_neg fun hlack => hlack.elim (fun h => h hbytes) fun h => h hpackets)

theorem canSendPaced_short (h : p.pacingConfig.enabled = true)
    (hshort : ¬(p.refillPacing nowUs).Pays packetBytes) :
    ∃ deadline, p.canSendPaced packetBytes nowUs =
      ({ p.refillPacing nowUs with pacingDeadlineUs := some deadline }, false) := by
  obtain ⟨deadline, heq⟩ := canSendPaced_enabled h packetBytes nowUs
  refine ⟨deadline, heq.trans (if_pos ?_)⟩
  by_contra hnone
  obtain ⟨hbytes, hpackets⟩ := not_or.mp hnone
  exact hshort ⟨Nat.le_of_sub_eq_zero (not_not.mp hbytes),
    Nat.le_of_sub_eq_zero (not_not.mp hpackets)⟩

theorem canSendPaced_refilled (p : PathState) (packetBytes : Nat) :
    Refilled p (p.canSendPaced packetBytes p.sendClock).1 := by
  cases h : p.pacingConfig.enabled with
  | false =>
    rw [canSendPaced_disabled h]
    exact .kept none
  | true =>
    by_cases hpays : (p.refillPacing p.sendClock).Pays packetBytes
    · rw [canSendPaced_pays h hpays]
      exact .filled none
    obtain ⟨deadline, heq⟩ := canSendPaced_short h hpays
    rw [heq]
    exact .filled (some deadline)

/-- A packet that was let through is let through again at the same clock reading, and then
charged. -/
theorem tryReservePacing_of_paced (henabled : p.pacingConfig.enabled = true)
    (h : (p.canSendPaced packetBytes nowUs).2 = true) : (p.refillPacing nowUs).Pays packetBytes ∧
    (p.canSendPaced packetBytes nowUs).1.tryReservePacing packetBytes nowUs =
      ({ p.refillPacing nowUs with
          pacingDeadlineUs := none
          pacingByteTokensQ16 := (p.refillPacing nowUs).pacingByteTokensQ16 - satMul packetBytes
            (2 ^ 16)
          pacingPacketTokensQ16 := (p.refillPacing nowUs).pacingPacketTokensQ16 - 2 ^ 16 },
            true) := by
  have hpays : (p.refillPacing nowUs).Pays packetBytes := by
    by_contra hshort
    obtain ⟨deadline, heq⟩ := canSendPaced_short henabled hshort
    rw [heq] at h
    cases h
  refine ⟨hpays, ?_⟩
  rw [canSendPaced_pays henabled hpays]
  obtain ⟨q, hq⟩ : ∃ q : PathState, q = { p.refillPacing nowUs with pacingDeadlineUs := none } :=
    ⟨_, rfl⟩
  rw [show ({ p.refillPacing nowUs with pacingDeadlineUs := none }, true).1 = q from hq.symm]
  have hconfig : q.pacingConfig.enabled = true := by
    rw [hq]
    show (p.refillPacing nowUs).pacingConfig.enabled = true
    obtain ⟨_, _, _, _, hfilled⟩ := refillPacing_repaced p nowUs
    rw [hfilled]
    exact henabled
  -- The clock reading is the one of the last refill, so nothing is added.
  have hidle : q.refillPacing nowUs = q := by
    refine refillPacing_idle ?_
    rw [hq]
    exact p.refillPacing_le_last nowUs
  have hagain : q.canSendPaced packetBytes nowUs = (q, true) := by
    rw [canSendPaced_pays hconfig (by rw [hidle, hq]; exact hpays), hidle, hq]
  rw [tryReservePacing, hagain]
  simp only [hconfig, if_true]
  rw [hq]

theorem tryReservePacing_of_unpaced (h : p.pacingConfig.enabled = false) :
    (p.canSendPaced packetBytes nowUs).1.tryReservePacing packetBytes nowUs =
      ({ p with pacingDeadlineUs := none }, true) := by
  rw [canSendPaced_disabled h, tryReservePacing,
    canSendPaced_disabled (p := { p with pacingDeadlineUs := none }) h]
  simp [h]

theorem Refilled.congestion {p' : PathState} (h : Refilled p p') :
    p'.congestion = p.congestion := by
  cases h with
  | kept deadline => rfl
  | filled deadline =>
    show (p.refillPacing p.sendClock).congestion = p.congestion
    obtain ⟨_, _, _, _, hfilled⟩ := refillPacing_repaced p p.sendClock
    rw [hfilled]
    rfl

/-- A refilled path is told from one that was charged: the charge takes a packet's tokens and moves
the last refill only where the refill itself moves it. -/
theorem refilled_charged (congestion : CongestionController)
    (h : (p.canSendPaced packetBytes p.sendClock).2 = true) :
    Refilled p { ((p.canSendPaced packetBytes p.sendClock).1.tryReservePacing packetBytes
      p.sendClock).1 with
        congestion := congestion } ↔
      p.pacingConfig.enabled = false ∧ congestion = p.congestion := by
  cases henabled : p.pacingConfig.enabled with
  | false =>
    rw [tryReservePacing_of_unpaced henabled]
    constructor
    · intro hrefilled
      exact ⟨rfl, hrefilled.congestion⟩
    · rintro ⟨-, rfl⟩
      exact .kept none
  | true =>
    obtain ⟨hpays, heq⟩ := tryReservePacing_of_paced henabled h
    rw [heq]
    have hcost : 2 ^ 16 ≤ (p.refillPacing p.sendClock).pacingPacketTokensQ16 := hpays.2
    -- What is left in the buckets stays a name: only the one of packets matters, which is not what
    -- it was.
    obtain ⟨bytes, hbytes⟩ : ∃ bytes,
        (p.refillPacing p.sendClock).pacingByteTokensQ16 - satMul packetBytes (2 ^ 16) =
          bytes := ⟨_, rfl⟩
    obtain ⟨packets, hpackets⟩ : ∃ packets,
        (p.refillPacing p.sendClock).pacingPacketTokensQ16 - 2 ^ 16 = packets := ⟨_, rfl⟩
    rw [hbytes, hpackets]
    refine iff_of_false ?_ (fun h => by cases h.1)
    intro hrefilled
    generalize htarget : ({ p.refillPacing p.sendClock with
      pacingDeadlineUs := none
      pacingByteTokensQ16 := bytes
      pacingPacketTokensQ16 := packets
      congestion := congestion } : PathState) = target at hrefilled
    have htokens : packets = target.pacingPacketTokensQ16 := by rw [← htarget]
    have hlast : (p.refillPacing p.sendClock).pacingLastRefillUs = target.pacingLastRefillUs := by
      rw [← htarget]
    cases hrefilled with
    | kept deadline =>
      have hidle : p.refillPacing p.sendClock = p :=
        refillPacing_idle (le_trans (p.refillPacing_le_last p.sendClock) (le_of_eq hlast))
      rw [hidle] at hpackets hcost
      have hsame : packets = p.pacingPacketTokensQ16 := htokens
      omega
    | filled deadline =>
      have hsame : packets = (p.refillPacing p.sendClock).pacingPacketTokensQ16 := htokens
      omega

/-- A charge that was let through takes tokens only. -/
theorem tryReservePacing_paced (h : (p.canSendPaced packetBytes p.sendClock).2 = true) :
    let reserved := (p.canSendPaced packetBytes p.sendClock).1.tryReservePacing packetBytes
      p.sendClock
    reserved.2 = true ∧ reserved.1.congestion = p.congestion ∧
      reserved.1.nextSendOrder = p.nextSendOrder := by
  have hunpaced := (tryReservePacing_unpaced (p.canSendPaced packetBytes p.sendClock).1 packetBytes
    p.sendClock).trans
    (p.canSendPaced_unpaced packetBytes p.sendClock)
  have hflight := congrArg congestion hunpaced
  have horders := congrArg nextSendOrder hunpaced
  refine ⟨?_, hflight, horders⟩
  cases henabled : p.pacingConfig.enabled with
  | false => rw [tryReservePacing_of_unpaced henabled]
  | true => rw [(tryReservePacing_of_paced henabled h).2]

end PathState

namespace SendFlowControl

/-- Credit is refused for want of it, and for nothing else. -/
theorem reserved_isOk {send : SendFlowControl} {id offset len : Nat} :
    (∃ send', send.reserved id offset len = .ok send') ↔ send.canSend id offset len = true := by
  cases hcan : send.canSend id offset len with
  | false =>
    refine iff_of_false ?_ false_ne_true
    rw [send.reserved_of_refused hcan]
    rintro ⟨_, ⟨⟩⟩
  | true =>
    obtain ⟨stream, hstream⟩ := send.stream_of_canSend hcan
    exact iff_of_true ⟨_, send.reserved_of_granted hcan hstream⟩ rfl

end SendFlowControl

namespace EndpointState

variable {P : Nat} {s : EndpointState P} {pathId : Nat}

/-- The endpoint is unchanged but for the refill of one path at its own clock reading. -/
def UpToRefill (s s' : EndpointState P) (pathId : Nat) : Prop :=
  s' = s ∨ ∃ path, (s.pathAt pathId).Refilled path ∧ s' = s.setPath pathId path

/-! ## The late refusals -/

/-- A planned packet that pacing and the packet numbers let through. -/
structure Clears (s : EndpointState P) (pathId : Nat) (plan : StreamPlan) : Prop where
  paced : ((s.pathAt pathId).canSendPaced plan.packet.bytes.length (s.pathAt pathId).sendClock).2 =
    true
  number : s.nextPacketNumber < u32Max

/-- Its stream has no credit for it, and its pacing tokens are spent when it asks. -/
structure ChargedInVain (s : EndpointState P) (pathId : Nat) (frame : StreamFrame)
    (plan : StreamPlan) : Prop
    extends Clears s pathId plan where
  pacing : (s.pathAt pathId).pacingConfig.enabled = true
  credit : s.send.canSend frame.id frame.offset frame.data.length = false

/-- Its path has run out of send orders, which it learns with its tokens, its credit or its flight
taken. -/
structure OrderExhausted (s : EndpointState P) (pathId : Nat) (frame : StreamFrame)
    (plan : StreamPlan) : Prop
    extends Clears s pathId plan where
  order : u64Max ≤ (s.pathAt pathId).nextSendOrder
  credit : s.send.canSend frame.id frame.offset frame.data.length = true
  taken : (s.pathAt pathId).pacingConfig.enabled = true ∨
    s.send.reserved frame.id frame.offset frame.data.length ≠ .ok s.send ∨
    (s.pathAt pathId).congestion.onRetransmissionSent plan.packet.bytes.length ≠
      (s.pathAt pathId).congestion

section Reserving

variable {s : EndpointState P} {pathId : Nat} {frame : StreamFrame} {plan : StreamPlan}

section

variable (hpath : pathId < s.paths.length)
variable {path : PathState}
include hpath

theorem pathAt_setPath : (s.setPath pathId path).pathAt pathId = path := by
  rw [pathAt, setPath, List.getD_eq_getElem?_getD, List.getElem?_set_self hpath]
  rfl

theorem upToRefill_setPath (send : SendFlowControl) :
    UpToRefill s ({ s with send := send : EndpointState P }.setPath pathId path) pathId ↔
      send = s.send ∧ (s.pathAt pathId).Refilled path := by
  have hset : ({ s with send := send : EndpointState P }.setPath pathId path).pathAt
    pathId = path :=
    pathAt_setPath (s := { s with send := send : EndpointState P }) hpath
  constructor
  · rintro (heq | ⟨path', hrefilled, heq⟩)
    · rw [heq] at hset
      rw [← hset]
      exact ⟨congrArg EndpointState.send heq, .kept (s.pathAt pathId).pacingDeadlineUs⟩
    have hpath' : path' = path := by
      rw [← hset, heq]
      exact (pathAt_setPath hpath).symm
    exact ⟨congrArg EndpointState.send heq, hpath' ▸ hrefilled⟩
  · rintro ⟨rfl, hrefilled⟩
    exact .inr ⟨path, hrefilled, rfl⟩

/-- A planned packet is refused without a trace unless it was charged in vain or its path is out of
orders. -/
theorem reserveStream_keeps
    (hroom : (s.pathAt pathId).congestion.canSend plan.packet.bytes.length = true) (retain : Bool) :
    (∀ e, (s.reserveStream pathId frame plan retain).2 = .error e →
        UpToRefill s (s.reserveStream pathId frame plan retain).1 pathId) ↔
      ¬ChargedInVain s pathId frame plan ∧ ¬OrderExhausted s pathId frame plan := by
  have hpacing := canSendPaced_refilled (s.pathAt pathId) plan.packet.bytes.length
  rw [reserveStream_eq]
  by_cases hpaced : ((s.pathAt pathId).canSendPaced plan.packet.bytes.length
    (s.pathAt pathId).sendClock).2 = false
  · rw [if_pos hpaced]
    have hblocked : ¬Clears s pathId plan := fun h => Bool.noConfusion (h.paced.symm.trans hpaced)
    exact iff_of_true (fun _ _ => (upToRefill_setPath hpath s.send).mpr ⟨rfl, hpacing⟩)
      ⟨fun h => hblocked h.toClears, fun h => hblocked h.toClears⟩
  rw [if_neg hpaced]
  by_cases hnumber : u32Max ≤ s.nextPacketNumber
  · rw [if_pos hnumber]
    have hblocked : ¬Clears s pathId plan := fun h => Nat.not_lt_of_le hnumber h.number
    exact iff_of_true (fun _ _ => (upToRefill_setPath hpath s.send).mpr ⟨rfl, hpacing⟩)
      ⟨fun h => hblocked h.toClears, fun h => hblocked h.toClears⟩
  rw [if_neg hnumber]
  have hclears : Clears s pathId plan :=
    ⟨eq_true_of_not_eq_false hpaced, Nat.lt_of_not_le hnumber⟩
  obtain ⟨hlet, hflight, horders⟩ := tryReservePacing_paced hclears.paced
  have hcharged := fun congestion => refilled_charged congestion hclears.paced
  rw [if_neg (by rw [hlet]; exact Bool.noConfusion)]
  generalize (((s.pathAt pathId).canSendPaced plan.packet.bytes.length
    (s.pathAt pathId).sendClock).1.tryReservePacing
    plan.packet.bytes.length (s.pathAt pathId).sendClock).1 = charged at *
  cases hcredit : s.send.reserved frame.id frame.offset frame.data.length with
  | error e =>
    have hcan : s.send.canSend frame.id frame.offset frame.data.length = false := by
      refine eq_false_of_not_eq_true fun h => ?_
      obtain ⟨send, hsend⟩ := SendFlowControl.reserved_isOk.mpr h
      rw [hsend] at hcredit
      cases hcredit
    constructor
    · intro hkeeps
      obtain ⟨-, hrefilled⟩ := (upToRefill_setPath hpath s.send).mp (hkeeps e rfl)
      have hunpaced := ((hcharged charged.congestion).mp hrefilled).1
      exact ⟨fun h => Bool.noConfusion (h.pacing.symm.trans hunpaced),
        fun h => Bool.noConfusion (h.credit.symm.trans hcan)⟩
    rintro ⟨hvain, -⟩ e' -
    have hunpaced : (s.pathAt pathId).pacingConfig.enabled = false :=
      eq_false_of_not_eq_true fun h => hvain ⟨hclears, h, hcan⟩
    exact (upToRefill_setPath hpath s.send).mpr
      ⟨rfl, (hcharged charged.congestion).mpr ⟨hunpaced, hflight⟩⟩
  | ok send =>
    have hcan : s.send.canSend frame.id frame.offset frame.data.length = true :=
      SendFlowControl.reserved_isOk.mp ⟨send, hcredit⟩
    have hsent : charged.congestion.onPacketSent plan.packet.bytes.length =
        some ((s.pathAt pathId).congestion.onRetransmissionSent plan.packet.bytes.length) := by
      rw [hflight, CongestionController.onPacketSent, if_pos hroom]
    have hnotVain : ¬ChargedInVain s pathId frame plan :=
      fun h => Bool.noConfusion (h.credit.symm.trans hcan)
    rw [hsent]
    by_cases horder : u64Max ≤ (s.pathAt pathId).nextSendOrder
    · have hnone : ({ charged with
          congestion := (s.pathAt pathId).congestion.onRetransmissionSent
            plan.packet.bytes.length } :
          PathState).assignSendOrder = .error .historyFull := by
        exact if_pos (horders ▸ horder)
      simp only [hnone]
      constructor
      · intro hkeeps
        obtain ⟨hsend, hrefilled⟩ := (upToRefill_setPath hpath send).mp (hkeeps _ rfl)
        obtain ⟨hunpaced, hkept⟩ := (hcharged _).mp hrefilled
        refine ⟨hnotVain, fun h => ?_⟩
        rcases h.taken with hpacing | hcharge | hgrown
        · exact Bool.noConfusion (hpacing.symm.trans hunpaced)
        · exact hcharge (by rw [hcredit, hsend])
        · exact hgrown hkept
      rintro ⟨-, hfree⟩ e' -
      obtain ⟨hunpaced, hrest⟩ := not_or.mp fun h => hfree ⟨hclears, horder, hcan, h⟩
      obtain ⟨hsend, hkept⟩ := not_or.mp hrest
      refine (upToRefill_setPath hpath send).mpr
        ⟨?_, (hcharged _).mpr ⟨eq_false_of_not_eq_true hunpaced, ?_⟩⟩
      · exact Except.ok.inj (hcredit.symm.trans (not_not.mp hsend))
      · exact not_not.mp hkept
    · -- Nothing that follows the send order can fail.
      have hassign : ({ charged with
          congestion := (s.pathAt pathId).congestion.onRetransmissionSent
            plan.packet.bytes.length } :
          PathState).assignSendOrder = .ok ({ charged with
            congestion := (s.pathAt pathId).congestion.onRetransmissionSent plan.packet.bytes.length
            nextSendOrder := charged.nextSendOrder + 1 }, charged.nextSendOrder) := by
        exact if_neg (horders ▸ horder)
      simp only [hassign]
      obtain ⟨send', hfinish⟩ := finishStream_of_isSome (reserved_stream hcredit) frame.fin
      refine iff_of_true (fun e he => ?_) ⟨hnotVain, fun h => horder h.order⟩
      rw [commitStream_of_finish hfinish] at he
      cases he

end

end Reserving

/-! ## The write -/

/-- A write on an endpoint without or with packet protection that is refused leaves nothing but the
refill behind, unless its planned packet was charged in vain or finds its path out of send
orders. -/
theorem refused_write_keeps (aead : Aead) (protection : EndpointProtection) (s : EndpointState P)
    (pathId : Nat) (dcid : ConnectionId) (frame : StreamFrame) (capacity : Nat) :
    ((∀ e, (s.encodeStreamPacketOnPath pathId dcid frame capacity).2 = .error e →
        UpToRefill s (s.encodeStreamPacketOnPath pathId dcid frame capacity).1 pathId) ↔
      ∀ plan, s.planStream pathId dcid frame capacity = .ok plan →
        ¬ChargedInVain s pathId frame plan ∧ ¬OrderExhausted s pathId frame plan) ∧
    ((∀ e, (s.encodeStreamPacketProtected aead protection pathId dcid frame capacity true).2 =
      .error e →
        UpToRefill s (s.encodeStreamPacketProtected aead protection pathId dcid frame capacity
          true).1 pathId) ↔
      ∀ plan, s.planStreamProtected aead protection pathId dcid frame capacity = .ok plan →
        ¬ChargedInVain s pathId frame plan ∧ ¬OrderExhausted s pathId frame plan) := by
  constructor
  · rw [encodeStreamPacketOnPath, encodeStreamPacketOnPathInner]
    cases hplan : s.planStream pathId dcid frame capacity with
    | error e => exact iff_of_true (fun _ _ => .inl rfl) (fun plan h => by cases h)
    | ok plan =>
      have hspec := planStream_spec hplan
      refine (reserveStream_keeps hspec.path hspec.room true).trans ?_
      exact ⟨fun h plan' heq => by cases heq; exact h, fun h => h plan rfl⟩
  rw [encodeStreamPacketProtected]
  cases hplan : s.planStreamProtected aead protection pathId dcid frame capacity with
  | error e => exact iff_of_true (fun _ _ => .inl rfl) (fun plan h => by cases h)
  | ok plan =>
    have hspec := planStreamProtected_spec hplan
    refine (reserveStream_keeps hspec.path hspec.room true).trans ?_
    exact ⟨fun h plan' heq => by cases heq; exact h, fun h => h plan rfl⟩

/-! ## A stream that was never opened -/

/-- With no time since the last refill, a refusal without a trace leaves the tokens alone. -/
theorem UpToRefill.tokens {s' : EndpointState P} (h : UpToRefill s s' pathId)
    (hpath : pathId < s.paths.length)
    (hidle : (s.pathAt pathId).sendClock ≤ (s.pathAt pathId).pacingLastRefillUs) :
    (s'.pathAt pathId).pacingPacketTokensQ16 = (s.pathAt pathId).pacingPacketTokensQ16 := by
  rcases h with rfl | ⟨path, hrefilled, rfl⟩
  · rfl
  rw [pathAt_setPath hpath]
  cases hrefilled with
  | kept deadline => rfl
  | filled deadline => rw [refillPacing_idle hidle]

def fresh : EndpointState 1024 := .newWithHistoryCapacity 1024 .client ⟨0, 1000, 1000, 4, 4⟩ 1200 4

def refusedByte : EndpointState 1024 × Except Error (Packet × Nat) :=
  fresh.encodeStreamPacketOnPath 0 serverId ⟨4, 0, false, [1]⟩ 1200

/-- The first byte for a stream that was never opened is refused, and the tokens of a packet are
gone. -/
theorem unopened_stream_charged :
    refusedByte.2 = .error .flowControl ∧ ¬UpToRefill fresh refusedByte.1 0 := by
  refine ⟨by decide +kernel, fun h => ?_⟩
  have htokens := h.tokens (by decide) (by decide)
  have hspent : (refusedByte.1.pathAt 0).pacingPacketTokensQ16 +
      65536 = (fresh.pathAt 0).pacingPacketTokensQ16 := by
    decide +kernel
  omega

end EndpointState

end QuicLite
