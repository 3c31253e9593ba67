import QuicLite.Relay.Router
import Mathlib.Data.List.Induction

/-!
# Quota windows

A forwarding rule with a quota admits packets in fixed windows, counted from its installation.
Whatever asks for admission in whatever order, each window admits at most the quota, and data leaves
a reserve to control packets: a control packet is only refused in a window that has admitted its
whole quota.
-/

namespace QuicLite

open List Nat Runs Bool

variable {Endpoint NextHop : Type} (rule : ForwardRule NextHop) {k : Nat}

/-- What a window keeps for control packets. -/
def ForwardRule.controlReserve : Nat := max (rule.packetQuota / 16) 1

/-- The length of a window. -/
def ForwardRule.windowUs : Nat := max rule.leaseDurationUs 1

/-- The window of a time. Times before the installation belong to the first. -/
def ForwardRule.windowOf (nowUs : Nat) : Nat :=
  (nowUs - rule.quotaWindowStartedUs) / rule.windowUs

/-- What `consume_forward_quota` does to a rule with a quota, and whether the packet is admitted. -/
def ForwardRule.charge (controlPacket : Bool) (nowUs : Nat) : ForwardRule NextHop × Bool :=
  let rolled := DcidRegistry.ForwardRule.rollQuotaWindow rule nowUs
  if rolled.packetQuota ≤ rolled.forwardedPackets then (rolled, false)
  else if !controlPacket && rolled.packetQuota - rolled.controlReserve ≤
    rolled.forwardedPackets then (rolled, false)
  else
    ({ rolled with
        forwardedPackets := satAdd rolled.forwardedPackets 1
        forwardedControlPackets :=
          if controlPacket then satAdd rolled.forwardedControlPackets 1
          else rolled.forwardedControlPackets }, true)

/-- A packet that asks for admission. -/
structure QuotaCall where
  dcid : ConnectionId
  control : Bool
  nowUs : Nat

/-- The answer to a packet. -/
structure Decision where
  control : Bool
  nowUs : Nat
  admitted : Bool

namespace DcidRegistry

/-- One packet asks. -/
def ask (self : DcidRegistry Endpoint NextHop) (call : QuotaCall) : DcidRegistry Endpoint NextHop :=
  (self.consumeForwardQuota call.dcid call.control call.nowUs).1

/-- The decision, if the packet is for `dcid`. -/
def decide? (dcid : ConnectionId) (self : DcidRegistry Endpoint NextHop) (call : QuotaCall) :
    List Decision :=
  if call.dcid = dcid then
    [⟨call.control, call.nowUs, (self.consumeForwardQuota call.dcid call.control call.nowUs).2⟩]
  else []

/-- The decisions on the packets for `dcid`, in order. -/
def decisions (self : DcidRegistry Endpoint NextHop) (dcid : ConnectionId)
    (calls : List QuotaCall) : List Decision :=
  trace ask (decide? dcid) self calls

end DcidRegistry

/-! ## Windows -/

namespace ForwardRule

variable {rule : ForwardRule NextHop} {nowUs : Nat} {log : List Decision}

theorem windowUs_pos (rule : ForwardRule NextHop) : 0 < rule.windowUs := by
  unfold windowUs
  omega

theorem windowOf_mono (rule : ForwardRule NextHop) {early late : Nat} (h : early ≤ late) :
    rule.windowOf early ≤ rule.windowOf late := Nat.div_le_div_right (by omega)

/-- A rule in window `k` of the rule it was installed as. -/
structure Within (rule now : ForwardRule NextHop) (k : Nat) : Prop where
  quota : now.packetQuota = rule.packetQuota
  lease : now.leaseDurationUs = rule.leaseDurationUs
  start : now.quotaWindowStartedUs = rule.quotaWindowStartedUs + k * rule.windowUs

variable {now : ForwardRule NextHop}

open DcidRegistry.ForwardRule

/-- A later window starts without packets, at a whole number of lengths after the installation. -/
theorem Within.roll (h : rule.Within now k) (hk : k ≤ rule.windowOf nowUs)
    (hfits : nowUs ≤ u64Max) : rollQuotaWindow now nowUs = if k < rule.windowOf nowUs then
        { now with
          quotaWindowStartedUs := rule.quotaWindowStartedUs + rule.windowOf nowUs * rule.windowUs
          forwardedPackets := 0
          forwardedControlPackets := 0 }
      else now := by
  have hpos := rule.windowUs_pos
  have hlength : max now.leaseDurationUs 1 = rule.windowUs := by rw [h.lease]; rfl
  have helapsed : nowUs - now.quotaWindowStartedUs = nowUs - rule.quotaWindowStartedUs - k *
      rule.windowUs := by
    rw [h.start]
    omega
  have hwindow : rule.windowOf nowUs = k + (nowUs - now.quotaWindowStartedUs) / rule.windowUs := by
    have hle : k * rule.windowUs ≤ nowUs - rule.quotaWindowStartedUs :=
      (le_div_iff_mul_le hpos).mp hk
    rw [helapsed, windowOf]
    have hsplit : nowUs - rule.quotaWindowStartedUs =
        k * rule.windowUs + (nowUs - rule.quotaWindowStartedUs - k * rule.windowUs) := by omega
    conv_lhs => rw [hsplit]
    rw [add_comm (k * rule.windowUs), add_mul_div_right _ _ hpos, add_comm]
  unfold rollQuotaWindow
  rw [hlength]
  by_cases hlater : rule.windowUs ≤ nowUs - now.quotaWindowStartedUs
  · have hone : 1 ≤ (nowUs - now.quotaWindowStartedUs) / rule.windowUs := div_pos hlater hpos
    have hmul := div_mul_le_self (nowUs - now.quotaWindowStartedUs) rule.windowUs
    have hstart : satAdd now.quotaWindowStartedUs
        (satMul ((nowUs - now.quotaWindowStartedUs) / rule.windowUs) rule.windowUs) =
        rule.quotaWindowStartedUs + rule.windowOf nowUs * rule.windowUs := by
      rw [hwindow, add_mul, ← add_assoc]
      unfold satAdd satMul u64Max
      unfold u64Max at hfits
      omega
    rw [if_pos hlater, if_pos (by omega), hstart]
  · have hzero : (nowUs - now.quotaWindowStartedUs) / rule.windowUs = 0 := div_eq_of_lt (by omega)
    rw [if_neg hlater, if_neg (by omega)]

/-! ## What a window has admitted -/

/-- Packets admitted in a window. -/
def admitted (rule : ForwardRule NextHop) (log : List Decision) (k : Nat) : Nat :=
  log.countP fun decision => decision.admitted && rule.windowOf decision.nowUs == k

/-- Data packets admitted in a window. -/
def admittedData (rule : ForwardRule NextHop) (log : List Decision) (k : Nat) : Nat :=
  log.countP fun decision => decision.admitted && !decision.control &&
    rule.windowOf decision.nowUs == k

/-- The counters of a rule in window `k` are those of the decisions in that window, the last one
taken. -/
structure Metered (rule now : ForwardRule NextHop) (log : List Decision) (k : Nat) : Prop where
  within : rule.Within now k
  forwarded : now.forwardedPackets = rule.admitted log k
  reached : k = 0 ∨ ∃ decision ∈ log, rule.windowOf decision.nowUs = k
  latest : ∀ decision ∈ log, rule.windowOf decision.nowUs ≤ k
  quota : ∀ j, rule.admitted log j ≤ rule.packetQuota
  reserve : ∀ j, rule.admittedData log j ≤ rule.packetQuota - rule.controlReserve

theorem admitted_append (log more : List Decision) (k : Nat) :
    rule.admitted (log ++ more) k = rule.admitted log k + rule.admitted more k := countP_append

theorem admittedData_append (log more : List Decision) (k : Nat) :
    rule.admittedData (log ++ more) k = rule.admittedData log k + rule.admittedData more k :=
  countP_append

theorem admittedData_le (log : List Decision) (k : Nat) :
    rule.admittedData log k ≤ rule.admitted log k := by
  refine countP_mono_left fun decision _ h => ?_
  simp only [and_eq_true] at h ⊢
  exact ⟨h.1.1, h.2⟩

/-- No packet was admitted yet in a window after the current one. -/
theorem Metered.admitted_later {j : Nat}
    (h : rule.Metered now log k) (hj : k < j) : rule.admitted log j = 0 := by
  refine countP_eq_zero.mpr fun decision hmem hbad => ?_
  simp only [and_eq_true, beq_iff_eq] at hbad
  have := h.latest decision hmem
  omega

/-- The rule after its window ended counts what the window of the packet admitted so far. -/
theorem Metered.roll (h : rule.Metered now log k) (hk : k ≤ rule.windowOf nowUs)
    (hfits : nowUs ≤ u64Max) : rule.Within (rollQuotaWindow now nowUs) (rule.windowOf nowUs) ∧
      (rollQuotaWindow now nowUs).forwardedPackets = rule.admitted log (rule.windowOf nowUs) := by
  rw [h.within.roll hk hfits]
  by_cases hlater : k < rule.windowOf nowUs
  · rw [if_pos hlater]
    exact ⟨⟨h.within.quota, h.within.lease, rfl⟩, (h.admitted_later hlater).symm⟩
  have hsame : rule.windowOf nowUs = k := by omega
  rw [if_neg hlater, hsame]
  exact ⟨h.within, h.forwarded⟩

/-- A packet is admitted within the quota of its window, a data packet within what the reserve
leaves of it. -/
theorem Metered.charge_eq (h : rule.Metered now log k)
    (hk : k ≤ rule.windowOf nowUs) (hfits : nowUs ≤ u64Max) (hquota : rule.packetQuota ≤ u64Max)
    (control : Bool) : ((now.charge control nowUs).2 = true ↔
      rule.admitted log (rule.windowOf nowUs) < rule.packetQuota ∧
        (control = true ∨ rule.admitted log (rule.windowOf nowUs) <
          rule.packetQuota - rule.controlReserve)) ∧
      rule.Within (now.charge control nowUs).1 (rule.windowOf nowUs) ∧
      (now.charge control nowUs).1.forwardedPackets =
        rule.admitted log (rule.windowOf nowUs) + if (now.charge control nowUs).2 then
          1 else 0 := by
  obtain ⟨hwithin, hforwarded⟩ := h.roll hk hfits
  have hreserve : (rollQuotaWindow now nowUs).controlReserve = rule.controlReserve := by
    rw [controlReserve, hwithin.quota]
    rfl
  unfold charge
  simp only [hwithin.quota, hforwarded, hreserve]
  by_cases hfull : rule.packetQuota ≤ rule.admitted log (rule.windowOf nowUs)
  · rw [if_pos hfull]
    exact ⟨iff_of_false false_ne_true (by omega), hwithin, hforwarded⟩
  rw [if_neg hfull]
  by_cases hheld : (!control && decide (rule.packetQuota - rule.controlReserve ≤
      rule.admitted log (rule.windowOf nowUs))) = true
  · rw [if_pos hheld]
    simp only [and_eq_true, not_eq_true', decide_eq_true_eq] at hheld
    refine ⟨iff_of_false false_ne_true ?_, hwithin, hforwarded⟩
    rintro ⟨-, hcontrol | hless⟩
    · rw [hheld.1] at hcontrol
      cases hcontrol
    · omega
  rw [if_neg hheld]
  refine ⟨iff_of_true rfl ⟨by omega, ?_⟩, ⟨rfl, hwithin.lease, hwithin.start⟩, ?_⟩
  · cases control with
    | true => exact .inl rfl
    | false =>
      simp only [Bool.not_false, Bool.true_and, decide_eq_true_eq, not_le] at hheld
      exact .inr hheld
  have hone : satAdd (rule.admitted log (rule.windowOf nowUs)) 1 =
      rule.admitted log (rule.windowOf nowUs) + 1 := by
    have hroom : rule.admitted log (rule.windowOf nowUs) + 1 ≤ u64Max := by omega
    exact min_eq_left hroom
  exact hone

theorem admitted_one (rule : ForwardRule NextHop) (decision : Decision) (j : Nat) :
    rule.admitted [decision] j =
    if decision.admitted = true ∧ rule.windowOf decision.nowUs = j then 1 else 0 := by
  simp [admitted]

theorem admittedData_one (rule : ForwardRule NextHop) (decision : Decision) (j : Nat) :
    rule.admittedData [decision] j =
    if (decision.admitted = true ∧ decision.control = false) ∧ rule.windowOf decision.nowUs = j then
      1 else 0 := by
  simp [admittedData]

theorem Metered.charge (h : rule.Metered now log k)
    (hk : k ≤ rule.windowOf nowUs) (hfits : nowUs ≤ u64Max) (hquota : rule.packetQuota ≤ u64Max)
    (control : Bool) : rule.Metered (now.charge control nowUs).1
      (log ++ [⟨control, nowUs, (now.charge control nowUs).2⟩]) (rule.windowOf nowUs) := by
  obtain ⟨hgranted, hwithin, hforwarded⟩ := h.charge_eq hk hfits hquota control
  refine ⟨hwithin, ?_, .inr ⟨_, mem_append_right _ (mem_singleton_self _), rfl⟩,
    fun decision hmem => ?_, fun j => ?_, fun j => ?_⟩
  · rw [hforwarded, admitted_append, admitted_one]
    simp
  · rcases mem_append.mp hmem with hmem | hmem
    · exact le_trans (h.latest decision hmem) hk
    · rw [mem_singleton.mp hmem]
  · have hold := h.quota j
    rw [admitted_append, admitted_one]
    split_ifs with hcount
    · obtain ⟨hyes, rfl⟩ := hcount
      have := (hgranted.mp hyes).1
      simp only at this ⊢
      omega
    · exact hold
  · have hold := h.reserve j
    rw [admittedData_append, admittedData_one]
    split_ifs with hcount
    · obtain ⟨⟨hyes, hdata⟩, rfl⟩ := hcount
      have hless := (hgranted.mp hyes).2
      have hle := rule.admittedData_le log (rule.windowOf nowUs)
      simp only at hdata hless ⊢
      rw [hdata] at hless
      rcases hless with hbad | hless
      · cases hbad
      · omega
    · exact hold

end ForwardRule

/-! ## Through the registry -/

namespace DcidRegistry

variable {self : DcidRegistry Endpoint NextHop} {dcid : ConnectionId} {index : Nat}
    {rule : ForwardRule NextHop}
variable {call : QuotaCall} {calls : List QuotaCall}

theorem consumeForwardQuota_eq (hat : self.forwardAt dcid = some (index, rule))
    (hquota : rule.packetQuota ≠ 0) (control : Bool) (nowUs : Nat) :
    self.consumeForwardQuota dcid control nowUs =
      (self.setRule index (rule.charge control nowUs).1, (rule.charge control nowUs).2) := by
  unfold consumeForwardQuota
  rw [hat]
  simp only
  rw [if_neg hquota]
  unfold ForwardRule.charge
  have hsame : (ForwardRule.rollQuotaWindow rule nowUs).packetQuota = rule.packetQuota := by
    unfold ForwardRule.rollQuotaWindow
    extract_lets windowUs elapsedUs
    split <;> rfl
  simp only [QuicLite.ForwardRule.controlReserve, hsame]
  split_ifs <;> rfl

theorem find_setRule (self : DcidRegistry Endpoint NextHop) (index : Nat)
    (rule : ForwardRule NextHop) (dcid : ConnectionId) :
    (self.setRule index rule).find dcid = self.find dcid := by
  refine BinarySearch.search_congr ?_
  refine ext_getElem? fun i => ?_
  rw [getElem?_map, getElem?_map, setRule, getElem?_modify]
  cases self.entries[i]? with
  | none => rfl
  | some entry =>
    show some _ = some _
    split <;> rfl

section

variable (h : self.forwardAt dcid = some (index, rule))
include h

/-- The entry that is found holds the id that was asked for. -/
theorem forwardAt_key : self.find dcid = .ok index ∧
    self.entries[index]? = some (dcid, .forward rule) := by
  unfold forwardAt at h
  split at h
  · cases h
  rename_i found hfind
  split at h
  · rename_i key found hentry
    cases h
    obtain ⟨entry, hget, hvalue⟩ := BinarySearch.search_ok hfind
    rw [hentry, Option.some.injEq] at hget
    have hkey : key = dcid := by
      rw [← hget] at hvalue
      exact ConnectionId.ext hvalue
    exact ⟨hfind, by rw [hentry, hkey]⟩
  · cases h

/-- A charged rule stays where it is. -/
theorem forwardAt_setRule (charged : ForwardRule NextHop) :
    (self.setRule index charged).forwardAt dcid = some (index, charged) := by
  obtain ⟨hfind, hentry⟩ := forwardAt_key h
  have hafter : (self.setRule index charged).entries[index]? = some (dcid, .forward charged) := by
    rw [setRule, getElem?_modify_eq, hentry]
    rfl
  unfold forwardAt
  rw [find_setRule, hfind]
  simp only [hafter]

/-- Charging one rule leaves the others alone. -/
theorem forwardAt_setRule_other {other : ConnectionId} {otherIndex : Nat}
    {otherRule : ForwardRule NextHop} (hother : self.forwardAt other = some (otherIndex, otherRule))
    (hne : other ≠ dcid) (charged : ForwardRule NextHop) :
    (self.setRule otherIndex charged).forwardAt dcid = some (index, rule) := by
  obtain ⟨hfind, hentry⟩ := forwardAt_key h
  obtain ⟨-, hotherEntry⟩ := forwardAt_key hother
  have hindex : otherIndex ≠ index := by
    rintro rfl
    rw [hentry, Option.some.injEq, Prod.mk.injEq] at hotherEntry
    exact hne hotherEntry.1.symm
  have hafter : (self.setRule otherIndex charged).entries[index]? = some (dcid, .forward rule) := by
    rw [setRule, getElem?_modify_ne _ _ hindex, hentry]
  unfold forwardAt
  rw [find_setRule, hfind]
  simp only [hafter]

theorem ask_other (hne : call.dcid ≠ dcid) :
    (self.ask call).forwardAt dcid = some (index, rule) := by
  unfold ask consumeForwardQuota
  split
  · exact h
  rename_i otherIndex otherRule hother
  split
  · exact h
  · extract_lets rolled reserve
    split_ifs <;> exact forwardAt_setRule_other h hother hne _

end

theorem ask_self (h : self.forwardAt call.dcid = some (index, rule))
    (hquota : rule.packetQuota ≠ 0) :
    (self.ask call).forwardAt call.dcid = some (index, (rule.charge call.control call.nowUs).1) ∧
      self.decide? call.dcid call =
        [⟨call.control, call.nowUs, (rule.charge call.control call.nowUs).2⟩] := by
  unfold ask decide?
  rw [consumeForwardQuota_eq h hquota, if_pos rfl]
  exact ⟨forwardAt_setRule h _, rfl⟩

/-- Decisions are taken at the times of the calls. -/
theorem mem_decisions {decision : Decision} (h : decision ∈ self.decisions dcid calls) :
    ∃ call ∈ calls, call.nowUs = decision.nowUs := by
  induction calls generalizing self with
  | nil => cases h
  | cons call calls ih =>
    rcases mem_append.mp h with h | h
    · unfold decide? at h
      split at h
      · rw [mem_singleton.mp h]
        exact ⟨call, mem_cons_self, rfl⟩
      · cases h
    · obtain ⟨later, hmem, htime⟩ := ih h
      exact ⟨later, mem_cons_of_mem call hmem, htime⟩

/-- A rule as it is installed: nothing is counted yet. -/
structure Installed (registry : DcidRegistry Endpoint NextHop) (dcid : ConnectionId) (index : Nat)
    (rule : ForwardRule NextHop) : Prop where
  found : registry.forwardAt dcid = some (index, rule)
  quota_pos : 0 < rule.packetQuota
  quota_le : rule.packetQuota ≤ u64Max
  unused : rule.forwardedPackets = 0

theorem Installed.metered (h : self.Installed dcid index rule) : rule.Metered rule [] 0 := by
  refine ⟨⟨rfl, rfl, by omega⟩, h.unused, .inl rfl, fun decision hmem => ?_, fun j =>
    zero_le _, fun j => zero_le _⟩
  cases hmem

/-- The clock of the calls does not run backwards, and is a `u64`. -/
structure Clocked (calls : List QuotaCall) : Prop where
  sorted : calls.Pairwise fun early late => early.nowUs ≤ late.nowUs
  fits : ∀ call ∈ calls, call.nowUs ≤ u64Max

/-- The window a rule is in is not after that of the next call. -/
theorem window_le_next {now : ForwardRule NextHop}
    (h : rule.Metered now (self.decisions dcid calls) k) (hclock : Clocked (calls ++ [call])) :
    k ≤ rule.windowOf call.nowUs := by
  rcases h.reached with rfl | ⟨decision, hmem, rfl⟩
  · exact zero_le _
  obtain ⟨earlier, hearlier, htime⟩ := mem_decisions hmem
  rw [← htime]
  exact rule.windowOf_mono
    ((pairwise_append.mp hclock.sorted).2.2 earlier hearlier call mem_cons_self)

/-- After any calls, for this rule and for others, the counters of the rule are those of its
decisions. -/
theorem Installed.run (h : self.Installed dcid index rule) (calls : List QuotaCall)
    (hclock : Clocked calls) : ∃ now k, (exec ask self calls).forwardAt dcid = some (index, now) ∧
      rule.Metered now (self.decisions dcid calls) k := by
  induction calls using reverseRecOn with
  | nil => exact ⟨rule, 0, h.found, h.metered⟩
  | append_singleton calls call ih =>
    have hbefore : Clocked calls := ⟨(pairwise_append.mp hclock.sorted).1,
      fun early hmem => hclock.fits early (mem_append_left _ hmem)⟩
    obtain ⟨now, k, hat, hmetered⟩ := ih hbefore
    have hk := window_le_next hmetered hclock
    have hfits := hclock.fits call (mem_append_right _ (mem_singleton_self call))
    have hlog : self.decisions dcid (calls ++ [call]) =
        self.decisions dcid calls ++ (exec ask self calls).decide? dcid call := by
      unfold decisions
      rw [trace_append, trace, trace, append_nil]
    rw [exec_append, hlog]
    by_cases hsame : call.dcid = dcid
    · subst hsame
      have hquota : now.packetQuota ≠ 0 := by
        have := h.quota_pos
        rw [hmetered.within.quota]
        omega
      obtain ⟨hafter, hdecision⟩ := ask_self hat hquota
      exact ⟨_, _, hafter, hdecision ▸ hmetered.charge hk hfits h.quota_le call.control⟩
    refine ⟨now, k, ask_other hat hsame, ?_⟩
    rw [decide?, if_neg hsame, append_nil]
    exact hmetered

/-- Quota windows are enforced: in each at most the quota is admitted, and at most what the reserve
leaves as data; windows stay in step with the installation, the counter is reset by a call in a
later window and by no other, and a control packet is refused only in a window that has admitted its
quota. -/
theorem quota_windows_enforced (h : self.Installed dcid index rule) (calls : List QuotaCall)
    (hclock : Clocked calls) :
    (∀ k, rule.admitted (self.decisions dcid calls) k ≤ rule.packetQuota ∧
      rule.admittedData (self.decisions dcid calls) k ≤
        rule.packetQuota - max (rule.packetQuota / 16) 1) ∧
      ∀ before call after, calls = before ++ call :: after → call.dcid = dcid →
        ∃ now k, (exec ask self before).forwardAt dcid = some (index, now) ∧
          now.quotaWindowStartedUs = rule.quotaWindowStartedUs + k * rule.windowUs ∧
          k ≤ rule.windowOf call.nowUs ∧
          ForwardRule.rollQuotaWindow now call.nowUs = (if k < rule.windowOf call.nowUs then
              { now with
                quotaWindowStartedUs := rule.quotaWindowStartedUs + rule.windowOf call.nowUs *
                  rule.windowUs
                forwardedPackets := 0
                forwardedControlPackets := 0 }
            else now) ∧
          (call.control = true → ((exec ask self before).consumeForwardQuota dcid true
            call.nowUs).2 = false →
            rule.admitted (self.decisions dcid before)
            (rule.windowOf call.nowUs) = rule.packetQuota) := by
  constructor
  · obtain ⟨now, k, -, hmetered⟩ := h.run calls hclock
    exact fun j => ⟨hmetered.quota j, hmetered.reserve j⟩
  intro before call after hcalls hsame
  subst hcalls
  have hnext : Clocked (before ++ [call]) := by
    refine ⟨hclock.sorted.sublist ?_, fun early hmem => hclock.fits early ?_⟩
    · exact .append_left (singleton_sublist.mpr mem_cons_self) before
    rcases mem_append.mp hmem with hmem | hmem
    · exact mem_append_left _ hmem
    · exact mem_append_right _ (mem_singleton.mp hmem ▸ mem_cons_self)
  have hbefore : Clocked before := ⟨(pairwise_append.mp hnext.sorted).1,
    fun early hmem => hnext.fits early (mem_append_left _ hmem)⟩
  have hfits := hnext.fits call (mem_append_right _ (mem_singleton_self call))
  obtain ⟨now, k, hat, hmetered⟩ := h.run before hbefore
  have hk := window_le_next hmetered hnext
  refine ⟨now, k, hat, hmetered.within.start, hk, hmetered.within.roll hk hfits,
    fun _ hrefused => ?_⟩
  have hquota : now.packetQuota ≠ 0 := by
    have := h.quota_pos
    rw [hmetered.within.quota]
    omega
  rw [consumeForwardQuota_eq hat hquota] at hrefused
  have hgranted := (hmetered.charge_eq hk hfits h.quota_le true).1
  rw [hrefused] at hgranted
  have hfull := hmetered.quota (rule.windowOf call.nowUs)
  by_contra hne
  exact false_ne_true (hgranted.mpr ⟨by omega, .inl rfl⟩)

/-- A rule for two packets in ten microseconds, installed at time 100. -/
def twoPackets : ForwardRule Nat := ⟨0, .bootstrap, 10, 1000, 1, 2, 0, 0, 100⟩

/-- Data at 101 and 103, control at 102 and 104: the second data packet would take the reserve, and
is refused. -/
theorem twoPackets_enforced :
    let dcid : ConnectionId := ⟨7, by decide⟩
    let registry : DcidRegistry Nat Nat := ⟨[(dcid, .forward twoPackets)], 4⟩
    let log := registry.decisions dcid [⟨dcid, false, 101⟩, ⟨dcid, true, 102⟩, ⟨dcid, false, 103⟩,
      ⟨dcid, true, 104⟩]
    log.map (·.admitted) = [true, true, false, false] ∧ twoPackets.admitted log 0 ≤ 2 := by
  intro dcid registry log
  have hinstalled : registry.Installed dcid 0 twoPackets := ⟨rfl, by decide, by decide, rfl⟩
  have hclock : Clocked [⟨dcid, false, 101⟩, ⟨dcid, true, 102⟩, ⟨dcid, false, 103⟩,
      ⟨dcid, true, 104⟩] :=
    ⟨by simp, by simp [u64Max, usizeBound]⟩
  exact ⟨by decide, ((quota_windows_enforced hinstalled _ hclock).1 0).1⟩

end DcidRegistry

end QuicLite
