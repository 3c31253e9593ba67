import QuicLite.Nan.State
import QuicLite.Lib.Runs
import Mathlib.Data.List.Induction

/-!
# Ranking and stickiness

Five entry points write the selected cluster. What each of them can do to it is one `Move`; the
ranking is a property of moves.
-/

namespace QuicLite.Nan

open List Option NanState

/-! ## Histories -/

variable {op : Nat × Input} {nanAligned : Bool} {localUs : Nat}
variable {ops : List (Nat × Input)} {current : MacAddr}

inductive Input where
  | observe (bytes : Bytes)
  | observeApBeacon (bytes : Bytes)
  | observeNowSync (cluster : MacAddr) (tsfUs intervalTu : Nat) (nanAligned : Bool)
  | becomeNowMaster (unixUs : Option Nat)
  | tick

inductive Reply where
  | silent
  | action (action : Action)
  | master (master : Bool)

namespace NanState

/-- One call at a local time, and what it returns. -/
def react (mac : MacAddr) (self : NanState) (op : Nat × Input) : NanState × Reply :=
  match op.2 with
  | .observe bytes => let (next, action) := self.observe ⟨bytes, op.1⟩; (next, .action action)
  | .observeApBeacon bytes => (self.observeApBeacon ⟨bytes, op.1⟩, .silent)
  | .observeNowSync cluster tsfUs intervalTu nanAligned =>
    let (next, action) := self.observeNowSync mac cluster tsfUs intervalTu nanAligned op.1
    (next, .action action)
  | .becomeNowMaster unixUs => let (next, master) := self.becomeNowMaster mac op.1 unixUs;
      (next, .master master)
  | .tick => let (next, action) := self.tick op.1; (next, .action action)

def history (mac : MacAddr) (staleAfterUs : Nat) (ops : List (Nat × Input)) : NanState :=
  Runs.exec (fun s op => (react mac s op).1) (.new staleAfterUs) ops

end NanState

/-- The cluster that a call hears: a NAN beacon of it, or a record that names neither this device
nor nobody. -/
def Input.heard (mac : MacAddr) : Input → Option MacAddr
  | .observe bytes => if isNanBeacon bytes then bssid bytes else none
  | .observeNowSync cluster _ _ _ => if cluster = zeroMac ∨ cluster = mac then
      none else some cluster
  | _ => none

/-- When each cluster was heard. -/
def arrivals (mac : MacAddr) (ops : List (Nat × Input)) : List (MacAddr × Nat) :=
  ops.filterMap fun op => (op.2.heard mac).map fun cluster => (cluster, op.1)

variable (mac : MacAddr)

theorem arrivals_append (ops more : List (Nat × Input)) :
    arrivals mac (ops ++ more) = arrivals mac ops ++ arrivals mac more :=
  filterMap_append

/-- An arrival has the time of one of the calls. -/
theorem exists_of_mem_arrivals {mac : MacAddr} {arrival : MacAddr × Nat}
    (h : arrival ∈ arrivals mac ops) :
    ∃ op ∈ ops, op.1 = arrival.2 ∧ op.2.heard mac = some arrival.1 := by
  obtain ⟨op, hop, hsome⟩ := mem_filterMap.mp h
  obtain ⟨cluster, hcluster, rfl⟩ := map_eq_some_iff.mp hsome
  exact ⟨op, hop, rfl, hcluster⟩

/-! ## Moves -/

/-- Why the selected cluster gives way. -/
inductive GivesWay (s : NanState) (cluster : MacAddr) (nanCluster : Bool) (nowUs : Nat) : Prop
  | unselected (h : s.cluster = none)
  | outranked (hnan : nanCluster = true) (hnow : s.nanCluster = false)
  | silent (hrank : s.nanCluster = nanCluster)
      (hsilent : clusterReselectAfterUs ≤ nowUs - s.lastBeaconUs)
  | lower (hmaster : s.nowMaster = true) (hrank : nanCluster = false)
      (hlower : ∃ current, s.cluster = some current ∧
      macLt cluster current = true)

/-- What one call does to the selection. -/
inductive Move (mac : MacAddr) (nowUs : Nat) (s s' : NanState) : Prop
  /-- Only the timing may change, and only while nothing is selected. -/
  | kept (hcluster : s'.cluster = s.cluster) (hmode : s'.mode = s.mode)
      (hnan : s'.nanCluster = s.nanCluster) (hmaster : s'.nowMaster = s.nowMaster)
      (hsame : s.cluster.isSome = true → s' = s)
  | refreshed (cluster : MacAddr) (hwas : s.cluster = some cluster)
      (hcluster : s'.cluster = some cluster) (hmode : s'.mode = s.mode)
      (hsync : s'.syncBssid = s.syncBssid) (hlast : s'.lastBeaconUs = nowUs)
      (hnan : s.nanCluster = true → s'.nanCluster = true)
      (hmaster : s'.nowMaster = true → s'.nanCluster = false)
      (hkeeps : s'.nowMaster = true → s.nowMaster = true) (hnamed : cluster ≠ zeroMac)
  | selected (cluster : MacAddr) (hcluster : s'.cluster = some cluster) (hmode : s'.mode = .cluster)
      (hsync : s'.syncBssid = some cluster) (hlast : s'.lastBeaconUs = nowUs)
      (hmaster : s'.nowMaster = true → cluster = mac ∧ s'.nanCluster = false)
      (hnamed : cluster = zeroMac → s'.nowMaster = true)
      (hsame : s.cluster = some cluster → s'.nanCluster = s.nanCluster)
      (hway : s.cluster ≠ some cluster → GivesWay s cluster s'.nanCluster nowUs)
  | dropped (hcluster : s'.cluster = none) (hmode : s'.mode = .discovery)
      (hnan : s'.nanCluster = false) (hmaster : s'.nowMaster = false)

/-! ## The invariant -/

structure SelectionInv (mac : MacAddr) (s : NanState) : Prop where
  following : s.mode = .cluster ↔ s.cluster.isSome = true
  synced : ∀ cluster, s.cluster = some cluster → s.syncBssid = some cluster
  mastered : s.nowMaster = true → s.cluster = some mac ∧ s.nanCluster = false
  /-- Only a device without an address leads the cluster of nobody. -/
  named : s.cluster = some zeroMac → s.nowMaster = true
  ranked : s.nanCluster = true → s.cluster.isSome = true

namespace SelectionInv

variable {mac : MacAddr} {s s' : NanState} {nowUs : Nat}

theorem new (staleAfterUs : Nat) : SelectionInv mac (.new staleAfterUs) where
  following := by simp [NanState.new]
  synced := fun cluster h => by cases h
  mastered := fun h => by cases h
  named := fun h => by cases h
  ranked := fun h => by cases h

theorem move (h : SelectionInv mac s) (hmove : Move mac nowUs s s') : SelectionInv mac s' := by
  cases hmove with
  | kept hcluster hmode hnan hmaster hsame =>
    cases hsome : s.cluster.isSome with
    | true => exact hsame hsome ▸ h
    | false =>
    have hnone : s'.cluster = none := by
      rw [hcluster]
      exact isNone_iff_eq_none.mp (by simpa using hsome)
    have hunranked : s.nanCluster ≠ true := fun hnan => by simpa [hsome] using h.ranked hnan
    refine ⟨by rw [hmode, hcluster]; exact h.following, fun cluster hfound => ?_, fun htrue =>
      ?_, fun hfound => ?_, fun htrue => absurd (hnan ▸ htrue) hunranked⟩
    · rw [hnone] at hfound
      cases hfound
    · rw [hcluster, hnan]
      exact h.mastered (hmaster ▸ htrue)
    · rw [hnone] at hfound
      cases hfound
  | refreshed cluster hwas hcluster hmode hsync hlast hnan hmaster hkeeps hnamed =>
    refine ⟨by rw [hmode, hcluster, ← hwas]; exact h.following, fun found hfound => ?_, fun htrue =>
      ?_, fun hfound => ?_, fun _ => by simp [hcluster]⟩
    · rw [hsync]
      exact h.synced found (by rw [hwas, ← hcluster, hfound])
    · rw [hcluster, ← hwas]
      exact ⟨(h.mastered (hkeeps htrue)).1, hmaster htrue⟩
    · rw [hcluster] at hfound
      exact absurd (some.inj hfound) hnamed
  | selected cluster hcluster hmode hsync hlast hmaster hnamed hsame hway =>
    refine ⟨by simp [hmode, hcluster], fun found hfound => ?_, fun htrue => ?_, fun hfound =>
      ?_, fun _ => by
      simp [hcluster]⟩
    · rw [hsync, ← hcluster, hfound]
    · obtain ⟨rfl, hrank⟩ := hmaster htrue
      exact ⟨hcluster, hrank⟩
    · rw [hcluster] at hfound
      exact hnamed (some.inj hfound)
  | dropped hcluster hmode hnan hmaster =>
    refine ⟨by simp [hmode, hcluster], fun found hfound => ?_, fun htrue => ?_, fun hfound =>
      ?_, fun htrue => ?_⟩
    · rw [hcluster] at hfound
      cases hfound
    · rw [hmaster] at htrue
      cases htrue
    · rw [hcluster] at hfound
      cases hfound
    · rw [hnan] at htrue
      cases htrue

end SelectionInv

/-! ## Every call is a move -/

variable {cluster : MacAddr}

section

variable {selection : NowSelection} {mac : MacAddr}

theorem nowSyncDecide_join (h : nowSyncDecide selection mac cluster nanAligned localUs = .join) :
    cluster ≠ zeroMac ∧ cluster ≠ mac ∧ selection.cluster ≠ cluster ∧
      (selection.cluster = zeroMac ∧ (nanAligned = true ∨ macLt cluster mac = true) ∨
        selection.cluster ≠ zeroMac ∧
          (nanAligned = true ∧ selection.nanCluster = false ∨ nanAligned = selection.nanCluster ∧
              (selection.master = true ∧ macLt cluster selection.cluster = true ∨
                clusterReselectAfterUs ≤ localUs - selection.lastLocalUs))) := by
  unfold nowSyncDecide at h
  split_ifs at h with hown hnone hfirst hsame houtranks hbelow hmaster hlower hsilent
  all_goals
    obtain ⟨hzero, hmac⟩ := not_or.mp hown
  · exact ⟨hzero, hmac, fun heq => hzero (heq ▸ hnone), .inl ⟨hnone, by simpa using hfirst⟩⟩
  · exact ⟨hzero, hmac, hsame, .inr ⟨hnone, .inl (by simpa using houtranks)⟩⟩
  all_goals
    have hrank : nanAligned = selection.nanCluster := by
      cases nanAligned <;> cases hnan : selection.nanCluster <;> simp_all
  · exact ⟨hzero, hmac, hsame, .inr ⟨hnone, .inr ⟨hrank, .inl ⟨hmaster, hlower⟩⟩⟩⟩
  · exact ⟨hzero, hmac, hsame, .inr ⟨hnone, .inr ⟨hrank, .inr hsilent⟩⟩⟩

theorem nowSyncDecide_refresh
    (h : nowSyncDecide selection mac cluster nanAligned localUs = .refresh) :
    cluster ≠ zeroMac ∧ cluster ≠ mac ∧ selection.cluster = cluster := by
  unfold nowSyncDecide at h
  split_ifs at h with hown hnone hfirst hsame
  exact ⟨(not_or.mp hown).1, (not_or.mp hown).2, hsame⟩

theorem nowSyncDecide_own (hnamed : selection.cluster ≠ zeroMac)
    (hforeign : selection.cluster ≠ mac) (nanAligned : Bool) (localUs : Nat) :
    nowSyncDecide selection mac selection.cluster nanAligned localUs = .refresh := by
  rw [nowSyncDecide, if_neg (not_or.mpr ⟨hnamed, hforeign⟩), if_neg hnamed, if_pos rfl]

end

theorem zeroMac_ne_of_isNanBssid {bytes : Bytes} {mac : MacAddr} (hnan : isNanBssid bytes = true)
    (hmac : bssid bytes = some mac) : mac ≠ zeroMac := by
  rintro rfl
  rw [isNanBssid, hmac] at hnan
  revert hnan
  decide

theorem not_lt_replicate_zero (bs : Bytes) : ¬ bs < replicate bs.length 0 := by
  induction bs with
  | nil => simp
  | cons b bs ih =>
    intro hlt
    rcases cons_lt_cons_iff.mp hlt with hb | ⟨-, hrest⟩
    · exact absurd hb (UInt8.not_lt_zero)
    · exact ih hrest

theorem not_macLt_zeroMac : macLt mac zeroMac = false := by
  have h := not_lt_replicate_zero mac.toList
  simpa [macLt, zeroMac] using h

namespace SelectionInv

variable {mac : MacAddr} {s : NanState}

theorem same (nowUs : Nat) : Move mac nowUs s s := .kept rfl rfl rfl rfl fun _ => rfl

theorem observeApBeacon_move (frame : RxFrame) :
    Move mac frame.timestampUs s (s.observeApBeacon frame) := by
  unfold observeApBeacon
  split
  · exact same _
  next hbeacon =>
    have hnone : s.cluster.isSome = false := by simp_all
    split
    · exact .kept rfl rfl rfl rfl fun hsome => by simp [hnone] at hsome
    · exact same _

theorem observe_move (h : SelectionInv mac s) (frame : RxFrame) :
    Move mac frame.timestampUs s (s.observe frame).1 := by
  unfold observe
  split
  · exact same _
  next a3 ha3 =>
    split
    · next hnan =>
        have hnamed : a3 ≠ zeroMac :=
          zeroMac_ne_of_isNanBssid ((Bool.and_eq_true _ _).mp hnan).2 ha3
        split_ifs with hnone hsame hguard
        · exact .selected a3 rfl rfl rfl rfl (fun hmaster => by cases hmaster) (fun hzero =>
            absurd hzero hnamed)
            (fun hwas => by simp [hnone] at hwas) fun _ => .unselected hnone
        · exact .refreshed a3 hsame hsame rfl rfl rfl (fun _ => rfl)
            (fun hmaster => by cases hmaster)
            (fun hmaster => by cases hmaster) hnamed
        · refine .selected a3 rfl (h.following.mpr (isSome_iff_ne_none.mpr hnone)) rfl rfl
            (fun hmaster => by cases hmaster) (fun hzero => absurd hzero hnamed) (fun hwas =>
              absurd hwas hsame)
            fun _ => ?_
          cases hrank : s.nanCluster with
          | false => exact .outranked rfl hrank
          | true => exact .silent hrank (by simpa [hrank] using hguard)
        · exact same _
    · split
      · exact same _
      · exact same _

theorem tick_move (nowUs : Nat) : Move mac nowUs s (s.tick nowUs).1 := by
  unfold tick
  split
  · exact .dropped rfl rfl rfl rfl
  · exact same _

theorem becomeNowMaster_move (h : SelectionInv mac s) (nowUs : Nat) (unixUs : Option Nat) :
    Move mac nowUs s (s.becomeNowMaster mac nowUs unixUs).1 := by
  unfold becomeNowMaster
  split
  · exact same _
  next hfree =>
    have hmaster : s.cluster ≠ none → s.nowMaster = true := fun hsome => by
      simpa [isSome_iff_ne_none.mpr hsome] using hfree
    refine .selected mac rfl rfl rfl rfl (fun _ => ⟨rfl, rfl⟩) (fun _ => rfl) (fun hwas =>
      ?_) fun hne => ?_
    · exact (h.mastered (hmaster (by simp [hwas]))).2.symm
    by_cases hnone : s.cluster = none
    · exact .unselected hnone
    · exact absurd (h.mastered (hmaster hnone)).1 hne

theorem selection_cluster (hcluster : s.cluster = some current) :
    s.selection.cluster = current := by
  rw [selection, hcluster]
  rfl

theorem observeNowSync_move (h : SelectionInv mac s) (cluster : MacAddr) (tsfUs intervalTu : Nat)
    (nanAligned : Bool) (localUs : Nat) :
    Move mac localUs s (s.observeNowSync mac cluster tsfUs intervalTu nanAligned localUs).1 := by
  unfold observeNowSync
  split
  · exact same _
  · exact same _
  · next hrefresh =>
      obtain ⟨hnamed, hforeign, hsame⟩ := nowSyncDecide_refresh hrefresh
      cases hcluster : s.cluster with
      | none =>
        rw [selection, hcluster] at hsame
        exact absurd hsame.symm hnamed
      | some current =>
        rw [selection_cluster hcluster] at hsame
        subst hsame
        have hfollower : s.nowMaster = true → False := fun hmaster =>
          hforeign (some.inj (hcluster.symm.trans (h.mastered hmaster).1))
        exact .refreshed current hcluster rfl rfl rfl rfl (fun hnan => by simp [hnan])
          (fun hmaster => (hfollower hmaster).elim) id hnamed
  · next hjoin =>
      obtain ⟨hnamed, -, hother, hway⟩ := nowSyncDecide_join hjoin
      refine .selected cluster rfl rfl rfl rfl (fun hmaster => by cases hmaster) (fun hzero =>
        absurd hzero hnamed)
        (fun hwas => absurd (selection_cluster hwas) hother) fun _ => ?_
      cases hcluster : s.cluster with
      | none => exact .unselected hcluster
      | some current =>
      rw [selection_cluster hcluster] at hway
      rcases hway with ⟨rfl, hfirst⟩ | ⟨-, ⟨hnan, hnow⟩ | ⟨hrank, ⟨hmaster, hlower⟩ | hsilent⟩⟩
      · have hmaster := h.named hcluster
        obtain ⟨hself, hrank⟩ := h.mastered hmaster
        obtain rfl : zeroMac = mac := some.inj (hcluster.symm.trans hself)
        rw [not_macLt_zeroMac] at hfirst
        exact .outranked (hfirst.resolve_right Bool.false_ne_true) hrank
      · exact .outranked hnan hnow
      · exact .lower hmaster (by rw [hrank]; exact (h.mastered hmaster).2)
          ⟨current, hcluster, hlower⟩
      · exact .silent hrank.symm hsilent

theorem react_move (h : SelectionInv mac s) (op : Nat × Input) :
    Move mac op.1 s (s.react mac op).1 := by
  obtain ⟨nowUs, input⟩ := op
  cases input with
  | observe bytes => exact h.observe_move ⟨bytes, nowUs⟩
  | observeApBeacon bytes => exact observeApBeacon_move ⟨bytes, nowUs⟩
  | observeNowSync cluster tsfUs intervalTu nanAligned =>
    exact h.observeNowSync_move cluster tsfUs intervalTu nanAligned nowUs
  | becomeNowMaster => exact h.becomeNowMaster_move nowUs ..
  | tick => exact tick_move nowUs

theorem history (mac : MacAddr) (staleAfterUs : Nat) (ops : List (Nat × Input)) :
    SelectionInv mac (.history mac staleAfterUs ops) :=
  Runs.invariant (fun _ op h => h.move (h.react_move op)) (.new staleAfterUs) ops

end SelectionInv

/-! ## What has been heard -/

/-- The clock of a history does not go back. -/
def Clocked (ops : List (Nat × Input)) : Prop := (ops.map (·.1)).Pairwise (· ≤ ·)

theorem react_staleAfterUs (s : NanState) (op : Nat × Input) :
    (s.react mac op).1.staleAfterUs = s.staleAfterUs := by
  obtain ⟨nowUs, input⟩ := op
  cases input with
  | observe bytes =>
    simp only [react, observe]
    repeat' split
    all_goals rfl
  | observeApBeacon bytes =>
    simp only [react, observeApBeacon]
    repeat' split
    all_goals rfl
  | observeNowSync cluster tsfUs intervalTu nanAligned =>
    simp only [react, observeNowSync]
    split
    all_goals rfl
  | becomeNowMaster unixUs =>
    simp only [react, becomeNowMaster]
    split
    all_goals rfl
  | tick =>
    simp only [react, tick]
    split
    all_goals rfl

theorem history_staleAfterUs (staleAfterUs : Nat) (ops : List (Nat × Input)) :
    (history mac staleAfterUs ops).staleAfterUs = staleAfterUs :=
  Runs.invariant (P := fun s => s.staleAfterUs = staleAfterUs) (fun s op h =>
    (react_staleAfterUs mac s op).trans h) rfl ops

variable {s : NanState}

/-- A call that hears the selected cluster keeps it alive. -/
theorem heard_refreshes {mac : MacAddr} (hheard : op.2.heard mac = some cluster)
    (hselected : (s.react mac op).1.cluster = some cluster) :
    (s.react mac op).1.lastBeaconUs = op.1 := by
  obtain ⟨nowUs, input⟩ := op
  cases input with
  | observe bytes =>
    obtain ⟨hnan, ha3⟩ : isNanBeacon bytes = true ∧ bssid bytes = some cluster := by
      simpa [Input.heard] using hheard
    revert hselected
    simp only [react, observe, ha3]
    split_ifs with hnone hsame hguard
    · exact fun _ => rfl
    · exact fun _ => rfl
    · exact fun _ => rfl
    · exact fun hselected => absurd hselected hsame
  | observeNowSync found tsfUs intervalTu nanAligned =>
    obtain ⟨hnamed, rfl⟩ : ¬ (found = zeroMac ∨ found = mac) ∧ found = cluster := by
      simpa [Input.heard] using hheard
    obtain ⟨hzero, hforeign⟩ := not_or.mp hnamed
    revert hselected
    simp only [react, observeNowSync]
    -- A record that leaves the state alone is not of the selected cluster.
    have hkept : s.cluster = some found →
        nowSyncDecide s.selection mac found nanAligned nowUs = .refresh :=
      fun hcluster => by
        have hsel := SelectionInv.selection_cluster hcluster
        have := nowSyncDecide_own (hsel ▸ hzero) (hsel ▸ hforeign) nanAligned nowUs
        rwa [hsel] at this
    split
    · next hdecide => exact fun hselected => by cases hdecide.symm.trans (hkept hselected)
    · next hdecide => exact fun hselected => by cases hdecide.symm.trans (hkept hselected)
    · exact fun _ => rfl
    · exact fun _ => rfl
  | observeApBeacon bytes => cases hheard
  | becomeNowMaster unixUs => cases hheard
  | tick => cases hheard

theorem history_append (staleAfterUs : Nat) (ops : List (Nat × Input)) (op : Nat × Input) :
    history mac staleAfterUs (ops ++ [op]) =
      ((history mac staleAfterUs ops).react mac op).1 := by
  simp [history, Runs.exec]

/-- The selected cluster was last heard no later than its last beacon. -/
theorem heard_le_last {mac : MacAddr} {staleAfterUs : Nat} (hclock : Clocked ops) :
    ∀ {cluster : MacAddr} {heardUs : Nat},
      (history mac staleAfterUs ops).cluster = some cluster →
      (cluster, heardUs) ∈ arrivals mac ops →
        heardUs ≤ (history mac staleAfterUs ops).lastBeaconUs := by
  induction ops using reverseRecOn with
  | nil => exact fun _ hmem => by cases hmem
  | append_singleton ops op ih =>
    intro cluster heardUs hselected hmem
    rw [history_append] at hselected ⊢
    rw [Clocked, map_append, pairwise_append] at hclock
    obtain ⟨hbefore, -, hlater⟩ := hclock
    rw [arrivals_append, mem_append] at hmem
    rcases hmem with hold | hnew
    · obtain ⟨earlier, hearlier, hsame, -⟩ := exists_of_mem_arrivals hold
      have hle : heardUs ≤ op.1 :=
        hsame.symm.le.trans (hlater earlier.1 (mem_map_of_mem hearlier) op.1 (by simp))
      cases (SelectionInv.history mac staleAfterUs ops).react_move op with
      | kept hcluster hmode hnan hmaster hsame =>
        have hwas := hcluster ▸ hselected
        rw [hsame (by rw [hwas]; rfl)]
        exact ih hbefore hwas hold
      | refreshed found hwas hcluster hmode hsync hlast hnan hmaster hkeeps hnamed =>
        exact hlast ▸ hle
      | selected found hcluster hmode hsync hlast hmaster hnamed hsame hway => exact hlast ▸ hle
      | dropped hcluster hmode hnan hmaster => cases hcluster.symm.trans hselected
    · obtain ⟨earlier, hearlier, hsame, hheard⟩ := exists_of_mem_arrivals hnew
      obtain rfl := mem_singleton.mp hearlier
      exact (hsame.symm.trans (heard_refreshes hheard hselected).symm).le

/-! ## What is announced -/

theorem observe_armA3 {frame : RxFrame} : (s.observe frame).2 = .armA3 cluster ↔
      (s.observe frame).1.cluster = some cluster ∧ s.cluster ≠ some cluster := by
  unfold observe
  split
  · simp
  split
  · split_ifs with hnone hsame hguard
    · simp only [Action.armA3.injEq, some.injEq]
      exact ⟨fun h => ⟨h, by simp [hnone]⟩, And.left⟩
    · exact ⟨fun h => (by cases h), fun h => absurd h.1 h.2⟩
    · simp only [Action.armA3.injEq, some.injEq]
      exact ⟨fun h => ⟨h, h ▸ hsame⟩, And.left⟩
    · simp
  · split <;> simp

theorem observeNowSync_armA3 {mac found : MacAddr} {tsfUs intervalTu : Nat} :
    (s.observeNowSync mac found tsfUs intervalTu nanAligned localUs).2 = .armA3 cluster ↔
      (s.observeNowSync mac found tsfUs intervalTu nanAligned localUs).1.cluster = some cluster ∧
        s.cluster ≠ some cluster := by
  unfold observeNowSync
  split
  · simp
  · simp
  · exact ⟨fun h => (by cases h), fun h => absurd h.1 h.2⟩
  next hjoin =>
    have hother := (nowSyncDecide_join hjoin).2.2.1
    simp only [Action.armA3.injEq, some.injEq]
    refine ⟨fun h => ⟨h, fun hcluster => hother ?_⟩, And.left⟩
    rw [SelectionInv.selection_cluster hcluster, h]

/-- The cluster that a frame or record is of. -/
def Input.names : Input → Option MacAddr
  | .observe bytes | .observeApBeacon bytes => bssid bytes
  | .observeNowSync cluster _ _ _ => some cluster
  | _ => none

namespace SelectionInv

variable {mac : MacAddr} {s s' : NanState} {nowUs : Nat}

/-- A NAN cluster gives way to a NAN cluster only. -/
theorem keeps_nan (h : SelectionInv mac s) (hmove : Move mac nowUs s s')
    (hwas : s.cluster.isSome = true) (hnan : s.nanCluster = true)
    (hcluster : s'.cluster.isSome = true) : s'.nanCluster = true := by
  cases hmove with
  | kept _ _ _ _ hsame => rw [hsame hwas, hnan]
  | refreshed _ _ _ _ _ _ hrank => exact hrank hnan
  | selected cluster _ _ _ _ _ _ hsame hway =>
    by_cases hown : s.cluster = some cluster
    · rw [hsame hown, hnan]
    cases hway hown with
    | unselected hnone => simp [hnone] at hwas
    | outranked _ hnow => cases hnow.symm.trans hnan
    | silent hrank _ => exact hrank ▸ hnan
    | lower hmaster _ _ => cases (h.mastered hmaster).2.symm.trans hnan
  | dropped hnone _ _ _ => simp [hnone] at hcluster

/-- A cluster gives way to one of its rank after it was silent, or to a lower one that this device
is not the master of. -/
theorem replaces (hmove : Move mac nowUs s s') (hwas : s.cluster = some current)
    (hcluster : s'.cluster = some cluster) (hne : current ≠ cluster)
    (hrank : s.nanCluster = s'.nanCluster) : s.lastBeaconUs + clusterReselectAfterUs ≤ nowUs ∨
      s.nowMaster = true ∧ s'.nanCluster = false ∧ macLt cluster current = true := by
  have hchanged : s.cluster ≠ s'.cluster := by
    rw [hwas, hcluster]
    exact fun heq => hne (some.inj heq)
  cases hmove with
  | kept hsame _ _ _ _ => exact absurd hsame.symm hchanged
  | refreshed _ hold hnew _ _ _ _ _ _ _ => exact absurd (hold.trans hnew.symm) hchanged
  | selected found hfound _ _ _ _ _ _ hway =>
    obtain rfl : found = cluster := some.inj (hfound.symm.trans hcluster)
    cases hway (hfound ▸ hchanged) with
    | unselected hnone => cases hnone.symm.trans hwas
    | outranked hnan hnow => cases hnow.symm.trans (hrank.trans hnan)
    | silent _ hsilent =>
      have : 0 < clusterReselectAfterUs := by decide
      exact .inl (by omega)
    | lower hmaster hnow hlower =>
      obtain ⟨old, hold, hlt⟩ := hlower
      obtain rfl : old = current := some.inj (hold.symm.trans hwas)
      exact .inr ⟨hmaster, hnow, hlt⟩
  | dropped hnone _ _ _ => cases hnone.symm.trans hcluster

/-- Only a device that follows no cluster becomes the master of its own. -/
theorem becomeNowMaster_changes (h : SelectionInv mac s) (nowUs : Nat) (unixUs : Option Nat)
    (hchanged : (s.becomeNowMaster mac nowUs unixUs).1.cluster ≠ s.cluster) :
    s.cluster = none ∧ (s.becomeNowMaster mac nowUs unixUs).1.nowMaster = true := by
  revert hchanged
  unfold becomeNowMaster
  split_ifs with hfollows
  · exact fun hchanged => absurd rfl hchanged
  refine fun hchanged => ⟨by_contra fun hsome => hchanged ?_, rfl⟩
  have hmaster : s.nowMaster = true := by
    simpa [isSome_iff_ne_none.mpr hsome] using hfollows
  exact (h.mastered hmaster).1.symm

/-- A tick drops a cluster that fell silent, and says so. -/
theorem tick_rediscover (h : SelectionInv mac s) (nowUs : Nat) :
    ((s.tick nowUs).2 = .rediscover ↔ (s.tick nowUs).1.cluster = none ∧ s.cluster ≠ none) ∧
      ∀ cluster, (s.tick nowUs).1.cluster = some cluster →
        nowUs < (s.tick nowUs).1.lastBeaconUs + s.staleAfterUs := by
  unfold tick
  split_ifs with hstale
  · exact ⟨⟨fun _ => ⟨rfl, isSome_iff_ne_none.mp (h.following.mp hstale.1)⟩, fun _ => rfl⟩,
      fun _ hsome => by
      cases hsome⟩
  refine ⟨⟨fun hno => (by cases hno), fun hnone => absurd hnone.1 hnone.2⟩,
    fun cluster hcluster => ?_⟩
  have hsome : s.cluster.isSome = true := isSome_of_eq_some hcluster
  have hearly := not_and.mp hstale (h.following.mpr hsome)
  show nowUs < s.lastBeaconUs + s.staleAfterUs
  omega

end SelectionInv

/-- No other call than a tick drops the cluster, nor says so. -/
theorem keeps_cluster {mac : MacAddr} (htick : op.2 ≠ .tick) :
    (s.react mac op).2 ≠ .action .rediscover ∧
      ((s.react mac op).1.cluster = none → s.cluster = none) := by
  obtain ⟨nowUs, input⟩ := op
  cases input with
  | observe bytes =>
    show (Reply.action (s.observe ⟨bytes, nowUs⟩).2 ≠ _ ∧
      ((s.observe ⟨bytes, nowUs⟩).1.cluster = none → _))
    unfold observe
    repeat' split
    all_goals simp [follow]
  | observeApBeacon bytes =>
    show (Reply.silent ≠ _ ∧ ((s.observeApBeacon ⟨bytes, nowUs⟩).cluster = none → _))
    unfold observeApBeacon
    repeat' split
    all_goals simp
  | observeNowSync cluster tsfUs intervalTu nanAligned =>
    show (Reply.action (s.observeNowSync mac cluster tsfUs intervalTu nanAligned nowUs).2 ≠ _ ∧
      ((s.observeNowSync mac cluster tsfUs intervalTu nanAligned nowUs).1.cluster = none → _))
    unfold observeNowSync
    split
    all_goals simp
  | becomeNowMaster unixUs =>
    show (Reply.master (s.becomeNowMaster mac nowUs unixUs).2 ≠ _ ∧
      ((s.becomeNowMaster mac nowUs unixUs).1.cluster = none → _))
    unfold becomeNowMaster
    split
    all_goals simp
  | tick => exact absurd rfl htick

/-- What a frame or record of a cluster that stays unselected changes. -/
theorem unselected_same {mac : MacAddr}
    (hnames : op.2.names = some cluster) (hun : (s.react mac op).1.cluster ≠ some cluster) :
    (s.react mac op).1 = s ∨ s.cluster = none ∧ ∃ bytes, op.2 = .observeApBeacon bytes ∧
      (s.react mac op).1 = { s with
        syncBssid := (s.react mac op).1.syncBssid
        lastBeaconTsfUs := (s.react mac op).1.lastBeaconTsfUs
        beaconIntervalTu := (s.react mac op).1.beaconIntervalTu
        lastBeaconUs := (s.react mac op).1.lastBeaconUs } := by
  obtain ⟨nowUs, input⟩ := op
  cases input with
  | observe bytes =>
    left
    revert hun
    simp only [react, observe, show bssid bytes = some cluster from hnames]
    split_ifs with hnan hnone hsame
    · exact fun hun => absurd rfl hun
    · exact fun hun => absurd hsame hun
    · exact fun hun => absurd rfl hun
    all_goals exact fun _ => rfl
  | observeApBeacon bytes =>
    by_cases hsome : s.cluster.isSome = true
    · left
      simp [react, observeApBeacon, hsome]
    refine .inr ⟨by simpa using hsome, bytes, rfl, ?_⟩
    simp only [react, observeApBeacon]
    repeat' split
    all_goals rfl
  | observeNowSync found tsfUs intervalTu nanAligned =>
    obtain rfl : found = cluster := some.inj hnames
    left
    revert hun
    simp only [react, observeNowSync]
    split
    · exact fun _ => rfl
    · exact fun _ => rfl
    · next hrefresh =>
        obtain ⟨hzero, -, hsame⟩ := nowSyncDecide_refresh hrefresh
        intro hun
        cases hcluster : s.cluster with
        | none => exact absurd (by rw [← hsame, selection, hcluster]; rfl) hzero
        | some current =>
          rw [SelectionInv.selection_cluster hcluster] at hsame
          exact absurd (hsame ▸ hcluster) hun
    · exact fun hun => absurd rfl hun
  | becomeNowMaster unixUs => cases hnames
  | tick => cases hnames

/-- The filter is armed exactly when the cluster changes, except by the call that makes this device
the master. -/
theorem react_armA3 {mac : MacAddr} (cluster : MacAddr) :
    (s.react mac op).2 = .action (.armA3 cluster) ↔
      (s.react mac op).1.cluster = some cluster ∧ s.cluster ≠ some cluster ∧ ∀ unixUs,
        op.2 ≠ .becomeNowMaster unixUs := by
  obtain ⟨nowUs, input⟩ := op
  cases input with
  | observe bytes =>
    show Reply.action (s.observe ⟨bytes, nowUs⟩).2 = _ ↔
      (s.observe ⟨bytes, nowUs⟩).1.cluster = _ ∧ _
    simp [observe_armA3]
  | observeApBeacon bytes =>
    show Reply.silent = _ ↔ (s.observeApBeacon ⟨bytes, nowUs⟩).cluster = _ ∧ _
    unfold observeApBeacon
    repeat' split
    all_goals simp
  | observeNowSync found tsfUs intervalTu nanAligned =>
    show Reply.action (s.observeNowSync mac found tsfUs intervalTu nanAligned nowUs).2 = _ ↔
      (s.observeNowSync mac found tsfUs intervalTu nanAligned nowUs).1.cluster = _ ∧ _
    simp [observeNowSync_armA3]
  | becomeNowMaster unixUs =>
    exact ⟨fun h => (by cases h), fun h => absurd rfl (h.2.2 unixUs)⟩
  | tick =>
    show Reply.action (s.tick nowUs).2 = _ ↔ (s.tick nowUs).1.cluster = _ ∧ _
    unfold tick
    split
    all_goals simp

/-- The master is announced by the answer. -/
theorem becomeNowMaster_answer (s : NanState) (mac : MacAddr) (nowUs : Nat) (unixUs : Option Nat) :
    (s.becomeNowMaster mac nowUs unixUs).2 = (s.becomeNowMaster mac nowUs unixUs).1.nowMaster := by
  unfold becomeNowMaster
  split
  · next hfollows => simp_all
  · rfl

/-! ## The result -/

/-- What a call may do to the selection, given what was heard before it. -/
structure Ranked (mac : MacAddr) (staleAfterUs : Nat) (heard : List (MacAddr × Nat))
    (op : Nat × Input) (s s' : NanState) (reply : Reply) : Prop where
  mode : s'.mode = .cluster ↔ s'.cluster.isSome = true
  synced : ∀ cluster, s'.cluster = some cluster → s'.syncBssid = some cluster
  mastered : s'.nowMaster = true → s'.cluster = some mac ∧ s'.nanCluster = false
  nan : s.cluster.isSome = true → s.nanCluster = true →
    s'.cluster.isSome = true ∧ s'.nanCluster = true ∨ s'.cluster = none ∧ op.2 = .tick
  replaced : ∀ current cluster, s.cluster = some current → s'.cluster = some cluster →
    current ≠ cluster →
    s.nanCluster = s'.nanCluster →
      (∀ heardUs, (current, heardUs) ∈ heard → heardUs + clusterReselectAfterUs ≤ op.1) ∨
        s.nowMaster = true ∧ s'.nanCluster = false ∧ macLt cluster current = true
  /-- Every other call than the one that makes this device the master arms the filter when the
  cluster changes. -/
  armed : ∀ cluster, reply = .action (.armA3 cluster) ↔
    s'.cluster = some cluster ∧ s.cluster ≠ some cluster ∧ ∀ unixUs, op.2 ≠ .becomeNowMaster unixUs
  led : ∀ unixUs, op.2 = .becomeNowMaster unixUs →
    reply = .master s'.nowMaster ∧ (s'.cluster ≠ s.cluster → s.cluster = none ∧ s'.nowMaster = true)
  rediscovered : reply = .action .rediscover ↔ s'.cluster = none ∧ s.cluster ≠ none
  fresh : op.2 = .tick → ∀ cluster, s'.cluster = some cluster →
    op.1 < s'.lastBeaconUs + staleAfterUs
  unselected : ∀ cluster, op.2.names = some cluster → s'.cluster ≠ some cluster →
    s' = s ∨ s.cluster = none ∧ ∃ bytes, op.2 = .observeApBeacon bytes ∧ s' = { s with
        syncBssid := s'.syncBssid
        lastBeaconTsfUs := s'.lastBeaconTsfUs
        beaconIntervalTu := s'.beaconIntervalTu
        lastBeaconUs := s'.lastBeaconUs }

/-- The rules hold of every call after every history. -/
theorem selection_ranked (mac : MacAddr) (staleAfterUs : Nat) (ops : List (Nat × Input))
    (op : Nat × Input) (hclock : Clocked (ops ++ [op])) :
    Ranked mac staleAfterUs (arrivals mac ops) op (.history mac staleAfterUs ops)
    (.history mac staleAfterUs (ops ++ [op])) ((history mac staleAfterUs ops).react mac op).2 := by
  have hinv := SelectionInv.history mac staleAfterUs ops
  have hnext := SelectionInv.history mac staleAfterUs (ops ++ [op])
  have hmove := hinv.react_move op
  have hbefore : Clocked ops := by
    rw [Clocked, map_append, pairwise_append] at hclock
    exact hclock.1
  rw [history_append] at hnext ⊢
  constructor
  case mode => exact hnext.following
  case synced => exact hnext.synced
  case mastered => exact hnext.mastered
  case nan =>
    intro hwas hnan
    cases hcluster : ((history mac staleAfterUs ops).react mac op).1.cluster with
    | some cluster => exact .inl ⟨rfl, hinv.keeps_nan hmove hwas hnan (isSome_of_eq_some hcluster)⟩
    | none =>
      refine .inr ⟨rfl, by_contra fun htick => ?_⟩
      rw [(keeps_cluster htick).2 hcluster] at hwas
      cases hwas
  case replaced =>
    intro current cluster hwas hcluster hne hrank
    refine (SelectionInv.replaces hmove hwas hcluster hne
      hrank).imp_left fun hsilent heardUs hmem => ?_
    have := heard_le_last hbefore hwas hmem
    omega
  case armed => exact react_armA3
  case led =>
    rintro unixUs hop
    obtain ⟨nowUs, input⟩ := op
    subst hop
    exact ⟨congrArg Reply.master (becomeNowMaster_answer _ mac nowUs unixUs),
      hinv.becomeNowMaster_changes nowUs unixUs⟩
  case rediscovered =>
    by_cases htick : op.2 = .tick
    · obtain ⟨nowUs, input⟩ := op
      subst htick
      exact Reply.action.injEq _ _ ▸ (hinv.tick_rediscover nowUs).1
    · exact ⟨fun h => absurd h (keeps_cluster htick).1, fun h =>
        absurd ((keeps_cluster htick).2 h.1) h.2⟩
  case fresh =>
    intro htick
    obtain ⟨nowUs, input⟩ := op
    subst htick
    have hfresh := (hinv.tick_rediscover nowUs).2
    rwa [history_staleAfterUs] at hfresh
  case unselected => exact fun cluster hnames hun => unselected_same hnames hun

/-- A NAN beacon of the cluster that ends with a byte. -/
def nanBeacon (last : UInt8) : Bytes :=
  0x80 :: List.replicate 15 0 ++ [0x50, 0x6f, 0x9a, 0, 0, last]

def nanMac (last : UInt8) : MacAddr := ⟨[0x50, 0x6f, 0x9a, 0, 0, last], rfl⟩

/-- The first cluster is the device's own and announced by the answer, a beacon of an access point
sets the timing while nothing is selected, and records that name this device do not keep a NAN
cluster of that name alive. -/
theorem selection_unruly :
    (¬ ∀ (mac : MacAddr) (staleAfterUs : Nat) (ops : List (Nat × Input)) (op : Nat × Input)
      (cluster : MacAddr),
      Clocked (ops ++ [op]) → (((history mac staleAfterUs ops).react mac op).2 =
        .action (.armA3 cluster) ↔
          (history mac staleAfterUs (ops ++ [op])).cluster = some cluster ∧
            (history mac staleAfterUs ops).cluster ≠ some cluster)) ∧
      (¬ ∀ (mac : MacAddr) (staleAfterUs : Nat) (ops : List (Nat × Input)) (op : Nat × Input)
        (cluster : MacAddr),
        Clocked (ops ++ [op]) → op.2.names = some cluster →
          (history mac staleAfterUs (ops ++ [op])).cluster ≠ some cluster →
            history mac staleAfterUs (ops ++ [op]) = history mac staleAfterUs ops) ∧
      ¬ ∀ (mac : MacAddr) (staleAfterUs : Nat) (ops : List (Nat × Input)) (op : Nat × Input)
        (current cluster : MacAddr), Clocked (ops ++ [op]) →
          (history mac staleAfterUs ops).cluster = some current →
          (history mac staleAfterUs ops).nanCluster = true →
          (history mac staleAfterUs (ops ++ [op])).cluster = some cluster →
            current ≠ cluster →
            ∀ earlier ∈ ops, earlier.2.names = some current →
              earlier.1 + clusterReselectAfterUs ≤ op.1 := by
  refine ⟨fun hall => ?_, fun hall => ?_, fun hall => ?_⟩
  · have := (hall (nanMac 1) 5000000 [] (0, .becomeNowMaster none) (nanMac 1)
      (by simp [Clocked])).mpr (by decide)
    cases this
  · have := hall (nanMac 1) 5000000 [] (7, .observeApBeacon (nanBeacon 2)) (nanMac 2)
      (by simp [Clocked]) (by decide)
      (by decide)
    exact absurd (congrArg lastBeaconUs this) (by decide)
  have := hall (nanMac 1) 5000000
    [(0, .observe (nanBeacon 1)), (clusterReselectAfterUs, .observeNowSync (nanMac 1) 0 512 true)]
    (clusterReselectAfterUs, .observe (nanBeacon 2)) (nanMac 1) (nanMac 2) (by simp [Clocked])
      (by decide) (by decide)
  exact absurd this (by decide)

/-- A device leads its own cluster, and gives way to a lower one. -/
theorem lower_cluster_ranked : Ranked (nanMac 9) 5000000 []
    (1, .observeNowSync (nanMac 1) 0 512 false)
      (.history (nanMac 9) 5000000 [(0, .becomeNowMaster none)])
      (.history (nanMac 9) 5000000 [(0, .becomeNowMaster none),
        (1, .observeNowSync (nanMac 1) 0 512 false)]) (.action (.armA3 (nanMac 1))) :=
  selection_ranked (nanMac 9) 5000000 [(0, .becomeNowMaster none)]
    (1, .observeNowSync (nanMac 1) 0 512 false)
    (by simp [Clocked])

end QuicLite.Nan
