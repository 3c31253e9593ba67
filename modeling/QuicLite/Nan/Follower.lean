import QuicLite.Nan.State
import QuicLite.Lib.Runs

/-!
# The NOW follower

`NowSyncState` is the follower of NOW sync records alone. `NanState` is meant to make the same
selection from the same records: both are run side by side.
-/

namespace QuicLite.Nan

open List

/-! ## The follower -/

structure NowSyncObservation where
  anchorMaster : MacAddr
  clusterId : MacAddr
  tsfUs : Nat
  intervalTu : Nat
  nanAligned : Bool
  localUs : Nat

def NowSyncObservation.priority (self : NowSyncObservation) : Nat :=
  if self.nanAligned then 1 else 0

inductive NowSyncAction where
  | none
  | adopt (anchorMaster clusterId : MacAddr) (tsfUs : Nat)
  | refresh (tsfUs : Nat)
  /-- A NAN cluster while a NOW-only one is followed. -/
  | join (anchorMaster clusterId : MacAddr) (tsfUs : Nat)
  | reselect (anchorMaster clusterId : MacAddr) (tsfUs : Nat)
  | dropForeign
  | rediscover

structure NowSyncState where
  mode : FilterMode
  anchorMaster : Option MacAddr
  clusterId : MacAddr
  lastTsfUs : Nat
  intervalTu : Nat
  lastLocalUs : Nat
  nanAligned : Bool
  staleAfterUs : Nat

namespace NowSyncState

def new (staleAfterUs : Nat) : NowSyncState :=
  ⟨.discovery, none, zeroMac, 0, syncDefaultIntervalTu, 0, false, staleAfterUs⟩

def priority (self : NowSyncState) : Nat := if self.nanAligned then 1 else 0

def adopt (self : NowSyncState) (obs : NowSyncObservation) : NowSyncState :=
  { self with
    mode := .cluster
    anchorMaster := some obs.anchorMaster
    clusterId := obs.clusterId
    lastTsfUs := obs.tsfUs
    intervalTu := max obs.intervalTu 1
    lastLocalUs := obs.localUs
    nanAligned := obs.nanAligned }

def refresh (self : NowSyncState) (obs : NowSyncObservation) : NowSyncState :=
  { self with
    lastTsfUs := obs.tsfUs
    intervalTu := max obs.intervalTu 1
    lastLocalUs := obs.localUs }

end NowSyncState

def nowSyncObserve (state : NowSyncState) (obs : NowSyncObservation) :
    NowSyncAction × NowSyncState :=
  if obs.anchorMaster = zeroMac then (.none, state)
  else
    match state.anchorMaster with
    | none => (.adopt obs.anchorMaster obs.clusterId obs.tsfUs, state.adopt obs)
    | some current =>
      if current = obs.anchorMaster then (.refresh obs.tsfUs, state.refresh obs)
      else if state.priority < obs.priority then
        (.join obs.anchorMaster obs.clusterId obs.tsfUs, state.adopt obs)
      else if clusterReselectAfterUs ≤ obs.localUs - state.lastLocalUs then
        (.reselect obs.anchorMaster obs.clusterId obs.tsfUs, state.adopt obs)
      else (.dropForeign, state)

def nowSyncTick (state : NowSyncState) (nowUs : Nat) : NowSyncAction × NowSyncState :=
  if state.mode = .cluster ∧ state.staleAfterUs ≤ nowUs - state.lastLocalUs then
    (.rediscover, .new state.staleAfterUs)
  else (.none, state)

/-! ## Both side by side -/

/-- A record, of which the cluster is its anchor master, or a tick. -/
inductive FollowerInput where
  | record (cluster : MacAddr) (tsfUs intervalTu : Nat) (nanAligned : Bool)
  | tick

structure Followers where
  now : NowSyncState
  nan : NanState
  clock : Nat
  /-- What both have answered so far. -/
  answers : List (NowSyncAction × Action)

namespace Followers

def new (staleAfterUs : Nat) : Followers := ⟨.new staleAfterUs, .new staleAfterUs, 0, []⟩

def step (mac : MacAddr) (self : Followers) (op : Nat × FollowerInput) : Followers :=
  match op.2 with
  | .record cluster tsfUs intervalTu nanAligned =>
    let now := nowSyncObserve self.now ⟨cluster, cluster, tsfUs, intervalTu, nanAligned, op.1⟩
    let nan := self.nan.observeNowSync mac cluster tsfUs intervalTu nanAligned op.1
    ⟨now.2, nan.1, op.1, self.answers ++ [(now.1, nan.2)]⟩
  | .tick =>
    let now := nowSyncTick self.now op.1
    let nan := self.nan.tick op.1
    ⟨now.2, nan.1, op.1, self.answers ++ [(now.1, nan.2)]⟩

end Followers

open Followers

/-! ## The specification -/

/-- What one answers when the other gives an answer. -/
def NowSyncAction.corresponding : NowSyncAction → Action
  | .adopt _ clusterId _ | .join _ clusterId _ | .reselect _ clusterId _ => .armA3 clusterId
  | .dropForeign => .dropForeign
  | .rediscover => .rediscover
  | .none | .refresh _ => .none

/-- Both follow the same cluster, with the same timing and rank, and have answered alike. -/
structure Agree (s : Followers) : Prop where
  mode : s.now.mode = s.nan.mode
  cluster : s.now.anchorMaster = s.nan.cluster
  selected : ∀ cluster, s.nan.cluster = some cluster → s.now.clusterId = cluster ∧
    s.now.lastTsfUs = s.nan.lastBeaconTsfUs ∧ s.now.intervalTu = s.nan.beaconIntervalTu ∧
      s.now.lastLocalUs = s.nan.lastBeaconUs ∧ s.now.nanAligned = s.nan.nanCluster
  answers : ∀ answer ∈ s.answers, answer.2 = answer.1.corresponding

/-- The clock does not go back, and a record is of a cluster below this device. -/
def Offered (mac : MacAddr) (s : Followers) (op : Nat × FollowerInput) : Prop :=
  s.clock ≤ op.1 ∧ match op.2 with
    | .record cluster _ intervalTu _ =>
      cluster ≠ zeroMac ∧ macLt cluster mac = true ∧ 1 ≤ intervalTu
    | .tick => True

/-- A record does not raise the rank of the cluster that is followed, nor name a NOW-only cluster
after the guard while a NAN cluster is followed. -/
def SameRank (s : Followers) (op : Nat × FollowerInput) : Prop :=
  match op.2 with
  | .record cluster _ _ nanAligned =>
    ∀ current, s.nan.cluster = some current →
      (cluster = current → nanAligned = true → s.nan.nanCluster = true) ∧
        (cluster ≠ current → nanAligned = false → s.nan.nanCluster = true →
          op.1 - s.nan.lastBeaconUs < clusterReselectAfterUs)
  | .tick => True

/-! ## The invariant -/

structure FollowersInv (s : Followers) : Prop extends Agree s where
  following : s.nan.mode = .cluster ↔ s.nan.cluster.isSome = true
  stale : s.now.staleAfterUs = s.nan.staleAfterUs
  follower : s.nan.nowMaster = false
  named : s.nan.cluster ≠ some zeroMac

theorem macLt_irrefl (mac : MacAddr) : macLt mac mac = false := by
  simp [macLt]

namespace FollowersInv

theorem new (staleAfterUs : Nat) : FollowersInv (.new staleAfterUs) where
  mode := rfl
  cluster := rfl
  selected := fun cluster h => by cases h
  answers := fun answer h => by cases h
  following := by simp [Followers.new, NanState.new]
  stale := rfl
  follower := rfl
  named := fun h => by cases h

variable {mac : MacAddr} {s : Followers}

section

variable (h : FollowersInv s) {tsfUs intervalTu localUs : Nat} {nanAligned : Bool}
variable {cluster : MacAddr} {now : NowSyncAction}
include h

/-- Both select the cluster of the record. -/
theorem joined (hcluster : cluster ≠ zeroMac) (hnow : now.corresponding = .armA3 cluster) :
    FollowersInv ⟨s.now.adopt ⟨cluster, cluster, tsfUs, intervalTu, nanAligned, localUs⟩,
      { s.nan with
        cluster := some cluster
        syncBssid := some cluster
        lastBeaconTsfUs := tsfUs
        beaconIntervalTu := max intervalTu 1
        mode := .cluster
        lastBeaconUs := localUs
        nanCluster := nanAligned
        nowMaster := false }, localUs, s.answers ++ [(now, .armA3 cluster)]⟩ where
  mode := rfl
  cluster := rfl
  selected := by
    rintro found ⟨⟩
    exact ⟨rfl, rfl, rfl, rfl, rfl⟩
  answers := by
    intro answer hanswer
    rcases mem_append.mp hanswer with hold | hlast
    · exact h.answers answer hold
    · rw [mem_singleton.mp hlast, hnow]
  following := by simp
  stale := h.stale
  follower := rfl
  named := fun hzero => hcluster (Option.some.inj hzero)

theorem kept (localUs : Nat) {nan : Action} (hanswer : nan = now.corresponding) :
    FollowersInv ⟨s.now, s.nan, localUs, s.answers ++ [(now, nan)]⟩ where
  mode := h.mode
  cluster := h.cluster
  selected := h.selected
  answers := by
    intro answer hmem
    rcases mem_append.mp hmem with hold | hlast
    · exact h.answers answer hold
    · rw [mem_singleton.mp hlast, hanswer]
  following := h.following
  stale := h.stale
  follower := h.follower
  named := h.named

/-- Both refresh the timing of the cluster that they follow. -/
theorem refreshed {current : MacAddr} :
    FollowersInv ⟨s.now.refresh ⟨current, current, tsfUs, intervalTu, nanAligned, localUs⟩,
      { s.nan with
        lastBeaconTsfUs := tsfUs
        beaconIntervalTu := max intervalTu 1
        lastBeaconUs := localUs }, localUs, s.answers ++ [(.refresh tsfUs, .none)]⟩ where
  mode := h.mode
  cluster := h.cluster
  selected := by
    intro found hfound
    obtain ⟨hid, -, -, -, haligned⟩ := h.selected found hfound
    exact ⟨hid, rfl, rfl, rfl, haligned⟩
  answers := by
    intro answer hmem
    rcases mem_append.mp hmem with hold | hlast
    · exact h.answers answer hold
    · rw [mem_singleton.mp hlast]
      rfl
  following := h.following
  stale := h.stale
  follower := h.follower
  named := h.named

theorem record (hok : Offered mac s (localUs, .record cluster tsfUs intervalTu nanAligned))
    (hrank : SameRank s (localUs, .record cluster tsfUs intervalTu nanAligned)) :
    FollowersInv (s.step mac (localUs, .record cluster tsfUs intervalTu nanAligned)) := by
  obtain ⟨-, hcluster, hlower, -⟩ := hok
  have hforeign : ¬ (cluster = zeroMac ∨ cluster = mac) := by
    rintro (hzero | hself)
    · exact hcluster hzero
    · rw [hself, macLt_irrefl] at hlower
      cases hlower
  unfold step
  dsimp only
  cases hcurrent : s.nan.cluster with
  | none =>
    have hnow : nowSyncObserve s.now ⟨cluster, cluster, tsfUs, intervalTu, nanAligned, localUs⟩ =
        (.adopt cluster cluster tsfUs,
          s.now.adopt ⟨cluster, cluster, tsfUs, intervalTu, nanAligned, localUs⟩) := by
      rw [nowSyncObserve, if_neg hcluster, h.cluster, hcurrent]
    have hdecide : nowSyncDecide s.nan.selection mac cluster nanAligned localUs = .join := by
      rw [nowSyncDecide, if_neg hforeign, if_pos (show s.nan.selection.cluster = zeroMac by
        rw [NanState.selection, hcurrent]; rfl), hlower, Bool.or_true, if_pos rfl]
    rw [hnow, NanState.observeNowSync, hdecide]
    exact h.joined hcluster rfl
  | some current =>
    obtain ⟨-, -, -, hlast, haligned⟩ := h.selected current hcurrent
    have hselection : s.nan.selection.cluster = current := by
      rw [NanState.selection, hcurrent]
      rfl
    have hnamed : current ≠ zeroMac := fun hzero => h.named (hzero ▸ hcurrent)
    obtain ⟨hraise, hguard⟩ := hrank current hcurrent
    by_cases hsame : current = cluster
    · subst hsame
      have hnow : nowSyncObserve s.now ⟨current, current, tsfUs, intervalTu, nanAligned, localUs⟩ =
          (.refresh tsfUs, s.now.refresh ⟨current, current, tsfUs, intervalTu, nanAligned,
            localUs⟩) := by
        rw [nowSyncObserve, if_neg hcluster, h.cluster, hcurrent]
        exact if_pos rfl
      have hdecide : nowSyncDecide s.nan.selection mac current nanAligned localUs = .refresh := by
        rw [nowSyncDecide, if_neg hforeign, hselection, if_neg hnamed, if_pos rfl]
      have hkeeps : (nanAligned || s.nan.nanCluster) = s.nan.nanCluster := by
        cases nanAligned with
        | false => rfl
        | true => rw [hraise rfl rfl, Bool.or_true]
      rw [hnow, NanState.observeNowSync, hdecide]
      rw [hkeeps]
      exact h.refreshed
    · have hnow : nowSyncObserve s.now ⟨cluster, cluster, tsfUs, intervalTu, nanAligned, localUs⟩ =
          if s.now.priority < (if nanAligned then 1 else 0) then
            (.join cluster cluster tsfUs,
              s.now.adopt ⟨cluster, cluster, tsfUs, intervalTu, nanAligned, localUs⟩)
          else if clusterReselectAfterUs ≤ localUs - s.nan.lastBeaconUs then
            (.reselect cluster cluster tsfUs,
              s.now.adopt ⟨cluster, cluster, tsfUs, intervalTu, nanAligned, localUs⟩)
          else (.dropForeign, s.now) := by
        rw [nowSyncObserve, if_neg hcluster, h.cluster, hcurrent, ← hlast]
        exact if_neg hsame
      have hdecide : nowSyncDecide s.nan.selection mac cluster nanAligned localUs =
          if nanAligned && !s.nan.nanCluster then .join
          else if !nanAligned && s.nan.nanCluster then .drop
          else if clusterReselectAfterUs ≤ localUs - s.nan.lastBeaconUs then .join
          else .drop := by
        rw [nowSyncDecide, if_neg hforeign, hselection, if_neg hnamed, if_neg hsame]
        show (if _ then _ else if _ then _ else if s.nan.nowMaster = true then _ else _) = _
        rw [h.follower]
        rfl
      rw [hnow, NanState.observeNowSync, hdecide, NowSyncState.priority, haligned]
      cases nanAligned with
      | true =>
        cases hnan : s.nan.nanCluster with
        | true =>
          by_cases hlate : clusterReselectAfterUs ≤ localUs - s.nan.lastBeaconUs
          · simp only [if_pos hlate]
            exact h.joined hcluster rfl
          · simp only [if_neg hlate]
            exact h.kept localUs rfl
        | false => exact h.joined hcluster rfl
      | false =>
        cases hnan : s.nan.nanCluster with
        | true =>
          have hearly := hguard (Ne.symm hsame) rfl hnan
          simp only [if_neg (Nat.not_le.mpr hearly)]
          exact h.kept localUs rfl
        | false =>
          by_cases hlate : clusterReselectAfterUs ≤ localUs - s.nan.lastBeaconUs
          · simp only [if_pos hlate]
            exact h.joined hcluster rfl
          · simp only [if_neg hlate]
            exact h.kept localUs rfl

theorem tick (nowUs : Nat) : FollowersInv (s.step mac (nowUs, .tick)) := by
  have hsame : (s.now.mode = .cluster ∧ s.now.staleAfterUs ≤ nowUs - s.now.lastLocalUs) ↔
      (s.nan.mode = .cluster ∧ s.nan.staleAfterUs ≤ nowUs - s.nan.lastBeaconUs) := by
    rw [h.mode, h.stale]
    refine and_congr_right fun hmode => ?_
    obtain ⟨current, hcurrent⟩ := Option.isSome_iff_exists.mp (h.following.mp hmode)
    rw [(h.selected current hcurrent).2.2.2.1]
  unfold step
  by_cases hstale : s.nan.mode = .cluster ∧ s.nan.staleAfterUs ≤ nowUs - s.nan.lastBeaconUs
  · rw [nowSyncTick, if_pos (hsame.mpr hstale), NanState.tick, if_pos hstale]
    refine ⟨⟨rfl, rfl, fun cluster hcluster => (by cases hcluster), fun answer hmem => ?_⟩, by simp,
      h.stale, rfl,
      fun hzero => by cases hzero⟩
    rcases mem_append.mp hmem with hold | hlast
    · exact h.answers answer hold
    · rw [mem_singleton.mp hlast]
      rfl
  · rw [nowSyncTick, if_neg (mt hsame.mp hstale), NanState.tick, if_neg hstale]
    exact h.kept nowUs rfl

theorem step (op : Nat × FollowerInput) (hok : Offered mac s op ∧ SameRank s op) :
    FollowersInv (s.step mac op) := by
  obtain ⟨nowUs, input⟩ := op
  cases input with
  | record cluster tsfUs intervalTu nanAligned => exact h.record hok.1 hok.2
  | tick => exact h.tick nowUs

end

end FollowersInv

/-! ## The result -/

def macOf (last : UInt8) : MacAddr := ⟨[2, 0, 0, 0, 0, last], rfl⟩

/-- A NOW-only cluster turns out to be a NAN cluster. -/
def raised : List (Nat × FollowerInput) :=
  [(0, .record (macOf 1) 1000 512 false), (1, .record (macOf 1) 2000 512 true)]

/-- A NOW-only record after the guard, while a NAN cluster is followed. -/
def lowered : List (Nat × FollowerInput) :=
  [(0, .record (macOf 1) 1000 512 true), (2000000, .record (macOf 2) 2000 512 false)]

theorem followers_differ :
    ¬ (∀ (mac : MacAddr) (staleAfterUs : Nat) (ops : List (Nat × FollowerInput)),
        Runs.Along (step mac) (Offered mac) (.new staleAfterUs) ops →
          Agree (Runs.exec (step mac) (.new staleAfterUs) ops)) ∧
      (Runs.exec (step (macOf 9)) (.new 5000000) raised).now.nanAligned = false ∧
      (Runs.exec (step (macOf 9)) (.new 5000000) raised).nan.nanCluster = true ∧
      (Runs.exec (step (macOf 9)) (.new 5000000) lowered).now.anchorMaster =
        some (macOf 2) ∧
      (Runs.exec (step (macOf 9)) (.new 5000000) lowered).nan.cluster =
        some (macOf 1) := by
  refine ⟨fun hall => ?_, by decide, by decide, by decide, by decide⟩
  have hagree := hall (macOf 9) 5000000 raised
    ⟨⟨by decide, by decide, by decide, by decide⟩, ⟨by decide, by decide, by decide, by decide⟩,
      trivial⟩
  have hrank := (hagree.selected (macOf 1) (by decide)).2.2.2.2
  exact absurd hrank (by decide)

/-- The two followers agree in every run in which no record raises the rank of the cluster that is
followed, and none names a NOW-only cluster after the guard while a NAN cluster is followed. -/
theorem followers_agree (mac : MacAddr) (staleAfterUs : Nat) (ops : List (Nat × FollowerInput))
    (hrun : Runs.Along (step mac) (fun s op => Offered mac s op ∧ SameRank s op)
      (.new staleAfterUs) ops) :
    Agree (Runs.exec (step mac) (.new staleAfterUs) ops) := by
  have hinv : FollowersInv (Runs.exec (.step mac) (.new staleAfterUs) ops) :=
    Runs.Along.invariant (fun _ op h hok => h.step op hok) (.new staleAfterUs) hrun
  exact hinv.toAgree

/-- A NOW-only cluster is refreshed, gives way to a NAN cluster, and that one falls silent. -/
def silenced : List (Nat × FollowerInput) :=
  [(0, .record (macOf 2) 1000 512 false), (10, .record (macOf 2) 1010 512 false),
    (20, .record (macOf 1) 7 512 true), (30, .record (macOf 2) 1030 512 false), (5000020, .tick)]

theorem silenced_agree : Agree (Runs.exec (step (macOf 9)) (.new 5000000) silenced) ∧
      (Runs.exec (step (macOf 9)) (.new 5000000) silenced).answers.map (·.2) =
        [.armA3 (macOf 2), .none, .armA3 (macOf 1), .dropForeign, .rediscover] := by
  refine ⟨followers_agree (macOf 9) 5000000 silenced ?_, by decide⟩
  refine ⟨⟨⟨by decide, by decide, by decide, by decide⟩, ?_⟩,
    ⟨⟨by decide, by decide, by decide, by decide⟩, ?_⟩,
    ⟨⟨by decide, by decide, by decide, by decide⟩, ?_⟩,
      ⟨⟨by decide, by decide, by decide, by decide⟩, ?_⟩,
    ⟨⟨by decide, trivial⟩, trivial⟩, trivial⟩
  all_goals
    rintro current ⟨⟩
  · exact ⟨fun _ hfalse => absurd hfalse (by decide), fun hne => absurd rfl hne⟩
  · exact ⟨fun heq => absurd heq (by decide), fun _ hfalse => absurd hfalse (by decide)⟩
  · exact ⟨fun heq => absurd heq (by decide), fun _ _ _ => by decide⟩

end QuicLite.Nan
