import QuicLite.Nan.State

/-!
# Discovery windows

The cluster's windows start at the multiples of 512 TU of its clock. A device finds them from the
last beacon it heard, by a subtraction that stops at zero: a beacon whose window started before the
device's own clock did puts the device out of phase.
-/

namespace QuicLite.Nan

def discoveryPeriodUs : Nat := 512 * 1024
def txDwellUs : Nat := 32000

/-- `nan_dw_boundary_local_us` -/
def dwBoundaryLocalUs (receivedLocalUs beaconTsfUs : Nat) : Nat :=
  receivedLocalUs - beaconTsfUs % discoveryPeriodUs

/-- `next_nan_dw_start_us` -/
def nextDwStartUs (anchorLocalUs nowUs : Nat) : Nat :=
  if nowUs ≤ anchorLocalUs then anchorLocalUs
  else anchorLocalUs + (nowUs - anchorLocalUs + (discoveryPeriodUs - 1)) / discoveryPeriodUs *
    discoveryPeriodUs

/-- `next_nan_capture_slot_start_us` -/
def nextCaptureSlotStartUs (boundaryLocalUs boundarySlot notBeforeUs interval preBeaconUs : Nat) :
    Nat :=
  let first := nextDwStartUs boundaryLocalUs (min (notBeforeUs + preBeaconUs) u64Max)
  let slot := boundarySlot + (first - boundaryLocalUs) / discoveryPeriodUs
  let interval := if interval = 0 then 1 else interval
  let skipped := (interval - slot % interval) % interval
  first + skipped * discoveryPeriodUs - preBeaconUs

structure DiscoveryWindow where
  slot : Nat
  startLocalUs : Nat
deriving DecidableEq

def DiscoveryWindow.openAt (window : DiscoveryWindow) (nowUs : Nat) : Bool :=
  window.startLocalUs ≤ nowUs && nowUs - window.startLocalUs ≤ txDwellUs

def NanState.syncTiming (s : NanState) : Option (Nat × Nat × Nat) :=
  if s.cluster.isSome ∧ s.lastBeaconUs ≠ 0 ∧ s.lastBeaconTsfUs ≠ 0 then
    some (s.lastBeaconUs, s.lastBeaconTsfUs, discoveryPeriodUs)
  else none

def NanState.windowAtOrAfter (s : NanState) (nowUs : Nat) : Option DiscoveryWindow :=
  match s.syncTiming with
  | none => none
  | some (anchorUs, tsfUs, periodUs) =>
    if s.staleAfterUs < nowUs - anchorUs then none
    else
      let boundaryUs := dwBoundaryLocalUs anchorUs tsfUs
      let window := fun k => DiscoveryWindow.mk (tsfUs / periodUs + k) (boundaryUs + k * periodUs)
      let k := (nowUs - boundaryUs) / periodUs
      if (window k).openAt nowUs || nowUs < (window k).startLocalUs then some (window k)
      else some (window (k + 1))

/-! ## The cluster's clock -/

/-- The slot that a device should name when the cluster's clock shows `time`. -/
def clusterSlot (time : Int) : Int :=
  if time % discoveryPeriodUs ≤ txDwellUs then time / discoveryPeriodUs
  else time / discoveryPeriodUs + 1

/-- The window is a window of the cluster, whose clock is `offset` ahead: the one that is open now,
else the earliest one that starts later. Its slot depends on the cluster's time alone. -/
structure Names (offset : Int) (nowUs : Nat) (window : DiscoveryWindow) : Prop where
  start : window.startLocalUs + offset = window.slot * discoveryPeriodUs
  chosen : window.openAt nowUs = true ∨
    (∀ slot : Int, ¬ (slot * discoveryPeriodUs ≤ nowUs + offset ∧ nowUs + offset ≤ slot *
      discoveryPeriodUs + txDwellUs)) ∧
      nowUs < window.startLocalUs ∧ ∀ slot : Int, nowUs + offset < slot * discoveryPeriodUs →
        window.slot ≤ slot
  common : window.slot = clusterSlot (nowUs + offset)
  fits : window.slot ≤ u64Max ∧ window.startLocalUs ≤ u64Max

/-- The capture starts `preBeaconUs` before window `k` after the boundary: the first that is late
enough and whose slot is a multiple of the interval. -/
def Captures (boundaryLocalUs boundarySlot notBeforeUs interval preBeaconUs : Nat) : Prop :=
  let eligible := fun k => notBeforeUs + preBeaconUs ≤ boundaryLocalUs + k * discoveryPeriodUs ∧
    max interval 1 ∣ boundarySlot + k
  ∃ k, nextCaptureSlotStartUs boundaryLocalUs boundarySlot notBeforeUs interval preBeaconUs +
    preBeaconUs =
      boundaryLocalUs + k * discoveryPeriodUs ∧
    eligible k ∧ (∀ j, eligible j → k ≤ j) ∧ boundaryLocalUs + k * discoveryPeriodUs ≤ u64Max ∧
      boundarySlot + k ≤ u64Max

theorem next_multiple {n : Nat} (hn : 0 < n) (a : Nat) :
    n ∣ a + (n - a % n) % n ∧ (n - a % n) % n < n ∧ ∀ b, a ≤ b → n ∣ b →
      a + (n - a % n) % n ≤ b := by
  have hdvd : n ∣ a + (n - a % n) % n := by
    rw [Nat.dvd_iff_mod_eq_zero, Nat.add_mod_mod, ← Nat.add_sub_assoc (Nat.mod_lt a hn).le]
    have hsplit : a + n - a % n = n * (a / n + 1) := by
      have := Nat.div_add_mod a n
      rw [Nat.mul_add]
      omega
    rw [hsplit, Nat.mul_mod_right]
  refine ⟨hdvd, Nat.mod_lt _ hn, fun b hab hb => ?_⟩
  by_contra hlt
  have hdiff := Nat.le_of_dvd (by omega) (Nat.dvd_sub hdvd hb)
  have hless := Nat.mod_lt (n - a % n) hn
  omega

theorem captures {boundaryLocalUs boundarySlot notBeforeUs interval preBeaconUs : Nat}
    (hboundary : boundaryLocalUs < 2 ^ 62) (hslot : boundarySlot < 2 ^ 62)
    (hbefore : notBeforeUs < 2 ^ 62) (hpre : preBeaconUs < 2 ^ 62) (hinterval : interval < 256) :
    Captures boundaryLocalUs boundarySlot notBeforeUs interval preBeaconUs := by
  have hmin : min (notBeforeUs + preBeaconUs) u64Max = notBeforeUs + preBeaconUs := by
    rw [u64Max]
    omega
  obtain ⟨first, hfirst, hlate, hleast⟩ : ∃ k,
      nextDwStartUs boundaryLocalUs (notBeforeUs + preBeaconUs) =
      boundaryLocalUs + k * discoveryPeriodUs ∧
      notBeforeUs + preBeaconUs ≤ boundaryLocalUs + k * discoveryPeriodUs ∧
      ∀ j, notBeforeUs + preBeaconUs ≤ boundaryLocalUs + j * discoveryPeriodUs → k ≤ j := by
    unfold nextDwStartUs
    split
    · exact ⟨0, by omega, by omega, by omega⟩
    · refine ⟨_, rfl, ?_, ?_⟩ <;> simp only [discoveryPeriodUs] <;> omega
  have hone : (if interval = 0 then 1 else interval) = max interval 1 := by
    split <;> omega
  obtain ⟨hdvd, hskipped, hnext⟩ :=
    next_multiple (by omega : 0 < max interval 1) (boundarySlot + first)
  have hk : (boundaryLocalUs + first * discoveryPeriodUs - boundaryLocalUs) / discoveryPeriodUs =
      first := by
    simp only [discoveryPeriodUs]
    omega
  have hbound : first ≤ (notBeforeUs + preBeaconUs) / discoveryPeriodUs + 1 := by
    apply hleast
    simp only [discoveryPeriodUs]
    omega
  unfold Captures nextCaptureSlotStartUs
  simp only [hmin, hfirst, hone, hk]
  generalize hstep : max interval 1 = step at *
  generalize (step - (boundarySlot + first) % step) % step = skipped at *
  simp only [discoveryPeriodUs, u64Max] at *
  refine ⟨first + skipped, by omega, ⟨hlate.trans (by omega), ?_⟩, ?_, by omega, by omega⟩
  · rw [Nat.add_assoc] at hdvd
    exact hdvd
  intro j hj
  have hle := hleast j hj.1
  have hslots := hnext (boundarySlot + j) (by omega) hj.2
  omega

/-- With a beacon whose window started on the device's own clock the device names the windows of its
cluster; after any other it names windows that are none. -/
theorem windows_exact_iff {s : NanState} {offset : Int} {nowUs : Nat} (hcluster : s.cluster.isSome)
    (hreceived : 0 < s.lastBeaconUs) (htsf : 0 < s.lastBeaconTsfUs)
    (hsync : s.lastBeaconTsfUs = s.lastBeaconUs + offset) (hnow : s.lastBeaconUs ≤ nowUs)
    (hfresh : nowUs - s.lastBeaconUs ≤ s.staleAfterUs) (hlocal : nowUs < 2 ^ 62)
    (hclock : nowUs + offset < 2 ^ 62) :
    ((∃ window, s.windowAtOrAfter nowUs = some window ∧ Names offset nowUs window) ∧
      ∀ boundaryLocalUs < 2 ^ 62, ∀ boundarySlot < 2 ^ 62, ∀ notBeforeUs < 2 ^ 62, ∀ interval < 256,
        ∀ preBeaconUs < 2 ^ 62, Captures boundaryLocalUs boundarySlot notBeforeUs interval
          preBeaconUs) ↔
      s.lastBeaconTsfUs % discoveryPeriodUs ≤ s.lastBeaconUs := by
  have htiming : s.syncTiming = some (s.lastBeaconUs, s.lastBeaconTsfUs, discoveryPeriodUs) :=
    if_pos ⟨hcluster, by omega, by omega⟩
  unfold NanState.windowAtOrAfter
  simp only [htiming, if_neg (not_lt.mpr hfresh)]
  constructor
  · rintro ⟨⟨window, hwindow, hnames⟩, -⟩
    obtain ⟨k, rfl⟩ : ∃ k, window = ⟨s.lastBeaconTsfUs / discoveryPeriodUs + k,
        dwBoundaryLocalUs s.lastBeaconUs s.lastBeaconTsfUs + k * discoveryPeriodUs⟩ := by
      split at hwindow
      · exact ⟨_, (Option.some.inj hwindow).symm⟩
      · exact ⟨_, (Option.some.inj hwindow).symm⟩
    have hstart := hnames.start
    simp only [discoveryPeriodUs] at hstart ⊢
    omega
  · intro hphase
    refine ⟨?_, fun _ h₁ _ h₂ _ h₃ _ h₄ _ h₅ => captures h₁ h₂ h₃ h₅ h₄⟩
    rw [← apply_ite some]
    refine ⟨_, rfl, ?_⟩
    generalize hboundary : dwBoundaryLocalUs s.lastBeaconUs s.lastBeaconTsfUs = boundary
    generalize hk : (nowUs - boundary) / discoveryPeriodUs = k
    have hopens : ∀ slot start, (DiscoveryWindow.mk slot start).openAt nowUs = true ↔
        start ≤ nowUs ∧ nowUs - start ≤ 32000 := by
      simp [DiscoveryWindow.openAt, txDwellUs]
    simp only [dwBoundaryLocalUs, discoveryPeriodUs] at hphase hboundary hk
    split_ifs with hopen
    all_goals rw [Bool.or_eq_true, hopens, decide_eq_true_eq] at hopen
    · refine ⟨?_, .inl ((hopens _ _).mpr ?_), ?_, ?_⟩
      all_goals simp only [txDwellUs, discoveryPeriodUs, clusterSlot, u64Max] at hopen ⊢
      all_goals omega
    refine ⟨?_, .inr ⟨?_, ?_, ?_⟩, ?_, ?_⟩
    all_goals simp only [txDwellUs, discoveryPeriodUs, clusterSlot, u64Max] at hopen ⊢
    all_goals omega

def ownMac : MacAddr := ⟨[2, 0, 0, 0, 0, 1], rfl⟩

def clusterMac : MacAddr := ⟨[0x50, 0x6f, 0x9a, 1, 0, 7], rfl⟩

/-- A device that has joined a cluster with the first sync record it received, in its first
second. -/
def synchronised (receivedUs tsfUs : Nat) : NanState :=
  ((NanState.new clusterStaleAfterUs).observeNowSync ownMac clusterMac tsfUs 512 true receivedUs).1

theorem inPhase_exact : (∃ window, (synchronised 600000 1000000).windowAtOrAfter 600000 =
    some window ∧
      Names 400000 600000 window) ∧
    ∀ boundaryLocalUs < 2 ^ 62, ∀ boundarySlot < 2 ^ 62, ∀ notBeforeUs < 2 ^ 62, ∀ interval < 256,
      ∀ preBeaconUs < 2 ^ 62, Captures boundaryLocalUs boundarySlot notBeforeUs interval
        preBeaconUs :=
  (windows_exact_iff rfl (by decide) (by decide) rfl le_rfl (by decide) (by decide) (by decide)).mpr
    (by decide)

/-- A beacon in the device's first millisecond: the window that it names starts 299 ms after the
cluster's. -/
theorem early_beacon_outOfPhase : (synchronised 1000 300000).windowAtOrAfter 1000 = some ⟨0, 0⟩ ∧
    ¬ Names 299000 1000 ⟨0, 0⟩ := by
  refine ⟨by decide, fun hnames => ?_⟩
  have hstart := hnames.start
  revert hstart
  decide

end QuicLite.Nan
