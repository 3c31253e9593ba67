import QuicLite.Path
import QuicLite.Lib.Runs
import Mathlib.Algebra.Order.Floor.Div

/-!
# Rates of a path

The two computations that turn a path's window, round trip and packet size into a rate. Congestion
avoidance: the shortcut for a single path is the linked-increases equation. Pacing: what a refill
grants and the wait it is asked for are the two sides of one inequality, so that the deadline of a
refused packet is the least time at which it is sent.
-/

namespace QuicLite

open List Option Bool Nat

/-! ## Saturating products -/

variable {deficit rtt scale denominator : Nat}
variable {paths : List PathState} {pathId elapsed window mss : Nat} {path : PathState}

/-- Two saturating products saturate where the product of the three does. -/
theorem satMul128_satMul128 (a b c : Nat) :
    satMul128 (satMul128 a b) c = min (a * b * c) u128Max := by
  unfold satMul128
  rcases Nat.le_total (a * b) u128Max with hle | hle
  · rw [Nat.min_eq_left hle]
  rw [Nat.min_eq_right hle]
  rcases Nat.eq_zero_or_pos c with rfl | hc
  · rfl
  have h₁ := Nat.le_mul_of_pos_right u128Max hc
  have h₂ := Nat.le_trans hle (Nat.le_mul_of_pos_right (a * b) hc)
  rw [Nat.min_eq_right h₁, Nat.min_eq_right h₂]

theorem satMul128_eq {a b : Nat} (h : a * b ≤ u128Max) : satMul128 a b = a * b := min_eq_left h

/-! ## Linked increases -/

/-- Reno's increase of a path, in Q32 bytes. An empty window counts as one byte. -/
def renoIncreaseQ32 (path : PathState) (ackedBytes : Nat) : Nat :=
  ackedBytes * path.congestion.maxPacketSize * 2 ^ 32 / max path.congestion.congestionWindow 1

theorem linkedIncrease_target
    (h : ∀ target, paths[pathId]? = some target → isEligible target = false) (ackedBytes : Nat) :
    linkedCongestionIncreaseQ32 paths pathId ackedBytes = 0 := by
  unfold linkedCongestionIncreaseQ32
  by_cases hacked : ackedBytes = 0
  · rw [if_pos hacked]
  rw [if_neg hacked]
  cases htarget : paths[pathId]? with
  | none => rfl
  | some target => exact if_pos (by simp [h target htarget])

/-- A single path increases as Reno does, up to the saturation of the product. -/
theorem linkedIncrease_single (helig : isEligible path = true) (ackedBytes : Nat) :
    linkedCongestionIncreaseQ32 [path] 0 ackedBytes =
      min (ackedBytes * path.congestion.maxPacketSize * 2 ^ 32) u128Max /
        path.congestion.congestionWindow := by
  unfold linkedCongestionIncreaseQ32
  by_cases hacked : ackedBytes = 0
  · rw [hacked]
    simp
  rw [if_neg hacked]
  simp only [getElem?_cons_zero, helig, Bool.not_true, Bool.false_eq_true, if_false,
    filter_cons_of_pos, filter_nil, map_cons, map_nil, sum_cons, sum_nil, add_zero,
    length_singleton, if_true]
  by_cases hwindow : path.congestion.congestionWindow = 0
  · rw [if_pos hwindow, hwindow, Nat.div_zero]
  rw [satMul128_satMul128]
  split_ifs with hnarrow
  · rw [min_eq_left (le_trans hnarrow (by decide))]
  · rfl

/-- One path makes up the whole window and has the least round trip: every ratio is one. -/
theorem satMul128_ratio {n : Nat} (hpos : 0 < n) (hfits : n ≤ u64Max) :
    satMul128 n (2 ^ 32) / n = 2 ^ 32 := by
  have hroom : n * 2 ^ 32 ≤ u128Max := Nat.le_trans (Nat.mul_le_mul_right _ hfits) (by decide)
  rw [satMul128_eq hroom, Nat.mul_div_cancel_left _ hpos]

/-- The general equation, when the target is the only eligible path. -/
theorem linkedIncrease_alone {rest : List PathState}
    (helig : isEligible path = true) (hrest : rest.filter isEligible = []) (hne : rest ≠ [])
    (hrtt : path.rtt.smoothedRtt = some rtt) (hrttPos : 0 < rtt) (hrttFits : rtt ≤ u64Max)
    (hfits : path.congestion.congestionWindow ≤ u64Max) (ackedBytes : Nat) :
    linkedCongestionIncreaseQ32 (path :: rest) 0 ackedBytes =
      min (ackedBytes * path.congestion.maxPacketSize * 2 ^ 32) u128Max /
        path.congestion.congestionWindow := by
  unfold linkedCongestionIncreaseQ32
  by_cases hacked : ackedBytes = 0
  · rw [hacked]
    simp
  have hlength : (path :: rest).length ≠ 1 := by
    have := length_pos_iff.mpr hne
    rw [length_cons]
    omega
  have hfilter : (path :: rest).filter isEligible = [path] := by
    rw [filter_cons_of_pos helig, hrest]
  rw [if_neg hacked, hfilter]
  show (if (!isEligible path) = true then 0 else _) = _
  rw [if_neg (by simp [helig])]
  extract_lets eligible totalWindow rtts minRtt terms sumXt maxXt2 alpha mss window
  have htotal : totalWindow = path.congestion.congestionWindow := by simp [totalWindow, eligible]
  by_cases hwindow : path.congestion.congestionWindow = 0
  · rw [if_pos (htotal.trans hwindow), hwindow, Nat.div_zero]
  rw [if_neg (by omega), if_neg hlength]
  have hmin : minRtt = rtt := by
    simp only [minRtt, rtts, eligible, map_cons, map_nil, hrtt, getD_some, headD_cons,
      foldl_cons, foldl_nil]
    omega
  have hsquare : satMul128 (2 ^ 32) (2 ^ 32) / 2 ^ 32 = 2 ^ 32 := by decide
  have hterms : terms = [(2 ^ 32, 2 ^ 32)] := by
    simp only [terms, eligible, map_cons, map_nil, htotal, hmin, hrtt, getD_some]
    rw [satMul128_ratio (pos_of_ne_zero hwindow) hfits, satMul128_ratio hrttPos hrttFits,
      hsquare, hsquare]
  have hsum : sumXt = 2 ^ 32 := by
    simp only [sumXt, hterms]
    decide
  have hbest : maxXt2 = 2 ^ 32 := by
    simp only [maxXt2, hterms]
    decide
  have halpha : alpha = 2 ^ 32 := by
    simp only [alpha, hsum, hbest]
    decide
  have hwide : window = path.congestion.congestionWindow :=
    max_eq_left (pos_of_ne_zero hwindow)
  rw [if_neg (by rw [hsum]; decide), halpha, hwide, htotal, satMul128_satMul128,
    satMul128_satMul128, mul_comm (2 ^ 32), mul_right_comm, min_self]

/-- No path grows faster than Reno would let it. -/
theorem linkedIncrease_le_reno {target : PathState}
    (htarget : paths[pathId]? = some target) (ackedBytes : Nat) :
    linkedCongestionIncreaseQ32 paths pathId ackedBytes ≤ renoIncreaseQ32 target ackedBytes := by
  have hreno : satMul128 (satMul128 ackedBytes target.congestion.maxPacketSize) (2 ^ 32) /
      max target.congestion.congestionWindow 1 ≤ renoIncreaseQ32 target ackedBytes := by
    rw [satMul128_satMul128]
    exact Nat.div_le_div_right (Nat.min_le_left _ _)
  by_cases helig : isEligible target = true
  · by_cases hlength : paths.length = 1
    · obtain ⟨path, rfl⟩ := length_eq_one_iff.mp hlength
      obtain ⟨rfl, rfl⟩ : pathId = 0 ∧ path = target := by
        cases pathId with
        | zero => exact ⟨rfl, by simpa using htarget⟩
        | succ n => simp at htarget
      rw [linkedIncrease_single helig]
      rcases Nat.eq_zero_or_pos path.congestion.congestionWindow with hzero | hpos
      · rw [hzero, Nat.div_zero]
        exact Nat.zero_le _
      · rw [renoIncreaseQ32, Nat.max_eq_left hpos]
        exact Nat.div_le_div_right (Nat.min_le_left _ _)
    · unfold linkedCongestionIncreaseQ32
      by_cases hacked : ackedBytes = 0
      · rw [if_pos hacked]
        exact zero_le _
      rw [if_neg hacked, htarget]
      show (if (!isEligible target) = true then 0 else _) ≤ _
      rw [if_neg (by simp [helig])]
      extract_lets eligible totalWindow rtts minRtt terms sumXt maxXt2 alpha mss window
      by_cases hwindow : totalWindow = 0
      · rw [if_pos hwindow]
        exact zero_le _
      rw [if_neg hwindow, if_neg hlength]
      by_cases hsum : sumXt = 0
      · rw [if_pos hsum]
        exact zero_le _
      rw [if_neg hsum]
      exact le_trans (min_le_right _ _) hreno
  · have hzero : linkedCongestionIncreaseQ32 paths pathId ackedBytes = 0 := by
      refine linkedIncrease_target (fun other hother => ?_) ackedBytes
      rw [htarget, some.injEq] at hother
      rw [← hother]
      simpa using helig
    rw [hzero]
    exact zero_le _

/-- The single-path shortcut computes the general equation, and the general equation never exceeds
Reno. -/
theorem linkedIncrease_shortcut {path : PathState}
    (hwindow : path.congestion.congestionWindow ≤ u64Max)
    (hrtt : ∀ rtt, path.rtt.smoothedRtt = some rtt → rtt ≤ u64Max) {rest : List PathState}
    (hrest : ∀ other ∈ rest, isEligible other = false) (pathId ackedBytes : Nat) :
    linkedCongestionIncreaseQ32 [path] pathId ackedBytes =
      linkedCongestionIncreaseQ32 (path :: rest) pathId ackedBytes ∧
      ∀ (paths : List PathState) (target : PathState), paths[pathId]? = some target →
        linkedCongestionIncreaseQ32 paths pathId ackedBytes ≤
          renoIncreaseQ32 target ackedBytes := by
  refine ⟨?_, fun paths target htarget => linkedIncrease_le_reno htarget ackedBytes⟩
  have hnone : ∀ id, isEligible path = false ∨ id ≠ 0 → ∀ paths, (∀ other ∈ paths, other ∈ rest) →
      ∀ target, (path :: paths)[id]? = some target → isEligible target = false := by
    intro id hid paths hmem target htarget
    cases id with
    | zero =>
      rw [getElem?_cons_zero, some.injEq] at htarget
      rw [← htarget]
      exact hid.resolve_right (fun hne => hne rfl)
    | succ n =>
      exact hrest target (hmem target (mem_of_getElem? htarget))
  by_cases hplain : isEligible path = false ∨ pathId ≠ 0
  · rw [linkedIncrease_target (hnone pathId hplain [] (fun _ h => by cases h)),
      linkedIncrease_target (hnone pathId hplain rest (fun _ h => h))]
  obtain ⟨helig, hid⟩ := not_or.mp hplain
  obtain rfl : pathId = 0 := not_not.mp hid
  have helig : isEligible path = true := by simpa using helig
  by_cases hne : rest = []
  · rw [hne]
  have hfilter : rest.filter isEligible = [] := by
    refine filter_eq_nil_iff.mpr fun other hmem => ?_
    rw [hrest other hmem]
    exact false_ne_true
  obtain ⟨rtt, hsmoothed, hpos⟩ : ∃ rtt, path.rtt.smoothedRtt = some rtt ∧ 0 < rtt := by
    have hany : (path.rtt.smoothedRtt.any fun rtt => decide (0 < rtt)) = true := by
      exact (and_eq_true_iff.mp helig).2
    obtain ⟨rtt, hsmoothed, hpos⟩ := (any_eq_true _ _).mp hany
    exact ⟨rtt, hsmoothed, of_decide_eq_true hpos⟩
  rw [linkedIncrease_single helig,
    linkedIncrease_alone helig hfilter hne hsmoothed hpos (hrtt rtt hsmoothed) hwindow]

/-- A measured path beside a suspended one. -/
theorem linkedIncrease_suspended :
    let path : PathState := { PathState.new 1200 with
      rtt := { (PathState.new 1200).rtt with smoothedRtt := some 20000 } }
    linkedCongestionIncreaseQ32 [path] 0 1200 =
      linkedCongestionIncreaseQ32 [path, { path with suspended := true }] 0 1200 ∧
    linkedCongestionIncreaseQ32 [path] 0 1200 ≤ renoIncreaseQ32 path 1200 := by
  intro path
  have hrtt : ∀ rtt, path.rtt.smoothedRtt = some rtt → rtt ≤ u64Max := by
    intro rtt hrtt
    obtain rfl : 20000 = rtt := some.inj hrtt
    decide
  have h := @linkedIncrease_shortcut path (by decide) hrtt [{ path with suspended := true }]
    (by decide) 0 1200
  exact ⟨h.1, h.2 [path] path rfl⟩

/-! ## Pacing

A refill of `elapsed` microseconds grants `deficit` exactly when `elapsed` is at least the wait for
`deficit`: the floor of the one and the ceiling of the other are adjoint. Saturation keeps this as
long as the sum under the ceiling fits 128 bits. -/

/-- `pacing_refill_tokens` in 128 bits only. -/
def widePacingRefillTokens (elapsed window rtt mss : Nat) : Nat × Nat :=
  let bytes := satMul128 (satMul128 elapsed window) (2 ^ 16) / max rtt 1
  (min bytes u64Max, min (bytes / max mss 1) u64Max)

/-- The narrow quotient is the wide one where it does not overflow. -/
theorem pacingRefillTokens_eq_wide (elapsed window rtt mss : Nat) :
    pacingRefillTokens elapsed window rtt mss = widePacingRefillTokens elapsed window rtt mss := by
  unfold pacingRefillTokens widePacingRefillTokens
  simp only
  split_ifs with hnarrow
  · have hfits : min (elapsed * window * 2 ^ 16) u128Max = elapsed * window * 2 ^ 16 :=
      min_eq_left (le_trans hnarrow (by decide))
    have hbytes : elapsed * window * 2 ^ 16 / max rtt 1 ≤ u64Max :=
      le_trans (div_le_self _ _) hnarrow
    rw [satMul128_satMul128, hfits, min_eq_left hbytes,
      min_eq_left (le_trans (div_le_self _ _) hbytes)]
  · rfl

theorem widePacingWaitUs_eq (hfits : deficit * scale + (denominator - 1) ≤ u128Max)
    (hpos : 0 < denominator) :
    widePacingWaitUs deficit scale denominator = min (deficit * scale ⌈/⌉ denominator) u64Max := by
  unfold widePacingWaitUs satAdd128
  rw [satMul128_eq (by omega), Nat.min_eq_left hfits, Nat.ceilDiv_eq_add_pred_div,
    Nat.add_sub_assoc hpos]

/-- The narrow wait is the wide one where it does not overflow. -/
theorem pacingWaitUs_eq_wide (hpos : 0 < denominator) (hden : denominator ≤ u128Max) :
    pacingWaitUs deficit scale denominator = widePacingWaitUs deficit scale denominator := by
  unfold pacingWaitUs
  simp only [Nat.max_eq_left hpos]
  split_ifs with hzero hnarrow
  · have hless : denominator - 1 < denominator := by omega
    rw [hzero, widePacingWaitUs_eq (by omega) hpos, zero_mul, ceilDiv_eq_add_pred_div,
      Nat.zero_add, Nat.div_eq_of_lt hless, Nat.zero_min]
  · have hfits : deficit * scale + (denominator - 1) ≤ u128Max :=
      Nat.le_trans hnarrow.2.2 (by decide)
    have hquot : (deficit * scale + (denominator - 1)) / denominator ≤ u64Max :=
      Nat.le_trans (Nat.div_le_self _ _) hnarrow.2.2
    rw [widePacingWaitUs_eq hfits hpos, Nat.ceilDiv_eq_add_pred_div, Nat.add_sub_assoc hpos,
      Nat.min_eq_left hquot]
  · rfl

/-- Bytes: what a refill grants, against the wait. -/
theorem le_refill_bytes (hdeficit : deficit ≤ u64Max) (hrtt : rtt ≤ u64Max)
    (hrttPos : 0 < rtt) (hwindow : 0 < window) :
    deficit ≤ (pacingRefillTokens elapsed window rtt mss).1 ↔
      deficit * rtt ⌈/⌉ (window * 2 ^ 16) ≤ elapsed := by
  have hproduct : deficit * rtt ≤ u128Max := Nat.le_trans (Nat.mul_le_mul hdeficit hrtt) (by decide)
  have hden : 0 < window * 2 ^ 16 := Nat.mul_pos hwindow (by decide)
  rw [pacingRefillTokens_eq_wide, ceilDiv_le_iff_le_mul hden]
  show deficit ≤ min (satMul128 (satMul128 elapsed window) (2 ^ 16) / max rtt 1) u64Max ↔ _
  rw [satMul128_satMul128, Nat.max_eq_left hrttPos, Nat.le_min, and_iff_left hdeficit,
    Nat.le_div_iff_mul_le hrttPos, Nat.le_min, and_iff_left hproduct,
    Nat.mul_comm (window * 2 ^ 16), ← Nat.mul_assoc]

/-- Packets: the same, while the rate of packets fits 128 bits. -/
theorem le_refill_packets (hdeficit : deficit ≤ u64Max)
    (hfits : deficit * (rtt * mss) ≤ u128Max) (hrttPos : 0 < rtt) (hmssPos : 0 < mss)
    (hwindow : 0 < window) : deficit ≤ (pacingRefillTokens elapsed window rtt mss).2 ↔
      deficit * (rtt * mss) ⌈/⌉ (window * 2 ^ 16) ≤ elapsed := by
  have hden : 0 < window * 2 ^ 16 := Nat.mul_pos hwindow (by decide)
  rw [pacingRefillTokens_eq_wide, ceilDiv_le_iff_le_mul hden]
  show deficit ≤ min (satMul128 (satMul128 elapsed window) (2 ^ 16) / max rtt 1 / max mss 1)
    u64Max ↔ _
  rw [satMul128_satMul128, Nat.max_eq_left hrttPos, Nat.max_eq_left hmssPos, Nat.div_div_eq_div_mul,
    Nat.le_min, and_iff_left hdeficit, Nat.le_div_iff_mul_le (Nat.mul_pos hrttPos hmssPos),
    Nat.le_min, and_iff_left hfits, Nat.mul_comm (window * 2 ^ 16), ← Nat.mul_assoc elapsed]

namespace PathState

variable {needed : Nat}

/-- The window, round trip and packet size the pacer divides by. -/
def pacingWindow (self : PathState) : Nat := max self.congestion.congestionWindow 1

def pacingRtt (self : PathState) : Nat := max (self.rtt.smoothedRtt.getD 100000) 1

def pacingPacket (self : PathState) : Nat := max self.congestion.maxPacketSize 1

/-- The fields are those of the program: 64 bits, and a byte burst of 32. -/
structure PacingRange (p : PathState) : Prop where
  window : p.congestion.congestionWindow ≤ u64Max
  rtt : ∀ rtt, p.rtt.smoothedRtt = some rtt → rtt ≤ u64Max
  packet : p.congestion.maxPacketSize ≤ u64Max
  burst : p.pacingConfig.maxBurstBytes < 2 ^ 32

/-- The tokens of both buckets pay for a packet. -/
def Affords (p : PathState) (packetBytes : Nat) : Prop :=
  packetBytes * 2 ^ 16 ≤ p.pacingByteTokensQ16 ∧ 2 ^ 16 ≤ p.pacingPacketTokensQ16

/-- Microseconds until both buckets have what a packet lacks, without bound. -/
def refillTime (p : PathState) (packetBytes : Nat) : Nat :=
  max ((packetBytes * 2 ^ 16 - p.pacingByteTokensQ16) * p.pacingRtt ⌈/⌉ (p.pacingWindow * 2 ^ 16))
    ((2 ^ 16 - p.pacingPacketTokensQ16) *
      (p.pacingRtt * p.pacingPacket) ⌈/⌉ (p.pacingWindow * 2 ^ 16))

/-- The sum under the ceiling of the packet wait fits 128 bits. -/
def PacketRateFits (p : PathState) : Prop :=
  (2 ^ 16 - p.pacingPacketTokensQ16) * (p.pacingRtt * p.pacingPacket) +
    (p.pacingWindow * 2 ^ 16 - 1) ≤ u128Max

variable {p : PathState} {packetBytes nowUs : Nat}

variable (p)

theorem pacingWindow_pos : 0 < p.pacingWindow := by
  unfold pacingWindow
  omega

theorem pacingRtt_pos : 0 < p.pacingRtt := by
  unfold pacingRtt
  omega

theorem pacingPacket_pos : 0 < p.pacingPacket := by
  unfold pacingPacket
  omega

variable {p}

theorem PacingRange.pacingRtt_le (h : p.PacingRange) : p.pacingRtt ≤ u64Max := by
  unfold pacingRtt
  cases hrtt : p.rtt.smoothedRtt with
  | none => decide
  | some rtt => exact Nat.max_le.mpr ⟨h.rtt rtt hrtt, by decide⟩

theorem PacingRange.pacingWindow_le (h : p.PacingRange) : p.pacingWindow ≤ u64Max :=
  Nat.max_le.mpr ⟨h.window, by decide⟩

theorem refillPacing_eq (p : PathState) (nowUs : Nat) : p.refillPacing nowUs = { p with
      pacingByteTokensQ16 := (p.refillPacing nowUs).pacingByteTokensQ16
      pacingPacketTokensQ16 := (p.refillPacing nowUs).pacingPacketTokensQ16
      pacingLastRefillUs := (p.refillPacing nowUs).pacingLastRefillUs } := by
  unfold refillPacing
  simp only
  split <;> rfl

theorem refillPacing_last (h : p.pacingLastRefillUs ≤ nowUs) :
    (p.refillPacing nowUs).pacingLastRefillUs = nowUs := by
  unfold refillPacing
  simp only
  split
  · omega
  · rfl

theorem pacingRefillTokens_zero (window rtt mss : Nat) :
    pacingRefillTokens 0 window rtt mss = (0, 0) := by
  unfold pacingRefillTokens
  simp

/-- A bucket that holds enough when it is full holds enough once the refill makes up for what it
lacks. -/
theorem refillPacing_holds (hneeded : needed ≤ u64Max) (nowUs : Nat) :
    let refill := pacingRefillTokens (nowUs - p.pacingLastRefillUs)
      p.pacingWindow p.pacingRtt p.pacingPacket
    (needed ≤ p.pacingConfig.maxBurstBytes * 2 ^ 16 →
        (needed ≤ (p.refillPacing nowUs).pacingByteTokensQ16 ↔
          needed - p.pacingByteTokensQ16 ≤ refill.1)) ∧
      (needed ≤ p.pacingConfig.maxBurstPackets * 2 ^ 16 →
        (needed ≤ (p.refillPacing nowUs).pacingPacketTokensQ16 ↔
          needed - p.pacingPacketTokensQ16 ≤ refill.2)) := by
  unfold refillPacing
  simp only
  split
  · rename_i hzero
    rw [hzero, pacingRefillTokens_zero]
    omega
  unfold satAdd pacingWindow pacingRtt pacingPacket
  unfold u64Max at hneeded
  simp only
  omega

section

variable (h : p.PacingRange)
include h

/-- After a refill the buckets pay for a packet exactly when the time since the last one covers what
they lacked. -/
theorem refillPacing_affords (hburst : packetBytes ≤ p.pacingConfig.maxBurstBytes)
    (hpackets : 1 ≤ p.pacingConfig.maxBurstPackets) (hrate : p.PacketRateFits) (nowUs : Nat) :
    (p.refillPacing nowUs).Affords packetBytes ↔
      p.refillTime packetBytes ≤ nowUs - p.pacingLastRefillUs := by
  have hneeded : packetBytes * 2 ^ 16 ≤ u64Max := by
    have := h.burst
    unfold u64Max usizeBound
    omega
  have hrateFits : (2 ^ 16 - p.pacingPacketTokensQ16) * (p.pacingRtt * p.pacingPacket) ≤
      u128Max := by
    unfold PacketRateFits at hrate
    omega
  unfold Affords refillTime
  rw [(refillPacing_holds hneeded nowUs).1 (Nat.mul_le_mul_right _ hburst),
    (refillPacing_holds (by decide) nowUs).2 (by omega),
    le_refill_bytes (by omega) h.pacingRtt_le p.pacingRtt_pos p.pacingWindow_pos,
    le_refill_packets (Nat.le_trans (Nat.sub_le _ _) (by decide)) hrateFits p.pacingRtt_pos
    p.pacingPacket_pos
      p.pacingWindow_pos, Nat.max_le]

theorem PacingRange.pacingPacket_le : p.pacingPacket ≤ u64Max :=
  Nat.max_le.mpr ⟨h.packet, by decide⟩

theorem PacingRange.denominator_le : p.pacingWindow * 2 ^ 16 ≤ u128Max :=
  le_trans (mul_le_mul_right _ h.pacingWindow_le) (by decide)

theorem PacingRange.refillPacing (nowUs : Nat) : (p.refillPacing nowUs).PacingRange := by
  rw [refillPacing_eq]
  exact ⟨h.window, h.rtt, h.packet, h.burst⟩

/-- What the bucket of bytes lacks never overflows the wait. -/
theorem PacingRange.byteWait (hburst : packetBytes ≤ p.pacingConfig.maxBurstBytes) :
    (packetBytes * 2 ^ 16 - p.pacingByteTokensQ16) * p.pacingRtt + (p.pacingWindow * 2 ^ 16 - 1) ≤
      u128Max := by
  have hdeficit : packetBytes * 2 ^ 16 - p.pacingByteTokensQ16 ≤ 2 ^ 48 := by
    have := h.burst
    omega
  have hproduct := Nat.mul_le_mul hdeficit h.pacingRtt_le
  have hden := Nat.mul_le_mul_right (2 ^ 16) h.pacingWindow_le
  have hroom : 2 ^ 48 * u64Max + u64Max * 2 ^ 16 ≤ u128Max := by decide
  exact Nat.le_trans (Nat.add_le_add hproduct (Nat.le_trans (Nat.sub_le _ _) hden)) hroom

end

theorem pacingWaitUs_exact (hpos : 0 < denominator) (hden : denominator ≤ u128Max)
    (hfits : deficit * scale + (denominator - 1) ≤ u128Max) :
    pacingWaitUs deficit scale denominator = min (deficit * scale ⌈/⌉ denominator) u64Max := by
  rw [pacingWaitUs_eq_wide hpos hden, widePacingWaitUs_eq hfits hpos]

section

variable (henabled : p.pacingConfig.enabled = true) (h : p.PacingRange)
    (hburst : packetBytes ≤ p.pacingConfig.maxBurstBytes)
include henabled h hburst

/-- A refused packet is told when the buckets will have what it lacks, up to the end of the
clock. -/
theorem canSendPaced_eq (hrate : (p.refillPacing nowUs).PacketRateFits) :
    (¬(p.refillPacing nowUs).Affords packetBytes ∧ p.canSendPaced packetBytes nowUs =
      ({ p.refillPacing nowUs with
            pacingDeadlineUs := some
              (min (nowUs + max ((p.refillPacing nowUs).refillTime packetBytes) 1) u64Max) },
                false)) ∨
      ((p.refillPacing nowUs).Affords packetBytes ∧ p.canSendPaced packetBytes nowUs =
        ({ p.refillPacing nowUs with pacingDeadlineUs := none }, true)) := by
  obtain ⟨q, hq⟩ : ∃ q, q = p.refillPacing nowUs := ⟨_, rfl⟩
  have hsame := refillPacing_eq p nowUs
  have hwindow : max p.congestion.congestionWindow 1 = q.pacingWindow := by rw [hq, hsame]; rfl
  have hrtt : max (p.rtt.smoothedRtt.getD 100000) 1 = q.pacingRtt := by rw [hq, hsame]; rfl
  have hpacket : max p.congestion.maxPacketSize 1 = q.pacingPacket := by rw [hq, hsame]; rfl
  have hrange : q.PacingRange := hq ▸ h.refillPacing nowUs
  have hconfig : q.pacingConfig = p.pacingConfig := by rw [hq, hsame]
  have hneeded : satMul packetBytes (2 ^ 16) = packetBytes * 2 ^ 16 := by
    have := h.burst
    refine min_eq_left ?_
    unfold u64Max usizeBound
    omega
  have hden : max (satMul128 q.pacingWindow (2 ^ 16)) 1 = q.pacingWindow * 2 ^ 16 := by
    rw [satMul128_eq hrange.denominator_le]
    exact max_eq_left (mul_pos q.pacingWindow_pos (by decide))
  have hpos : 0 < q.pacingWindow * 2 ^ 16 := Nat.mul_pos q.pacingWindow_pos (by decide)
  have hrateUnit : max (satMul128 q.pacingRtt q.pacingPacket) 1 = q.pacingRtt * q.pacingPacket := by
    rw [satMul128_eq (Nat.le_trans (Nat.mul_le_mul hrange.pacingRtt_le hrange.pacingPacket_le)
      (by decide))]
    exact Nat.max_eq_left (Nat.mul_pos q.pacingRtt_pos q.pacingPacket_pos)
  rw [← hq] at hrate ⊢
  unfold canSendPaced
  rw [if_neg (by simp [henabled])]
  simp only [← hq, hwindow, hrtt, hpacket, hneeded, hden, hrateUnit]
  have hpackets : (if 2 ^ 16 - q.pacingPacketTokensQ16 = 0 then 0 else
      pacingWaitUs (2 ^ 16 - q.pacingPacketTokensQ16) (q.pacingRtt * q.pacingPacket)
        (q.pacingWindow * 2 ^ 16)) =
      min ((2 ^ 16 - q.pacingPacketTokensQ16) *
        (q.pacingRtt * q.pacingPacket) ⌈/⌉ (q.pacingWindow * 2 ^ 16)) u64Max := by
    split_ifs with hzero
    · rw [hzero, zero_mul, zero_ceilDiv, zero_min]
    · exact pacingWaitUs_exact hpos hrange.denominator_le hrate
  have hdeadline : ∀ bytes packets,
      satAdd nowUs (max (max (min bytes u64Max) (min packets u64Max)) 1) =
      min (nowUs + max (max bytes packets) 1) u64Max := by
    unfold satAdd u64Max usizeBound
    omega
  rw [hpackets, pacingWaitUs_exact hpos hrange.denominator_le (hrange.byteWait (hconfig ▸ hburst)),
    hdeadline]
  by_cases hlack : packetBytes * 2 ^ 16 - q.pacingByteTokensQ16 ≠ 0 ∨
    2 ^ 16 - q.pacingPacketTokensQ16 ≠ 0
  · rw [if_pos hlack]
    refine .inl ⟨?_, rfl⟩
    unfold Affords
    omega
  rw [if_neg hlack]
  refine .inr ⟨?_, rfl⟩
  unfold Affords
  omega

theorem canSendPaced_iff (nowUs : Nat) :
    (p.canSendPaced packetBytes nowUs).2 = true ↔ (p.refillPacing nowUs).Affords packetBytes := by
  have hneeded : satMul packetBytes (2 ^ 16) = packetBytes * 2 ^ 16 := by
    have := h.burst
    refine min_eq_left ?_
    unfold u64Max usizeBound
    omega
  unfold canSendPaced Affords
  rw [if_neg (by simp [henabled])]
  simp only [hneeded]
  by_cases hlack : packetBytes * 2 ^ 16 - (p.refillPacing nowUs).pacingByteTokensQ16 ≠ 0 ∨
      2 ^ 16 - (p.refillPacing nowUs).pacingPacketTokensQ16 ≠ 0
  · rw [if_pos hlack]
    exact iff_of_false false_ne_true (by omega)
  · rw [if_neg hlack]
    exact iff_of_true rfl (by omega)

/-- A refused packet is ready at a time `ready` in the future: it is refused before, granted from
then on, and the deadline is `ready`, or the end of the clock when that comes first. -/
theorem ready_of_refused (hpackets : 1 ≤ p.pacingConfig.maxBurstPackets)
    (hclock : p.pacingLastRefillUs ≤ nowUs) (hrate : (p.refillPacing nowUs).PacketRateFits)
    (hrefused : (p.canSendPaced packetBytes nowUs).2 = false) : ∃ ready, nowUs < ready ∧
      (p.canSendPaced packetBytes nowUs).1.pacingDeadlineUs = some (min ready u64Max) ∧
      ∀ t, ((p.canSendPaced packetBytes nowUs).1.canSendPaced packetBytes t).2 = true ↔
        ready ≤ t := by
  rcases canSendPaced_eq henabled h hburst hrate with ⟨hlacks, heq⟩ | ⟨-, heq⟩
  · have hlast := refillPacing_last hclock
    have hrange := h.refillPacing nowUs
    have hconfig : (p.refillPacing nowUs).pacingConfig = p.pacingConfig := by rw [refillPacing_eq]
    rw [heq]
    obtain ⟨q, hq⟩ : ∃ q : PathState, q = { p.refillPacing nowUs with
      pacingDeadlineUs := some
        (min (nowUs + max ((p.refillPacing nowUs).refillTime packetBytes) 1) u64Max) } := ⟨_, rfl⟩
    rw [← hq]
    have hqLast : q.pacingLastRefillUs = nowUs := by rw [hq]; exact hlast
    have hqRange : q.PacingRange := by
      rw [hq]
      exact ⟨hrange.window, hrange.rtt, hrange.packet, hrange.burst⟩
    have hqConfig : q.pacingConfig = p.pacingConfig := by rw [hq]; exact hconfig
    have hqTime : q.refillTime packetBytes = (p.refillPacing nowUs).refillTime packetBytes := by
      rw [hq]; rfl
    have hqRate : q.PacketRateFits := by rw [hq]; exact hrate
    have hready : ∀ t, (q.refillPacing t).Affords packetBytes ↔
        q.refillTime packetBytes ≤ t - nowUs := by
      intro t
      rw [refillPacing_affords hqRange (hqConfig ▸ hburst) (hqConfig ▸ hpackets) hqRate, hqLast]
    have hsome : 1 ≤ q.refillTime packetBytes := by
      by_contra hzero
      have hnow := (hready nowUs).mpr (by omega)
      have hsame : q.refillPacing nowUs = q := by
        unfold PathState.refillPacing
        rw [hqLast, Nat.sub_self]
        rfl
      rw [hsame, hq] at hnow
      exact hlacks hnow
    refine ⟨nowUs + q.refillTime packetBytes, by omega, ?_, fun t => ?_⟩
    · have hdue : q.pacingDeadlineUs =
          some (min (nowUs + max ((p.refillPacing nowUs).refillTime packetBytes) 1) u64Max) := by
            rw [hq]
      rw [hdue, ← hqTime, max_eq_left hsome]
    · rw [canSendPaced_iff (hqConfig ▸ henabled) hqRange (hqConfig ▸ hburst), hready]
      omega
  · rw [heq] at hrefused
    cases hrefused

end

/-- The deadline of a refused packet is the least time at which it is sent, whichever width computes
it. -/
theorem pacing_deadline_exact (henabled : p.pacingConfig.enabled = true) (h : p.PacingRange)
    (hburst : packetBytes ≤ p.pacingConfig.maxBurstBytes)
    (hpackets : 1 ≤ p.pacingConfig.maxBurstPackets) (hclock : p.pacingLastRefillUs ≤ nowUs)
    (hrate : (p.refillPacing nowUs).PacketRateFits)
    (hrefused : (p.canSendPaced packetBytes nowUs).2 = false) : (∃ ready, nowUs < ready ∧
      (p.canSendPaced packetBytes nowUs).1.pacingDeadlineUs = some (min ready u64Max) ∧
      ∀ t, ((p.canSendPaced packetBytes nowUs).1.canSendPaced packetBytes t).2 = true ↔ ready ≤ t) ∧
    (∀ elapsed window rtt mss,
      pacingRefillTokens elapsed window rtt mss = widePacingRefillTokens elapsed window rtt mss) ∧
    ∀ deficit scale denominator, 0 < denominator → denominator ≤ u128Max →
      pacingWaitUs deficit scale denominator = widePacingWaitUs deficit scale denominator :=
  ⟨ready_of_refused henabled h hburst hpackets hclock hrate hrefused, pacingRefillTokens_eq_wide,
    fun _ _ _ hpos hden => pacingWaitUs_eq_wide hpos hden⟩

/-- A path with empty buckets. -/
def drained : PathState :=
  { PathState.new 1200 with pacingByteTokensQ16 := 0, pacingPacketTokensQ16 := 0 }

theorem drained_exact : ∃ ready, 0 < ready ∧ (drained.canSendPaced 1200 0).1.pacingDeadlineUs =
    some (min ready u64Max) ∧
    ∀ t, ((drained.canSendPaced 1200 0).1.canSendPaced 1200 t).2 = true ↔ ready ≤ t :=
  (pacing_deadline_exact (p := drained) (by decide) ⟨by decide, fun _ h => (by cases h), by decide,
    by decide⟩ (by decide)
    (by decide) (by decide) (by unfold PacketRateFits; decide) (by decide)).1

/-- A clock behind the last refill: the deadline comes before the buckets fill. And a packet rate
beyond 128 bits: the saturated wait is too short, with the clock far from its end. -/
theorem pacing_deadline_short :
    let late : PathState := { drained with pacingLastRefillUs := 1000000 }
    let vast : PathState := { drained with
      pacingByteTokensQ16 := 1200 * 2 ^ 16
      congestion := { drained.congestion with congestionWindow := u64Max, maxPacketSize := u64Max }
      rtt := { drained.rtt with smoothedRtt := some u64Max } }
    ((late.canSendPaced 1200 0).2 = false ∧ (late.canSendPaced 1200 0).1.pacingDeadlineUs =
      some 10000 ∧
      ((late.canSendPaced 1200 0).1.canSendPaced 1200 10000).2 = false) ∧
    (vast.canSendPaced 1200 0).2 = false ∧ (vast.canSendPaced 1200 0).1.pacingDeadlineUs =
      some 281474976710656 ∧
      ((vast.canSendPaced 1200 0).1.canSendPaced 1200 281474976710656).2 = false := by
  decide

/-! ## The rate of a run -/

/-- A packet asks to be paid for, or the window and the round trip move on. -/
inductive PacerCall where
  | reserve (packetBytes nowUs : Nat)
  | adapt (congestion : CongestionController) (rtt : RttEstimator)

/-- The path, and the bytes it has paid for. -/
def pace (s : PathState × Nat) : PacerCall → PathState × Nat
  | .reserve packetBytes nowUs =>
    ((s.1.tryReservePacing packetBytes nowUs).1,
      s.2 + if (s.1.tryReservePacing packetBytes nowUs).2 then packetBytes else 0)
  | .adapt congestion rtt => ({ s.1 with congestion, rtt }, s.2)

/-- At most `rate` bytes of window for `scale` microseconds of round trip. -/
def Within (rate scale : Nat) (p : PathState) : Prop := p.pacingWindow * scale ≤ rate * p.pacingRtt

/-- Since `start` the path has paid for a burst and what the time that the refills account for
grants. -/
structure Metered (start : PathState) (rate scale : Nat) (s : PathState × Nat) : Prop where
  config : s.1.pacingConfig = start.pacingConfig
  within : s.1.Within rate scale
  clock : start.pacingLastRefillUs ≤ s.1.pacingLastRefillUs
  full : s.1.pacingByteTokensQ16 ≤ start.pacingConfig.maxBurstBytes * 2 ^ 16
  spent : (s.2 * 2 ^ 16 + s.1.pacingByteTokensQ16) * scale ≤ start.pacingConfig.maxBurstBytes *
    2 ^ 16 * scale +
    (s.1.pacingLastRefillUs - start.pacingLastRefillUs) * rate * 2 ^ 16

theorem pacingRefillTokens_mul_le (elapsed : Nat) :
    (pacingRefillTokens elapsed p.pacingWindow p.pacingRtt p.pacingPacket).1 * p.pacingRtt ≤
      elapsed * p.pacingWindow * 2 ^ 16 := by
  rw [pacingRefillTokens_eq_wide]
  show min (satMul128 (satMul128 elapsed p.pacingWindow) (2 ^ 16) / max p.pacingRtt 1) u64Max *
    p.pacingRtt ≤ _
  rw [satMul128_satMul128, max_eq_left p.pacingRtt_pos]
  calc _ ≤ min (elapsed * p.pacingWindow * 2 ^ 16) u128Max / p.pacingRtt * p.pacingRtt := by
        gcongr
        exact min_le_left _ _
    _ ≤ min (elapsed * p.pacingWindow * 2 ^ 16) u128Max := div_mul_le_self _ _
    _ ≤ _ := min_le_left _ _

variable {start : PathState} {rate scale paid : Nat}

/-- A refill grants no more than the rate does. -/
theorem Metered.refill (h : Metered start rate scale (p, paid)) (nowUs : Nat) :
    Metered start rate scale (p.refillPacing nowUs, paid) := by
  have hclock : start.pacingLastRefillUs ≤ p.pacingLastRefillUs := h.clock
  have hspent : (paid * 2 ^ 16 + p.pacingByteTokensQ16) * scale ≤ start.pacingConfig.maxBurstBytes *
      2 ^ 16 * scale +
    (p.pacingLastRefillUs - start.pacingLastRefillUs) * rate * 2 ^ 16 := h.spent
  by_cases hpassed : nowUs - p.pacingLastRefillUs = 0
  · rw [refillPacing, if_pos hpassed]
    exact h
  obtain ⟨grant, hgrant⟩ : ∃ grant,
      grant = (pacingRefillTokens (nowUs - p.pacingLastRefillUs) p.pacingWindow p.pacingRtt
        p.pacingPacket).1 := ⟨_, rfl⟩
  have hmul := p.pacingRefillTokens_mul_le (nowUs - p.pacingLastRefillUs)
  rw [← hgrant] at hmul
  have hgranted : grant * scale ≤ (nowUs - p.pacingLastRefillUs) * rate * 2 ^ 16 := by
    refine le_of_mul_le_mul_right ?_ p.pacingRtt_pos
    have hwithin : p.pacingWindow * scale ≤ rate * p.pacingRtt := h.within
    calc grant * scale * p.pacingRtt = grant * p.pacingRtt * scale := by ring
      _ ≤ (nowUs - p.pacingLastRefillUs) * p.pacingWindow * 2 ^ 16 *
        scale := mul_le_mul_right _ hmul
      _ = (nowUs - p.pacingLastRefillUs) * 2 ^ 16 * (p.pacingWindow * scale) := by ring
      _ ≤ (nowUs - p.pacingLastRefillUs) * 2 ^ 16 *
        (rate * p.pacingRtt) := mul_le_mul_left _ hwithin
      _ = _ := by ring
  -- Saturation and the cap only lose tokens.
  have htokens : min (satAdd p.pacingByteTokensQ16 grant) (p.pacingConfig.maxBurstBytes * 2 ^ 16) ≤
      p.pacingByteTokensQ16 + grant := (Nat.min_le_left ..).trans (Nat.min_le_left ..)
  have hcapped : min (satAdd p.pacingByteTokensQ16 grant) (p.pacingConfig.maxBurstBytes * 2 ^ 16) ≤
      start.pacingConfig.maxBurstBytes * 2 ^ 16 := by
    rw [← show p.pacingConfig = start.pacingConfig from h.config]
    exact min_le_right ..
  have hrefill : ∃ packetTokens, p.refillPacing nowUs = { p with
      pacingByteTokensQ16 := min (satAdd p.pacingByteTokensQ16 grant)
        (p.pacingConfig.maxBurstBytes * 2 ^ 16)
      pacingPacketTokensQ16 := packetTokens
      pacingLastRefillUs := nowUs } := by
    rw [refillPacing, if_neg hpassed, hgrant]
    exact ⟨_, rfl⟩
  obtain ⟨packetTokens, hrefill⟩ := hrefill
  rw [hrefill]
  generalize min (satAdd p.pacingByteTokensQ16 grant) (p.pacingConfig.maxBurstBytes * 2 ^ 16) =
    tokens at *
  have helapsed : nowUs - start.pacingLastRefillUs =
      (p.pacingLastRefillUs - start.pacingLastRefillUs) + (nowUs - p.pacingLastRefillUs) := by
    omega
  refine ⟨h.config, h.within, show start.pacingLastRefillUs ≤ nowUs by omega, hcapped, ?_⟩
  calc (paid * 2 ^ 16 + tokens) * scale ≤ (paid * 2 ^ 16 + (p.pacingByteTokensQ16 + grant)) *
    scale := by gcongr
    _ = (paid * 2 ^ 16 + p.pacingByteTokensQ16) * scale + grant * scale := by ring
    _ ≤ _ := Nat.add_le_add hspent hgranted
    _ = start.pacingConfig.maxBurstBytes * 2 ^ 16 * scale + (nowUs - start.pacingLastRefillUs) *
      rate * 2 ^ 16 := by
      rw [helapsed]
      ring

theorem tryReservePacing_cases (henabled : p.pacingConfig.enabled = true)
    (packetBytes nowUs : Nat) : (∃ deadlineUs, p.tryReservePacing packetBytes nowUs =
        ({ p.refillPacing nowUs with pacingDeadlineUs := deadlineUs }, false)) ∨
      satMul packetBytes (2 ^ 16) ≤ (p.refillPacing nowUs).pacingByteTokensQ16 ∧
        ∃ packetTokens, p.tryReservePacing packetBytes nowUs = ({ p.refillPacing nowUs with
          pacingByteTokensQ16 := (p.refillPacing nowUs).pacingByteTokensQ16 - satMul packetBytes
            (2 ^ 16)
          pacingPacketTokensQ16 := packetTokens
          pacingDeadlineUs := none }, true) := by
  obtain ⟨deadlineUs, hcheck⟩ := canSendPaced_enabled henabled packetBytes nowUs
  have henabled' : (p.refillPacing nowUs).pacingConfig.enabled = true := by
    rw [refillPacing_eq]
    exact henabled
  unfold tryReservePacing
  rw [hcheck]
  split_ifs with hlacks
  · exact .inl ⟨_, rfl⟩
  · exact .inr ⟨by omega, _, if_pos henabled'⟩

theorem Metered.step (henabled : start.pacingConfig.enabled = true)
    (hburst : start.pacingConfig.maxBurstBytes < 2 ^ 32) (h : Metered start rate scale (p, paid))
    (call : PacerCall) (hcall : (pace (p, paid) call).1.Within rate scale) :
    Metered start rate scale (pace (p, paid) call) := by
  cases call with
  | adapt congestion rtt => exact ⟨h.config, hcall, h.clock, h.full, h.spent⟩
  | reserve packetBytes nowUs =>
  have hconfig : p.pacingConfig = start.pacingConfig := h.config
  have hcases := tryReservePacing_cases (hconfig ▸ henabled) packetBytes nowUs
  obtain ⟨hconfig', hwithin, hclock, hfull, hspent⟩ := h.refill nowUs
  generalize p.refillPacing nowUs = q at *
  unfold pace
  rcases hcases with ⟨_, h⟩ | ⟨hpays, _, h⟩
  · simp only [h]
    exact ⟨hconfig', hwithin, hclock, hfull, hspent⟩
  simp only [h]
  -- A packet that the bucket pays for is too short to saturate.
  have hcost : satMul packetBytes (2 ^ 16) = packetBytes * 2 ^ 16 := by
    have hbelow : q.pacingByteTokensQ16 < u64Max := lt_of_le_of_lt hfull
      (lt_of_lt_of_le (mul_lt_mul_of_pos_right hburst (by decide)) (by decide))
    unfold satMul at hpays ⊢
    omega
  rw [hcost] at hpays ⊢
  obtain ⟨left, hleft⟩ : ∃ left, q.pacingByteTokensQ16 - packetBytes * 2 ^ 16 = left := ⟨_, rfl⟩
  have hpaid : (paid + packetBytes) * 2 ^ 16 + left = paid * 2 ^ 16 + q.pacingByteTokensQ16 := by
    omega
  rw [hleft]
  refine ⟨hconfig', hwithin, hclock, le_trans (show left ≤ q.pacingByteTokensQ16 by omega) hfull,
    ?_⟩
  simp only [if_true, hpaid]
  exact hspent

/-- A pacer keeps its rate over every run: however the calls and the clock go, and whatever the
window and the round trip do within the rate, the bytes paid for exceed one burst by no more than
what the rate grants in the time that has passed. -/
theorem pacing_rate_bounded {calls : List PacerCall} (henabled : p.pacingConfig.enabled = true)
    (hburst : p.pacingConfig.maxBurstBytes < 2 ^ 32)
    (hfull : p.pacingByteTokensQ16 ≤ p.pacingConfig.maxBurstBytes * 2 ^ 16)
    (hwithin : p.Within rate scale)
    (hrun : Runs.Along pace (fun s call => (pace s call).1.Within rate scale) (p, 0) calls) :
    (Runs.exec pace (p, 0) calls).1.pacingByteTokensQ16 ≤ p.pacingConfig.maxBurstBytes * 2 ^ 16 ∧
      p.pacingLastRefillUs ≤ (Runs.exec pace (p, 0) calls).1.pacingLastRefillUs ∧
      (Runs.exec pace (p, 0) calls).2 * scale ≤ p.pacingConfig.maxBurstBytes * scale +
        ((Runs.exec pace (p, 0) calls).1.pacingLastRefillUs - p.pacingLastRefillUs) * rate := by
  have hstart : Metered p rate scale (p, 0) := by
    refine ⟨rfl, hwithin, le_refl _, hfull, ?_⟩
    have := mul_le_mul_right scale hfull
    simpa using this
  have h : Metered p rate scale (Runs.exec pace (p, 0) calls) :=
    hrun.invariant (fun _ call h hcall => h.step henabled hburst call hcall) hstart
  refine ⟨h.full, h.clock, le_of_mul_le_mul_right ?_ (show 0 < 2 ^ 16 by decide)⟩
  calc _ = (Runs.exec pace (p, 0) calls).2 * 2 ^ 16 * scale := by ring
    _ ≤ _ := (mul_le_mul_right scale (le_add_right _ _)).trans h.spent
    _ = _ := by ring

/-- A burst of two packets, a third at once, and one after a millisecond. -/
theorem pacing_rate_bounded_burst :
    let path := (PathState.new 1200).setPacingConfig ⟨true, 2, 2400⟩
    let last := Runs.exec pace (path, 0) [.reserve 1200 0, .reserve 1200 0, .reserve 1200 0,
      .reserve 1200 1000]
    last.1.pacingByteTokensQ16 ≤ path.pacingConfig.maxBurstBytes * 2 ^ 16 ∧
      path.pacingLastRefillUs ≤ last.1.pacingLastRefillUs ∧
        last.2 * 100000 ≤ path.pacingConfig.maxBurstBytes * 100000 +
        (last.1.pacingLastRefillUs - path.pacingLastRefillUs) * path.pacingWindow := by
  intro path
  exact pacing_rate_bounded rfl (by decide) (by decide) (by unfold Within; decide)
    (by unfold Within; decide)

end PathState

end QuicLite
