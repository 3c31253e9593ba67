import QuicLite.Flow

/-!
# Paths

What one network path keeps for itself: round-trip estimates, the congestion window and the bytes in
flight under it, pacing, the history that persistent congestion is read from, and the state of its
circuit. Counters that only feed telemetry are left out.

Bytes in flight move in four ways only (`onPacketSent`, `onRetransmissionSent`, `onAckWithGrowth`,
`removeInFlight`); everything else about a path leaves them alone, which `KeepsFlight` records.
-/

namespace QuicLite

open FirstMatch

/-! ## Round-trip times -/

structure RttEstimator where
  latestRtt : Option Nat
  smoothedRtt : Option Nat
  rttvar : Nat
  minRtt : Option Nat
  minRttSampledAtUs : Option Nat
  minimumAgeWindowUs : Nat

namespace RttEstimator

def initialPto : Nat := 500000

def granularity : Nat := 1000

def default : RttEstimator := ⟨none, none, 0, none, none, 60000000⟩

def updateAt (self : RttEstimator) (sample nowUs : Nat) : RttEstimator :=
  let minimumExpired := self.minRttSampledAtUs.all fun sampledAt =>
    self.minimumAgeWindowUs ≤ nowUs - sampledAt
  let replaceMinimum := minimumExpired || self.minRtt.all fun minimum => sample < minimum
  { self with
    latestRtt := some sample
    minRtt := if replaceMinimum then some sample else self.minRtt
    minRttSampledAtUs := if replaceMinimum then some nowUs else self.minRttSampledAtUs
    smoothedRtt :=
      match self.smoothedRtt with
      | none => some sample
      | some smoothed => some (satAdd (satMul smoothed 7) sample / 8)
    rttvar :=
      match self.smoothedRtt with
      | none => sample / 2
      | some smoothed =>
        let variation := (smoothed - sample) + (sample - smoothed)
        satAdd (satMul self.rttvar 3) variation / 4 }

def minimumAt (self : RttEstimator) (nowUs : Nat) : Option Nat :=
  match self.minRttSampledAtUs with
  | some sampledAt => if nowUs - sampledAt < self.minimumAgeWindowUs then self.minRtt else none
  | none => none

def pto (self : RttEstimator) : Nat :=
  match self.smoothedRtt with
  | none => initialPto
  | some smoothed => max (satAdd smoothed (max (satMul self.rttvar 4) granularity)) granularity

end RttEstimator

/-! ## Congestion control -/

structure CongestionController where
  maxPacketSize : Nat
  congestionWindow : Nat
  slowStartThreshold : Nat
  bytesInFlight : Nat
  recoveryStartPacket : Option Nat

namespace CongestionController

def new (maxPacketSize : Nat) : CongestionController :=
  let mds := max maxPacketSize 1
  ⟨mds, min (10 * mds) (max (2 * mds) 14720), u64Max, 0, none⟩

variable (self : CongestionController)

def canSend (bytes : Nat) : Bool :=
  satAdd self.bytesInFlight bytes ≤ self.congestionWindow

def onRetransmissionSent (bytes : Nat) : CongestionController :=
  { self with bytesInFlight := satAdd self.bytesInFlight bytes }

/-- `none` is the source's `false`: nothing was charged. -/
def onPacketSent (bytes : Nat) : Option CongestionController :=
  if self.canSend bytes then some (self.onRetransmissionSent bytes) else none

def onAckWithGrowth (ackedBytes : Nat) (allowGrowth : Bool) : CongestionController :=
  let acked := min ackedBytes self.bytesInFlight
  let self := { self with bytesInFlight := self.bytesInFlight - acked }
  if acked = 0 ∨ allowGrowth = false then self
  else if self.congestionWindow < self.slowStartThreshold then
    { self with congestionWindow := satAdd self.congestionWindow acked }
  else
    let increase := max (satMul self.maxPacketSize acked / max self.congestionWindow 1) 1
    { self with congestionWindow := satAdd self.congestionWindow increase }

def removeInFlight (bytes : Nat) : CongestionController :=
  { self with bytesInFlight := self.bytesInFlight - bytes }

def onPacketLost (lostBytes lostPacketNumber largestSentPacket : Nat) : CongestionController :=
  if lostBytes = 0 then self
  else
    let self := self.removeInFlight lostBytes
    if self.recoveryStartPacket.any fun start => lostPacketNumber ≤ start then self
    else
      let threshold := max (self.congestionWindow / 2) (2 * self.maxPacketSize)
      { self with
        slowStartThreshold := threshold
        congestionWindow := threshold
        recoveryStartPacket := some largestSentPacket }

def onPersistentCongestion (largestSentPacket : Nat) : CongestionController :=
  { self with
    congestionWindow := 2 * self.maxPacketSize
    recoveryStartPacket := some largestSentPacket }

/-- Whether sending `bytes` now would leave less than one packet of window. -/
def windowLimited (bytes : Nat) : Bool :=
  self.congestionWindow < satAdd (satAdd self.bytesInFlight bytes) self.maxPacketSize

end CongestionController

/-! ## Pacing and estimation policies -/

structure PacingConfig where
  enabled : Bool
  maxBurstPackets : Nat
  maxBurstBytes : Nat

def defaultMaxPacketSize : Nat := 1100

/-- `PacingConfig::default` -/
def PacingConfig.host : PacingConfig := ⟨true, 8, defaultMaxPacketSize * 8⟩

structure PathEstimatorConfig where
  minimumRttAgeWindowUs : Nat
  deliveryHorizonPackets : Nat
  rttStepThresholdPercent : Nat
  rttStepConsecutiveSamples : Nat
  lossStepConsecutivePackets : Nat
  stepConservativeDurationUs : Nat
  stepCostMultiplierQ16 : Nat

def PathEstimatorConfig.defaultConfig : PathEstimatorConfig :=
  ⟨60000000, 8, 50, 3, 3, 5000000, 2 ^ 16 * 2⟩

def PathEstimatorConfig.isValid (self : PathEstimatorConfig) : Bool :=
  self.minimumRttAgeWindowUs != 0 && self.deliveryHorizonPackets != 0 &&
    self.deliveryHorizonPackets ≤ 64
    && self.rttStepThresholdPercent != 0 && self.rttStepThresholdPercent ≤ 1000 &&
      self.rttStepConsecutiveSamples != 0
    && self.lossStepConsecutivePackets != 0 && self.stepConservativeDurationUs != 0
    && 2 ^ 16 ≤ self.stepCostMultiplierQ16 && self.stepCostMultiplierQ16 ≤ 2 ^ 16 * 16

def u128Max : Nat := 2 ^ 128 - 1

def satMul128 (a b : Nat) : Nat := min (a * b) u128Max

def satAdd128 (a b : Nat) : Nat := min (a + b) u128Max

/-- Bytes and packets, in Q16, that `elapsed` microseconds refill. -/
def pacingRefillTokens (elapsed window rtt mss : Nat) : Nat × Nat :=
  let rtt := max rtt 1
  let mss := max mss 1
  if elapsed * window * 2 ^ 16 ≤ u64Max then
    let bytes := elapsed * window * 2 ^ 16 / rtt
    (bytes, bytes / mss)
  else
    let bytes := satMul128 (satMul128 elapsed window) (2 ^ 16) / rtt
    (min bytes u64Max, min (bytes / mss) u64Max)

def widePacingWaitUs (deficit scale denominator : Nat) : Nat :=
  min (satAdd128 (satMul128 deficit scale) (denominator - 1) / denominator) u64Max

def pacingWaitUs (deficit scale denominator : Nat) : Nat :=
  let denominator := max denominator 1
  if deficit = 0 then 0
  else if scale ≤ u64Max ∧ denominator ≤ u64Max ∧ deficit * scale + (denominator - 1) ≤ u64Max then
    (deficit * scale + (denominator - 1)) / denominator
  else widePacingWaitUs deficit scale denominator

/-! ## The state of one path -/

structure CongestionHistoryPacket where
  packetNumber : Nat
  sentAt : Nat
  accepted : Bool
  acked : Bool
  lost : Bool
  hadRttSample : Bool
  excluded : Bool

structure PathState where
  congestion : CongestionController
  pacingConfig : PacingConfig
  pacingByteTokensQ16 : Nat
  pacingPacketTokensQ16 : Nat
  pacingLastRefillUs : Nat
  pacingDeadlineUs : Option Nat
  caRemainderQ32 : Nat
  congestionHistory : List CongestionHistoryPacket
  persistentCongestionEnd : Option Nat
  sendClock : Nat
  rtt : RttEstimator
  lastPtoProbeAt : Option Nat
  ptoBackoff : Nat
  largestAckedSendOrder : Option Nat
  largestSentPacket : Option Nat
  nextSendOrder : Nat
  ackPending : Bool
  ackPackets : Nat
  ackImmediate : Bool
  ackStartedAt : Nat
  largestReceivedPacket : Option Nat
  largestReceivedAt : Nat
  localCid : Option ConnectionId
  peerCid : Option ConnectionId
  circuitKey : Option CircuitKey
  packetReorderingThreshold : Nat
  lossTimeRatioQ16 : Nat
  deliverySuccessQ16 : Nat
  estimatorConfig : PathEstimatorConfig
  rttStepStreak : Nat
  lossStepStreak : Nat
  stepConservativeUntilUs : Nat
  nextProbeAtUs : Option Nat
  pendingProbe : Option (Nat × Nat)
  probing : Bool
  suspended : Bool
  validated : Bool
  peerStandby : Bool
  peerAbandoned : Bool
  peerStatusSequence : Nat
  localStatusSequence : Nat
  pendingLocalStatus : Option (Nat × PathStatusKind)
  statusRetryAtUs : Option Nat
  locallyAbandoned : Bool

namespace PathState

def new (maxPacketSize : Nat) : PathState where
  congestion := CongestionController.new maxPacketSize
  pacingConfig := PacingConfig.host
  pacingByteTokensQ16 := PacingConfig.host.maxBurstBytes * 2 ^ 16
  pacingPacketTokensQ16 := PacingConfig.host.maxBurstPackets * 2 ^ 16
  pacingLastRefillUs := 0
  pacingDeadlineUs := none
  caRemainderQ32 := 0
  congestionHistory := []
  persistentCongestionEnd := none
  sendClock := 0
  rtt := RttEstimator.default
  lastPtoProbeAt := none
  ptoBackoff := 0
  largestAckedSendOrder := none
  largestSentPacket := none
  nextSendOrder := 0
  ackPending := false
  ackPackets := 0
  ackImmediate := false
  ackStartedAt := 0
  largestReceivedPacket := none
  largestReceivedAt := 0
  localCid := none
  peerCid := none
  circuitKey := none
  packetReorderingThreshold := 3
  lossTimeRatioQ16 := 9 * 2 ^ 16 / 8
  deliverySuccessQ16 := 2 ^ 15
  estimatorConfig := PathEstimatorConfig.defaultConfig
  rttStepStreak := 0
  lossStepStreak := 0
  stepConservativeUntilUs := 0
  nextProbeAtUs := none
  pendingProbe := none
  probing := false
  suspended := false
  validated := true
  peerStandby := false
  peerAbandoned := false
  peerStatusSequence := 0
  localStatusSequence := 0
  pendingLocalStatus := none
  statusRetryAtUs := none
  locallyAbandoned := false

variable (self : PathState)

def lossBaseRttUs : Nat :=
  max (max (self.rtt.latestRtt.getD 25000) (self.rtt.smoothedRtt.getD 25000)) 1

def lossDelayUs (maxAckDelayUs : Nat) : Nat :=
  satAdd ((satMul self.lossBaseRttUs self.lossTimeRatioQ16 + (2 ^ 16 - 1)) / 2 ^ 16) maxAckDelayUs

/-- A late ACK of a packet declared lost widens the reordering tolerance. -/
def recordSpuriousLossAck (sendOrder sentAt : Nat) : PathState :=
  let distance := satAdd (self.largestAckedSendOrder.getD sendOrder - sendOrder) 1
  let elapsed := self.sendClock - sentAt
  let divisor := satMul self.lossBaseRttUs 8
  let ratio := (satMul elapsed (9 * 2 ^ 16) + (divisor - 1)) / divisor
  { self with
    packetReorderingThreshold := max self.packetReorderingThreshold (min distance 128)
    lossTimeRatioQ16 := max self.lossTimeRatioQ16 (min ratio (4 * 2 ^ 16)) }

def setPacingConfig (config : PacingConfig) : PathState :=
  { self with
    pacingConfig := config
    pacingByteTokensQ16 := config.maxBurstBytes * 2 ^ 16
    pacingPacketTokensQ16 := config.maxBurstPackets * 2 ^ 16
    pacingLastRefillUs := self.sendClock
    pacingDeadlineUs := none }

/-- Refill the token buckets up to `nowUs`. -/
def refillPacing (nowUs : Nat) : PathState :=
  let elapsed := nowUs - self.pacingLastRefillUs
  if elapsed = 0 then self
  else
    let refill := pacingRefillTokens elapsed (max self.congestion.congestionWindow 1)
      (max (self.rtt.smoothedRtt.getD 100000) 1) (max self.congestion.maxPacketSize 1)
    { self with
      pacingByteTokensQ16 := min (satAdd self.pacingByteTokensQ16 refill.1)
        (self.pacingConfig.maxBurstBytes * 2 ^ 16)
      pacingPacketTokensQ16 :=
        min (satAdd self.pacingPacketTokensQ16 refill.2)
          (self.pacingConfig.maxBurstPackets * 2 ^ 16)
      pacingLastRefillUs := nowUs }

/-- Refill and check without charging tokens. -/
def canSendPaced (packetBytes nowUs : Nat) : PathState × Bool :=
  if !self.pacingConfig.enabled then ({ self with pacingDeadlineUs := none }, true)
  else
    let window := max self.congestion.congestionWindow 1
    let rtt := max (self.rtt.smoothedRtt.getD 100000) 1
    let mss := max self.congestion.maxPacketSize 1
    let self := self.refillPacing nowUs
    let byteDeficit := satMul packetBytes (2 ^ 16) - self.pacingByteTokensQ16
    let packetDeficit := 2 ^ 16 - self.pacingPacketTokensQ16
    if byteDeficit ≠ 0 ∨ packetDeficit ≠ 0 then
      let byteDenominator := max (satMul128 window (2 ^ 16)) 1
      let byteWait := pacingWaitUs byteDeficit rtt byteDenominator
      let packetDenominator := max (satMul128 rtt mss) 1
      let packetWait := if packetDeficit = 0 then
        0 else pacingWaitUs packetDeficit packetDenominator byteDenominator
      ({ self with pacingDeadlineUs := some (satAdd nowUs (max (max byteWait packetWait) 1)) },
        false)
    else ({ self with pacingDeadlineUs := none }, true)

def tryReservePacing (packetBytes nowUs : Nat) : PathState × Bool :=
  match self.canSendPaced packetBytes nowUs with
  | (self, false) => (self, false)
  | (self, true) =>
    if self.pacingConfig.enabled then
      ({ self with
         pacingByteTokensQ16 := self.pacingByteTokensQ16 - satMul packetBytes (2 ^ 16)
         pacingPacketTokensQ16 := self.pacingPacketTokensQ16 - 2 ^ 16 }, true)
    else (self, true)

def measuredSendCostUs : Nat :=
  let rttUs := max (self.rtt.smoothedRtt.getD 500000) 1
  let window := max self.congestion.congestionWindow 1
  let queued := satMul128 rttUs (min self.congestion.bytesInFlight window) / window
  let cost := satMul128 (satAdd128 rttUs queued) (2 ^ 16) / max self.deliverySuccessQ16 1
  let conservative :=
    if self.sendClock < self.stepConservativeUntilUs then
      satMul128 cost self.estimatorConfig.stepCostMultiplierQ16 / 2 ^ 16
    else cost
  min conservative u64Max

def isProbeEligible : Bool :=
  !self.suspended && !self.peerAbandoned && !self.locallyAbandoned &&
    (self.validated || self.probing)

def isUsableForData : Bool :=
  self.validated && !self.suspended && !self.peerAbandoned && !self.locallyAbandoned

def setEstimatorConfig (config : PathEstimatorConfig) : PathState :=
  { self with
    estimatorConfig := config
    rtt := { self.rtt with minimumAgeWindowUs := max config.minimumRttAgeWindowUs 1 }
    rttStepStreak := 0
    lossStepStreak := 0 }

def triggerEstimatorStep (nowUs : Nat) : PathState :=
  if nowUs < self.stepConservativeUntilUs then self
  else
    { self with
      stepConservativeUntilUs := satAdd nowUs self.estimatorConfig.stepConservativeDurationUs
      nextProbeAtUs := if self.pendingProbe.isNone && self.isProbeEligible then
        some nowUs else self.nextProbeAtUs }

def updateRtt (sample nowUs : Nat) : PathState :=
  let baseline := max (((self.rtt.minimumAt nowUs).or self.rtt.smoothedRtt).getD sample) 1
  let threshold := min (100 + self.estimatorConfig.rttStepThresholdPercent) (2 ^ 16 - 1)
  let elevated := satMul128 baseline threshold ≤ satMul128 sample 100
  let streak := if elevated then min (self.rttStepStreak + 1) 255 else 0
  let self := { self with rtt := self.rtt.updateAt sample nowUs, rttStepStreak := streak }
  if self.estimatorConfig.rttStepConsecutiveSamples ≤ streak then
    { self with rttStepStreak := 0 }.triggerEstimatorStep nowUs
  else self

def recordDeliveryOutcome (delivered : Bool) (nowUs : Nat) : PathState :=
  let sample := if delivered then 2 ^ 16 else 0
  let horizon := self.estimatorConfig.deliveryHorizonPackets
  let success := min (min (self.deliverySuccessQ16 * (horizon - 1)) u32Max + sample) u32Max /
    horizon
  let self := { self with deliverySuccessQ16 := max success 1 }
  if delivered then { self with lossStepStreak := 0 }
  else
    let streak := min (self.lossStepStreak + 1) 255
    if self.estimatorConfig.lossStepConsecutivePackets ≤ streak then
      { self with lossStepStreak := 0 }.triggerEstimatorStep nowUs
    else { self with lossStepStreak := streak }

/-! ### Circuit state -/

def queueStatus (status : PathStatusKind) : Except Error PathState :=
  if self.circuitKey.isNone then .error .invalid
  else if self.locallyAbandoned ∧ status ≠ .abandon then .error .invalid
  else if varintBound ≤ self.localStatusSequence + 1 then .error .packetNumberExhausted
  else
    let sequence := self.localStatusSequence + 1
    let self := { self with localStatusSequence := sequence }
    let self :=
      if status = .abandon then
        { self with
          locallyAbandoned := true
          validated := false
          probing := false
          pendingProbe := none
          nextProbeAtUs := none }
      else self
    .ok { self with
      pendingLocalStatus := some (sequence, status), statusRetryAtUs := some self.sendClock }

def statusSent (sequence retryAtUs : Nat) : PathState :=
  if self.pendingLocalStatus.any fun pending => pending.1 == sequence then
    { self with statusRetryAtUs := some retryAtUs }
  else self

def acknowledgeStatus (sequence : Nat) : PathState :=
  if self.pendingLocalStatus.any fun pending => pending.1 == sequence then
    { self with pendingLocalStatus := none, statusRetryAtUs := none }
  else self

def receiveStatus (sequence : Nat) (status : PathStatusKind) : PathState :=
  if sequence ≤ self.peerStatusSequence ∨ self.peerAbandoned then self
  else
    let self := { self with peerStatusSequence := sequence }
    match status with
    | .available => { self with peerStandby := false }
    | .standby => { self with peerStandby := true }
    | .abandon => { self with peerAbandoned := true, peerStandby := false }

def setCircuit (key : CircuitKey) : PathState :=
  { self with circuitKey := some key, validated := false }

def markValidated : PathState :=
  { self with validated := true, probing := false, suspended := false }

def markProbing : PathState :=
  { self with validated := false, probing := true, suspended := false, pendingProbe := none }

def markSuspended : PathState :=
  { self with validated := false, probing := false, suspended := true, pendingProbe := none,
              nextProbeAtUs := none }

def scheduleProbe (deadlineUs : Nat) : PathState := { self with nextProbeAtUs := some deadlineUs }

def markUnvalidated : PathState := { self with validated := false }

def beginProbe (token nowUs intervalUs : Nat) : PathState :=
  { self with pendingProbe := some (token, nowUs), nextProbeAtUs := some (satAdd nowUs intervalUs) }

def completeProbe (token nowUs : Nat) : PathState :=
  match self.pendingProbe with
  | none => self
  | some (pending, sentAtUs) =>
    if pending ≠ token then self
    else
      { { self with pendingProbe := none }.updateRtt (nowUs - sentAtUs) nowUs with
        stepConservativeUntilUs := 0 }

def updateProbeSubmissionTime (token sentAtUs : Nat) : PathState :=
  match self.pendingProbe with
  | some (pending, _) =>
    if pending = token then { self with pendingProbe := some (token, sentAtUs) } else self
  | none => self

def assignSendOrder : Except Error (PathState × Nat) :=
  if u64Max ≤ self.nextSendOrder then .error .historyFull
  else .ok ({ self with nextSendOrder := self.nextSendOrder + 1 }, self.nextSendOrder)

/-! ### Congestion history -/

/-- Update the most recent event of a packet. -/
def modifyEvent (packetNumber : Nat) (f : CongestionHistoryPacket → CongestionHistoryPacket) :
    PathState :=
  { self with
    congestionHistory :=
      (modifyFirst (fun event => event.packetNumber == packetNumber) f
        self.congestionHistory.reverse).reverse }

/-- `record_congestion_packet`, on its path. -/
def recordCongestionPacket (transmissionLimit packetNumber sentAt : Nat) : PathState :=
  -- `while len >= limit { remove(0) }`
  let kept := self.congestionHistory.drop (self.congestionHistory.length + 1 - transmissionLimit)
  { self with
    congestionHistory := kept ++
      [⟨packetNumber, sentAt, true, false, false, self.rtt.latestRtt.isSome, false⟩]
    largestSentPacket := some packetNumber }

/-- An event that can bound an interval of persistent congestion. -/
def isLossEvent (event : CongestionHistoryPacket) : Bool :=
  event.accepted && !event.excluded && !event.acked && event.lost && event.hadRttSample

def persistentCongestionFrom (history : List CongestionHistoryPacket) (duration : Nat)
    (alreadyDeclared : Option Nat) : List CongestionHistoryPacket → Option Nat
  | [] => none
  | start :: rest =>
    if !isLossEvent start then persistentCongestionFrom history duration alreadyDeclared rest
    else
      match rest.find? fun stop =>
          isLossEvent stop && duration < stop.sentAt - start.sentAt
            && !(alreadyDeclared.any fun packet => stop.packetNumber ≤ packet)
            && !(history.any fun between => between.accepted && !between.excluded && between.acked
                  && start.sentAt < between.sentAt && between.sentAt < stop.sentAt) with
      | some stop => some stop.packetNumber
      | none => persistentCongestionFrom history duration alreadyDeclared rest

/-- `detect_persistent_congestion`, on its path. -/
def detectPersistentCongestion (peerMaxAckDelayUs nextPacketNumber : Nat) : PathState :=
  if self.rtt.latestRtt.isNone then self
  else
    let duration := satMul (satAdd self.rtt.pto peerMaxAckDelayUs) 3
    match persistentCongestionFrom self.congestionHistory duration self.persistentCongestionEnd
        self.congestionHistory with
    | none => self
    | some stopPacket =>
      { self with
        congestion := self.congestion.onPersistentCongestion (nextPacketNumber - 1)
        persistentCongestionEnd := some stopPacket }

end PathState

/-! ## Linked increases -/

def isEligible (path : PathState) : Bool :=
  path.validated && !path.suspended && !path.peerStandby && !path.peerAbandoned &&
    !path.locallyAbandoned
    && path.rtt.smoothedRtt.any fun rtt => 0 < rtt

/-- RFC 6356 increase of one path, in Q32 bytes. -/
def linkedCongestionIncreaseQ32 (paths : List PathState) (pathId ackedBytes : Nat) : Nat :=
  if ackedBytes = 0 then 0
  else
    match paths[pathId]? with
    | none => 0
    | some target =>
      if !isEligible target then 0
      else
        let eligible := paths.filter isEligible
        let totalWindow := (eligible.map fun path => path.congestion.congestionWindow).sum
        if totalWindow = 0 then 0
        else if paths.length = 1 then
          if ackedBytes * target.congestion.maxPacketSize * 2 ^ 32 ≤ u64Max then
            ackedBytes * target.congestion.maxPacketSize * 2 ^ 32 /
              target.congestion.congestionWindow
          else satMul128 (satMul128 ackedBytes target.congestion.maxPacketSize) (2 ^ 32) /
            totalWindow
        else
          let rtts := eligible.map fun path => path.rtt.smoothedRtt.getD 1
          let minRtt := max (rtts.foldl min (rtts.headD 1)) 1
          let terms := eligible.map fun path =>
            let x := satMul128 path.congestion.congestionWindow (2 ^ 32) / totalWindow
            let t := satMul128 minRtt (2 ^ 32) / path.rtt.smoothedRtt.getD 1
            let xt := satMul128 x t / 2 ^ 32
            (xt, satMul128 xt t / 2 ^ 32)
          let sumXt := terms.foldl (fun sum term => satAdd128 sum term.1) 0
          let maxXt2 := terms.foldl (fun best term => max best term.2) 0
          if sumXt = 0 then 0
          else
            let alpha := satMul128 (satMul128 maxXt2 (2 ^ 32)) (2 ^ 32) /
              max (satMul128 sumXt sumXt) 1
            let mss := target.congestion.maxPacketSize
            let window := max target.congestion.congestionWindow 1
            min (satMul128 (satMul128 alpha ackedBytes) mss / totalWindow)
              (satMul128 (satMul128 ackedBytes mss) (2 ^ 32) / window)

/-- One path's share of `apply_ack_congestion_growth`. -/
def PathState.grow (self : PathState) (ackedBytes increaseQ32 : Nat) : PathState :=
  if ackedBytes = 0 then self
  else if self.congestion.congestionWindow < self.congestion.slowStartThreshold then
    { self with
      congestion := { self.congestion with
        congestionWindow := satAdd self.congestion.congestionWindow ackedBytes }
      caRemainderQ32 := 0 }
  else
    let accumulated := satAdd128 self.caRemainderQ32 increaseQ32
    { self with
      congestion := { self.congestion with
        congestionWindow := satAdd self.congestion.congestionWindow
          (min (accumulated / 2 ^ 32) u64Max) }
      caRemainderQ32 := accumulated % 2 ^ 32 }

/-- Every increase is computed from the windows before any of them grows. -/
def applyAckCongestionGrowth (paths : List PathState) (growthBytesByPath : List Nat) :
    List PathState :=
  paths.mapIdx fun pathId path =>
    let ackedBytes := growthBytesByPath.getD pathId 0
    let increase :=
      if ackedBytes ≠ 0 ∧ path.congestion.slowStartThreshold ≤ path.congestion.congestionWindow then
        linkedCongestionIncreaseQ32 paths pathId ackedBytes
      else 0
    path.grow ackedBytes increase

/-! ## What leaves the flight alone -/

theorem CongestionController.onPacketLost_flight (c : CongestionController)
    (lostBytes lostPacketNumber largestSentPacket : Nat) :
    (c.onPacketLost lostBytes lostPacketNumber largestSentPacket).bytesInFlight =
      c.bytesInFlight - lostBytes := by
  unfold onPacketLost
  by_cases hzero : lostBytes = 0
  · rw [if_pos hzero, hzero, Nat.sub_zero]
  rw [if_neg hzero]
  simp only
  split <;> rfl

theorem CongestionController.onAck_flight (c : CongestionController) (ackedBytes : Nat) :
    (c.onAckWithGrowth ackedBytes false).bytesInFlight = c.bytesInFlight - ackedBytes := by
  simp only [onAckWithGrowth, or_true, if_true]
  omega

/-- The acknowledgement a path owes: whether there is one, for how many packets, at once, and since
when. -/
def PathState.owed (p : PathState) : Bool × Nat × Bool × Nat :=
  (p.ackPending, p.ackPackets, p.ackImmediate, p.ackStartedAt)

/-- The bytes in flight, the send order, the peer's id and the acknowledgement owed are the same. -/
structure PathState.KeepsFlight (p p' : PathState) : Prop where
  flight : p'.congestion.bytesInFlight = p.congestion.bytesInFlight
  order : p'.nextSendOrder = p.nextSendOrder
  peer : p'.peerCid = p.peerCid
  owed : p'.owed = p.owed

namespace PathState

variable {p p' p'' : PathState}

theorem KeepsFlight.refl (p : PathState) : KeepsFlight p p := ⟨rfl, rfl, rfl, rfl⟩

theorem KeepsFlight.trans (h : KeepsFlight p p') (h' : KeepsFlight p' p'') : KeepsFlight p p'' :=
  ⟨h'.flight.trans h.flight, h'.order.trans h.order, h'.peer.trans h.peer, h'.owed.trans h.owed⟩

variable (p)

theorem recordSpuriousLossAck_keeps (sendOrder sentAt : Nat) :
    KeepsFlight p (p.recordSpuriousLossAck sendOrder sentAt) := ⟨rfl, rfl, rfl, rfl⟩

theorem triggerEstimatorStep_keeps (nowUs : Nat) :
    KeepsFlight p (p.triggerEstimatorStep nowUs) := by
  unfold triggerEstimatorStep
  split
  · exact .refl p
  · exact ⟨rfl, rfl, rfl, rfl⟩

theorem recorded_keeps (success streak : Nat) :
    KeepsFlight p { p with deliverySuccessQ16 := success, lossStepStreak := streak } :=
  ⟨rfl, rfl, rfl, rfl⟩

theorem recordDeliveryOutcome_keeps (delivered : Bool) (nowUs : Nat) :
    KeepsFlight p (p.recordDeliveryOutcome delivered nowUs) := by
  unfold recordDeliveryOutcome
  cases delivered with
  | true => exact recorded_keeps p _ _
  | false =>
    dsimp only
    by_cases hstep : p.estimatorConfig.lossStepConsecutivePackets ≤ min (p.lossStepStreak + 1) 255
    · rw [if_pos hstep]
      exact (recorded_keeps p _ _).trans (triggerEstimatorStep_keeps _ nowUs)
    · rw [if_neg hstep]
      exact recorded_keeps p _ _

theorem updateRtt_keeps (sample nowUs : Nat) : KeepsFlight p (p.updateRtt sample nowUs) := by
  unfold updateRtt
  extract_lets baseline threshold elevated streak updated
  have h : KeepsFlight p updated := ⟨rfl, rfl, rfl, rfl⟩
  by_cases hstep : updated.estimatorConfig.rttStepConsecutiveSamples ≤ streak
  · rw [if_pos hstep]
    refine h.trans (.trans ?_ (triggerEstimatorStep_keeps _ nowUs))
    exact ⟨rfl, rfl, rfl, rfl⟩
  · rw [if_neg hstep]
    exact h

/-- The path with other pacing tokens and another deadline. -/
def repaced (self : PathState) (byteTokens packetTokens lastRefillUs : Nat)
    (deadlineUs : Option Nat) : PathState :=
  { self with
    pacingByteTokensQ16 := byteTokens
    pacingPacketTokensQ16 := packetTokens
    pacingLastRefillUs := lastRefillUs
    pacingDeadlineUs := deadlineUs }

/-- Pacing touches nothing else of the path. -/
def Repaced (p p' : PathState) : Prop :=
  ∃ byteTokens packetTokens lastRefillUs deadlineUs,
    p' = p.repaced byteTokens packetTokens lastRefillUs deadlineUs

theorem Repaced.refl : Repaced p p := ⟨_, _, _, _, rfl⟩

variable {p}

theorem Repaced.again (h : Repaced p p') (byteTokens packetTokens lastRefillUs : Nat)
    (deadlineUs : Option Nat) :
    Repaced p (p'.repaced byteTokens packetTokens lastRefillUs deadlineUs) := by
  obtain ⟨_, _, _, _, rfl⟩ := h
  exact ⟨byteTokens, packetTokens, lastRefillUs, deadlineUs, rfl⟩

theorem refillPacing_repaced (p : PathState) (nowUs : Nat) : Repaced p (p.refillPacing nowUs) := by
  unfold refillPacing
  by_cases hidle : nowUs - p.pacingLastRefillUs = 0
  · rw [if_pos hidle]
    exact .refl p
  · rw [if_neg hidle]
    exact (Repaced.refl p).again _ _ _ _

theorem canSendPaced_disabled (h : p.pacingConfig.enabled = false) (packetBytes nowUs : Nat) :
    p.canSendPaced packetBytes nowUs = ({ p with pacingDeadlineUs := none }, true) := by
  exact if_pos (by simp [h])

/-- The check waits as long as one of the buckets lacks what a packet costs. -/
theorem canSendPaced_enabled (h : p.pacingConfig.enabled = true) (packetBytes nowUs : Nat) :
    ∃ deadlineUs, p.canSendPaced packetBytes nowUs =
      if satMul packetBytes (2 ^ 16) - (p.refillPacing nowUs).pacingByteTokensQ16 ≠ 0 ∨
          2 ^ 16 - (p.refillPacing nowUs).pacingPacketTokensQ16 ≠ 0 then
        ({ p.refillPacing nowUs with pacingDeadlineUs := some deadlineUs }, false)
      else ({ p.refillPacing nowUs with pacingDeadlineUs := none }, true) := by
  unfold canSendPaced
  rw [if_neg (by simp [h])]
  exact ⟨_, rfl⟩

theorem canSendPaced_repaced (p : PathState) (packetBytes nowUs : Nat) :
    Repaced p (p.canSendPaced packetBytes nowUs).1 := by
  cases henabled : p.pacingConfig.enabled with
  | false =>
    rw [canSendPaced_disabled henabled]
    exact (Repaced.refl p).again _ _ _ _
  | true =>
    obtain ⟨deadlineUs, heq⟩ := canSendPaced_enabled henabled packetBytes nowUs
    rw [heq]
    split
    · exact (refillPacing_repaced p nowUs).again _ _ _ _
    · exact (refillPacing_repaced p nowUs).again _ _ _ _

theorem tryReservePacing_repaced (p : PathState) (packetBytes nowUs : Nat) :
    Repaced p (p.tryReservePacing packetBytes nowUs).1 := by
  have h := canSendPaced_repaced p packetBytes nowUs
  unfold tryReservePacing
  split
  · rename_i self hpaced
    rw [hpaced] at h
    exact h
  rename_i self hpaced
  rw [hpaced] at h
  split
  · exact h.again _ _ _ _
  · exact h

theorem Repaced.keeps (h : Repaced p p') : KeepsFlight p p' := by
  obtain ⟨_, _, _, _, rfl⟩ := h
  exact ⟨rfl, rfl, rfl, rfl⟩

variable (p)

theorem canSendPaced_keeps (packetBytes nowUs : Nat) :
    KeepsFlight p (p.canSendPaced packetBytes nowUs).1 :=
  (canSendPaced_repaced p packetBytes nowUs).keeps

theorem tryReservePacing_keeps (packetBytes nowUs : Nat) :
    KeepsFlight p (p.tryReservePacing packetBytes nowUs).1 :=
  (tryReservePacing_repaced p packetBytes nowUs).keeps

theorem tryReservePacing_congestion (packetBytes nowUs : Nat) :
    (p.tryReservePacing packetBytes nowUs).1.congestion = p.congestion := by
  obtain ⟨_, _, _, _, h⟩ := tryReservePacing_repaced p packetBytes nowUs
  rw [h]
  rfl

theorem updateProbeSubmissionTime_keeps (token sentAtUs : Nat) :
    KeepsFlight p (p.updateProbeSubmissionTime token sentAtUs) := by
  unfold updateProbeSubmissionTime
  split
  · split_ifs
    · exact ⟨rfl, rfl, rfl, rfl⟩
    · exact .refl p
  · exact .refl p

theorem statusSent_keeps (sequence retryAtUs : Nat) :
    KeepsFlight p (p.statusSent sequence retryAtUs) := by
  unfold statusSent
  split_ifs
  · exact ⟨rfl, rfl, rfl, rfl⟩
  · exact .refl p

theorem acknowledgeStatus_keeps (sequence : Nat) :
    KeepsFlight p (p.acknowledgeStatus sequence) := by
  unfold acknowledgeStatus
  split_ifs
  · exact ⟨rfl, rfl, rfl, rfl⟩
  · exact .refl p

theorem detectPersistentCongestion_keeps (peerMaxAckDelayUs nextPacketNumber : Nat) :
    KeepsFlight p (p.detectPersistentCongestion peerMaxAckDelayUs nextPacketNumber) := by
  unfold detectPersistentCongestion
  split_ifs
  · exact .refl p
  simp only
  split
  · exact .refl p
  · exact ⟨rfl, rfl, rfl, rfl⟩

theorem grow_keeps (ackedBytes increaseQ32 : Nat) :
    KeepsFlight p (p.grow ackedBytes increaseQ32) := by
  unfold grow
  split_ifs
  · exact .refl p
  · exact ⟨rfl, rfl, rfl, rfl⟩
  · exact ⟨rfl, rfl, rfl, rfl⟩

variable {p}

end PathState

end QuicLite
