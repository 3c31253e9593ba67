import QuicLite.Lib.BigEndian
import Mathlib.Data.Vector.Basic

/-!
# The state of the cluster selection

One state follows NAN beacons and NOW sync records. A NOW record plays the part of a beacon. Times
are in microseconds.
-/

namespace QuicLite.Nan

open BigEndian

abbrev MacAddr := List.Vector UInt8 6

abbrev Bytes := List UInt8

def zeroMac : MacAddr := List.Vector.replicate 6 0

/-- The order of byte arrays. -/
def macLt (a b : MacAddr) : Bool := decide (a.toList < b.toList)

def u64Max : Nat := 2 ^ 64 - 1

def clusterReselectAfterUs : Nat := 3 * 512 * 1024
def clusterStaleAfterUs : Nat := 5000000

/-! ## Frames -/

def frameBssid : Nat := 16
def frameData : Nat := 24
def nanBssidOui : Bytes := [0x50, 0x6f, 0x9a]

section

variable (frame : Bytes)

/-- `frame.get(start..start + len)`. -/
def range (start len : Nat) : Option Bytes :=
  if start + len ≤ frame.length then some ((frame.drop start).take len) else none

def toMac (bs : Bytes) : Option MacAddr := if h : bs.length = 6 then some ⟨bs, h⟩ else none

def bssid : Option MacAddr := (range frame frameBssid 6).bind toMac

def isNanBssid : Bool := (bssid frame).any fun mac => mac.toList.take 3 == nanBssidOui

def isBeacon : Bool := frame.head? == some 0x80

def isNanBeacon : Bool := isBeacon frame && isNanBssid frame

def beaconTsfUs : Option Nat := (range frame frameData 8).map fun bs => ofBytes 0 bs.reverse

def beaconIntervalTu : Option Nat :=
  ((range frame (frameData + 8) 2).map fun bs => ofBytes 0 bs.reverse).filter (· != 0)

end

structure RxFrame where
  bytes : Bytes
  timestampUs : Nat

/-! ## The state -/

inductive FilterMode where
  | discovery
  | cluster
deriving DecidableEq, Repr

inductive Action where
  | none
  | armA3 (mac : MacAddr)
  | dropForeign
  | rediscover
deriving DecidableEq

structure NanState where
  mode : FilterMode
  cluster : Option MacAddr
  syncBssid : Option MacAddr
  lastBeaconTsfUs : Nat
  beaconIntervalTu : Nat
  lastBeaconUs : Nat
  staleAfterUs : Nat
  /-- The selected cluster is a real NAN cluster. -/
  nanCluster : Bool
  /-- This device is the anchor master of the NOW-only cluster that it follows. -/
  nowMaster : Bool

/-! ## The NOW selection rules -/

def syncFlagMaster : UInt8 := 1
def syncFlagNanAligned : UInt8 := 2
def syncDefaultIntervalTu : Nat := 512

structure NowSelection where
  /-- The followed cluster, zero when there is none. -/
  cluster : MacAddr
  nanCluster : Bool
  master : Bool
  lastLocalUs : Nat

inductive NowSyncDecision where
  | ignore
  | join
  | refresh
  | drop

def nowSyncDecide (selection : NowSelection) (mac cluster : MacAddr) (nanAligned : Bool)
    (localUs : Nat) : NowSyncDecision :=
  if cluster = zeroMac ∨ cluster = mac then .ignore
  else if selection.cluster = zeroMac then
    if nanAligned || macLt cluster mac then .join else .ignore
  else if selection.cluster = cluster then .refresh
  else if nanAligned && !selection.nanCluster then .join
  else if !nanAligned && selection.nanCluster then .drop
  else if selection.master then
    if macLt cluster selection.cluster then .join else .drop
  else if clusterReselectAfterUs ≤ localUs - selection.lastLocalUs then .join
  else .drop

def unix2020Us : Nat := 1577836800000000

/-- The cluster time that a new master starts from. -/
def nowMasterTsfUs (unixUs : Option Nat) (localUs : Nat) : Nat :=
  match unixUs with
  | some unix => if unix2020Us ≤ unix then unix else min (localUs + 1) u64Max
  | none => min (localUs + 1) u64Max

structure NowSyncOutgoing where
  clusterId : MacAddr
  anchorMaster : MacAddr
  tsfUs : Nat
  intervalTu : Nat
  flags : UInt8

namespace NanState

def new (staleAfterUs : Nat) : NanState :=
  ⟨.discovery, none, none, 0, 0, 0, staleAfterUs, false, false⟩

variable (self : NanState)

/-- A beacon of an access point is a timing fallback. -/
def observeApBeacon (frame : RxFrame) : NanState :=
  if !isBeacon frame.bytes || self.cluster.isSome then self
  else
    match bssid frame.bytes with
    | some a3 =>
      { self with
        syncBssid := some a3
        lastBeaconTsfUs := (Nan.beaconTsfUs frame.bytes).getD 0
        beaconIntervalTu := (Nan.beaconIntervalTu frame.bytes).getD 0
        lastBeaconUs := frame.timestampUs }
    | none => self

/-- A NAN beacon selects its cluster, or keeps it alive. -/
def follow (frame : RxFrame) : NanState :=
  { self with
    lastBeaconTsfUs := (Nan.beaconTsfUs frame.bytes).getD 0
    beaconIntervalTu := (Nan.beaconIntervalTu frame.bytes).getD 0
    lastBeaconUs := frame.timestampUs
    nanCluster := true
    nowMaster := false }

def observe (frame : RxFrame) : NanState × Action :=
  match bssid frame.bytes with
  | none => (self, .none)
  | some a3 =>
    if isNanBeacon frame.bytes then
      if self.cluster = none then
        ({ self.follow frame with cluster := some a3, syncBssid := some a3, mode := .cluster },
          .armA3 a3)
      else if self.cluster = some a3 then (self.follow frame, .none)
      else if !self.nanCluster ||
        decide (clusterReselectAfterUs ≤ frame.timestampUs - self.lastBeaconUs) then
        ({ self.follow frame with cluster := some a3, syncBssid := some a3 }, .armA3 a3)
      else (self, .dropForeign)
    else if self.mode = .cluster ∧ self.cluster ≠ some a3 then (self, .dropForeign)
    else (self, .none)

def tick (nowUs : Nat) : NanState × Action :=
  if self.mode = .cluster ∧ self.staleAfterUs ≤ nowUs - self.lastBeaconUs then
    ({ self with
      mode := .discovery
      cluster := none
      syncBssid := none
      lastBeaconTsfUs := 0
      beaconIntervalTu := 0
      nanCluster := false
      nowMaster := false }, .rediscover)
  else (self, .none)

def selection : NowSelection :=
  ⟨self.cluster.getD zeroMac, self.nanCluster, self.nowMaster, self.lastBeaconUs⟩

def observeNowSync (mac cluster : MacAddr) (tsfUs intervalTu : Nat) (nanAligned : Bool)
    (localUs : Nat) : NanState × Action :=
  match nowSyncDecide self.selection mac cluster nanAligned localUs with
  | .ignore => (self, .none)
  | .drop => (self, .dropForeign)
  | .refresh =>
    ({ self with
      lastBeaconTsfUs := tsfUs
      beaconIntervalTu := max intervalTu 1
      lastBeaconUs := localUs
      nanCluster := nanAligned || self.nanCluster }, .none)
  | .join =>
    ({ self with
      cluster := some cluster
      syncBssid := some cluster
      lastBeaconTsfUs := tsfUs
      beaconIntervalTu := max intervalTu 1
      mode := .cluster
      lastBeaconUs := localUs
      nanCluster := nanAligned
      nowMaster := false }, .armA3 cluster)

/-- The record to send now, with the cluster time carried forward. -/
def nowSyncOutgoing (nowUs : Nat) : Option NowSyncOutgoing :=
  self.cluster.map fun cluster =>
    ⟨cluster, cluster, min (self.lastBeaconTsfUs + (nowUs - self.lastBeaconUs)) u64Max,
      max self.beaconIntervalTu 1, (if self.nowMaster then syncFlagMaster else 0) |||
      (if self.nanCluster then syncFlagNanAligned else 0)⟩

/-- Forms or keeps a NOW-only cluster, unless another cluster is followed. -/
def becomeNowMaster (mac : MacAddr) (nowUs : Nat) (unixUs : Option Nat) : NanState × Bool :=
  if self.cluster.isSome && !self.nowMaster then (self, false)
  else
    let tsfUs :=
      match self.nowMaster, self.nowSyncOutgoing nowUs with
      | true, some out => out.tsfUs
      | _, _ => nowMasterTsfUs unixUs nowUs
    ({ self with
      cluster := some mac
      syncBssid := some mac
      lastBeaconTsfUs := tsfUs
      beaconIntervalTu := syncDefaultIntervalTu
      mode := .cluster
      lastBeaconUs := nowUs
      nanCluster := false
      nowMaster := true }, true)

end NanState

end QuicLite.Nan
