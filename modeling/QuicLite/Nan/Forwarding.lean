import QuicLite.Nan.Ranking

/-!
# Forwarding among devices

Followers forward the record of their cluster, and a forwarded record keeps the cluster of its
receivers alive like one of the anchor master.
-/

namespace QuicLite.Nan

open List Option Runs Function

/-! ## The devices -/

/-- What a receiver reads from the flags. -/
def NowSyncOutgoing.nanAligned (self : NowSyncOutgoing) : Bool :=
  self.flags &&& syncFlagNanAligned != 0

inductive Event (ι : Type) where
  | tick (device : ι)
  | becomeNowMaster (device : ι) (unixUs : Option Nat)
  /-- The record of a device reaches some of the others. -/
  | emit (device : ι) (receivers : List ι)

def Event.isTickOf {ι : Type} [DecidableEq ι] (device : ι) : Event ι → Bool
  | .tick found => decide (found = device)
  | _ => false

namespace Devices

variable {ι : Type} [DecidableEq ι] {op : Nat × Event ι} {mac : ι → MacAddr} {c d : ι}
    {s : ι → NanState}

/-- What an event makes of each device. -/
def step (mac : ι → MacAddr) (s : ι → NanState) (op : Nat × Event ι) : ι → NanState :=
  fun d => match op.2 with
  | .tick device => if d = device then ((s d).tick op.1).1 else s d
  | .becomeNowMaster device unixUs =>
    if d = device then ((s d).becomeNowMaster (mac d) op.1 unixUs).1 else s d
  | .emit device receivers =>
    if d ≠ device ∧ d ∈ receivers then
      match (s device).nowSyncOutgoing op.1 with
      | none => s d
      | some out =>
        ((s d).observeNowSync (mac d) out.clusterId out.tsfUs out.intervalTu out.nanAligned op.1).1
    else s d

def run (mac : ι → MacAddr) (staleAfterUs : Nat) (ops : List (Nat × Event ι)) : ι → NanState :=
  exec (step mac) (fun _ => .new staleAfterUs) ops

/-- An event is one call on each device, or none. -/
theorem step_react (mac : ι → MacAddr) (s : ι → NanState) (op : Nat × Event ι) (d : ι) :
    step mac s op d = s d ∨ ∃ input, step mac s op d = ((s d).react (mac d) (op.1, input)).1 := by
  obtain ⟨nowUs, event⟩ := op
  cases event with
  | tick device =>
    by_cases hd : d = device
    · exact .inr ⟨.tick, if_pos hd⟩
    · exact .inl (if_neg hd)
  | becomeNowMaster device unixUs =>
    by_cases hd : d = device
    · exact .inr ⟨.becomeNowMaster unixUs, if_pos hd⟩
    · exact .inl (if_neg hd)
  | emit device receivers =>
    by_cases hd : d ≠ device ∧ d ∈ receivers
    · cases hout : (s device).nowSyncOutgoing nowUs with
      | none => exact .inl (by simp [step, hout])
      | some out =>
        exact .inr ⟨.observeNowSync out.clusterId out.tsfUs out.intervalTu out.nanAligned, by
          simp only [step, if_pos hd, hout, NanState.react]⟩
    · exact .inl (if_neg hd)

theorem run_append (mac : ι → MacAddr) (staleAfterUs : Nat) (ops more : List (Nat × Event ι)) :
    run mac staleAfterUs (ops ++ more) = exec (step mac) (run mac staleAfterUs ops) more :=
  exec_append _ _ _ _

/-! ## What each device keeps -/

structure DevicesInv (mac : ι → MacAddr) (staleAfterUs : Nat) (s : ι → NanState) : Prop where
  selection : ∀ d, SelectionInv (mac d) (s d)
  stale : ∀ d, (s d).staleAfterUs = staleAfterUs

namespace DevicesInv

variable {mac : ι → MacAddr} {staleAfterUs : Nat} {s : ι → NanState}

theorem step (h : DevicesInv mac staleAfterUs s) (op : Nat × Event ι) :
    DevicesInv mac staleAfterUs (Devices.step mac s op) := by
  constructor
  · intro d
    rcases step_react mac s op d with hsame | ⟨input, hreact⟩
    · exact hsame ▸ h.selection d
    · exact hreact ▸ (h.selection d).move ((h.selection d).react_move (op.1, input))
  intro d
  rcases step_react mac s op d with hsame | ⟨input, hreact⟩
  · exact hsame ▸ h.stale d
  · rw [hreact, react_staleAfterUs]
    exact h.stale d

theorem run (mac : ι → MacAddr) (staleAfterUs : Nat) (ops : List (Nat × Event ι)) :
    DevicesInv mac staleAfterUs (Devices.run mac staleAfterUs ops) :=
  invariant (fun _ op h => h.step op) ⟨fun _ => .new staleAfterUs, fun _ => rfl⟩ ops

/-- The cluster of a device was last heard at some event. -/
theorem last_le (h : DevicesInv mac staleAfterUs s) {u : Nat} (hop : op.1 ≤ u)
    (hlast : ∀ d, (s d).cluster.isSome = true → (s d).lastBeaconUs ≤ u) (d : ι)
    (hsome : (Devices.step mac s op d).cluster.isSome = true) :
    (Devices.step mac s op d).lastBeaconUs ≤ u := by
  rcases step_react mac s op d with hsame | ⟨input, hreact⟩
  · exact hsame ▸ hlast d (hsame ▸ hsome)
  rw [hreact] at hsome ⊢
  cases (h.selection d).react_move (op.1, input) with
  | kept hcluster _ _ _ hsame =>
    have hwas : (s d).cluster.isSome = true := hcluster ▸ hsome
    rw [hsame hwas]
    exact hlast d hwas
  | refreshed _ _ _ _ _ hnow _ _ _ _ => exact hnow.le.trans hop
  | selected _ _ _ _ hnow _ _ _ _ => exact hnow.le.trans hop
  | dropped hnone _ _ _ => simp [hnone] at hsome

end DevicesInv

theorem run_last_le {staleAfterUs u : Nat} {ops : List (Nat × Event ι)}
    (hops : ∀ op ∈ ops, op.1 ≤ u) (d : ι)
    (hsome : (run mac staleAfterUs ops d).cluster.isSome = true) :
    (run mac staleAfterUs ops d).lastBeaconUs ≤ u := by
  induction ops using reverseRecOn generalizing d with
  | nil => cases hsome
  | append_singleton ops op ih =>
    rw [run_append, exec_cons] at hsome ⊢
    exact (DevicesInv.run mac staleAfterUs ops).last_le (hops op (by simp))
      (fun found => ih (fun op hop => hops op (mem_append_left _ hop)) found) d hsome

/-! ## Silence -/

/-- No record of the cluster of `c` reaches a device that is not `c`. -/
def Unheard (mac : ι → MacAddr) (c : ι) (s : ι → NanState) (op : Nat × Event ι) : Prop :=
  ∀ device receivers, op.2 = .emit device receivers → (s device).cluster = some (mac c) →
    ∀ d ∈ receivers, d = device ∨ d = c

/-- A device that a step leaves in the cluster of `c` was not touched by it. -/
theorem unheard_same (hmac : Injective mac) (hunheard : Unheard mac c s op) (hd : d ≠ c)
    (hselected : (step mac s op d).cluster = some (mac c)) :
    step mac s op d = s d := by
  obtain ⟨nowUs, event⟩ := op
  have hother : mac d ≠ mac c := fun heq => hd (hmac heq)
  revert hselected
  cases event with
  | tick device =>
    simp only [step, NanState.tick]
    split_ifs
    · exact fun hnone => by cases hnone
    all_goals exact fun _ => rfl
  | becomeNowMaster device unixUs =>
    simp only [step, NanState.becomeNowMaster]
    split_ifs
    · exact fun _ => rfl
    · exact fun hself => absurd (some.inj hself) hother
    · exact fun _ => rfl
  | emit device receivers =>
    simp only [step]
    split_ifs with hreached
    · cases hout : (s device).nowSyncOutgoing nowUs with
      | none => exact fun _ => rfl
      | some out =>
        have hcluster : (s device).cluster = some out.clusterId := by
          obtain ⟨cluster, hcluster, rfl⟩ := map_eq_some_iff.mp hout
          exact hcluster
        have hforeign : out.clusterId ≠ mac c := fun heq => by
          rcases hunheard device receivers rfl (heq ▸ hcluster) d hreached.2 with hself | hself
          · exact hreached.1 hself
          · exact hd hself
        simp only [NanState.observeNowSync]
        split
        · exact fun _ => rfl
        · exact fun _ => rfl
        · next hrefresh =>
            intro (hselected : (s d).cluster = some (mac c))
            have hsame := (nowSyncDecide_refresh hrefresh).2.2
            rw [SelectionInv.selection_cluster hselected] at hsame
            exact absurd hsame.symm hforeign
        · exact fun hselected => absurd (some.inj hselected) hforeign
    · exact fun _ => rfl

/-- No device but `c` follows the cluster of `c`. -/
def Forgotten (mac : ι → MacAddr) (c : ι) (s : ι → NanState) : Prop :=
  ∀ d, d ≠ c → (s d).cluster ≠ some (mac c)

/-- The other devices heard their cluster no later than `u`, if it is that of `c`. -/
structure Fading (mac : ι → MacAddr) (staleAfterUs : Nat) (c : ι) (u : Nat)
    (s : ι → NanState) : Prop extends
    DevicesInv mac staleAfterUs s where
  last : ∀ d, d ≠ c → (s d).cluster = some (mac c) → (s d).lastBeaconUs ≤ u

namespace Fading

variable {mac : ι → MacAddr} {staleAfterUs : Nat} {c : ι} {u : Nat} {s : ι → NanState}

theorem step (h : Fading mac staleAfterUs c u s) (hmac : Injective mac)
    (hunheard : Unheard mac c s op) : Fading mac staleAfterUs c u (Devices.step mac s op) := by
  refine ⟨h.toDevicesInv.step op, fun d hd hselected => ?_⟩
  have hsame := unheard_same hmac hunheard hd hselected
  rw [hsame] at hselected ⊢
  exact h.last d hd hselected

theorem tick (h : Fading mac staleAfterUs c u s) (hmac : Injective mac) (hd : d ≠ c)
    {nowUs : Nat} (hlate : u + staleAfterUs ≤ nowUs) :
    (Devices.step mac s (nowUs, .tick d) d).cluster ≠ some (mac c) := by
  intro hselected
  have hsame : Devices.step mac s (nowUs, .tick d) d = s d :=
    unheard_same hmac (fun device receivers hemit => by cases hemit) hd hselected
  have hfresh := ((h.selection d).tick_rediscover nowUs).2 (mac c)
  have htick : Devices.step mac s (nowUs, .tick d) d = ((s d).tick nowUs).1 := if_pos rfl
  rw [htick] at hselected hsame
  have hlast := h.last d hd (hsame ▸ hselected)
  have := hfresh hselected
  rw [hsame, h.stale d] at this
  omega

end Fading

/-- A step that nobody else hears of the cluster brings no device back to it. -/
theorem unheard_forgotten (hmac : Injective mac) (hunheard : Unheard mac c s op)
    (hd : d ≠ c) (hgone : (s d).cluster ≠ some (mac c)) :
    (step mac s op d).cluster ≠ some (mac c) := fun hselected =>
  hgone (unheard_same hmac hunheard hd hselected ▸ hselected)

theorem Forgotten.step (hmac : Injective mac)
    (h : Forgotten mac c s) (hsilent : ∀ receivers, op.2 ≠ .emit c receivers) :
    Forgotten mac c (Devices.step mac s op) := by
  have hunheard : Unheard mac c s op := by
    intro device receivers hemit hcluster
    have hdevice : device ≠ c := fun heq => hsilent receivers (heq ▸ hemit)
    exact absurd hcluster (h device hdevice)
  exact fun d hd => unheard_forgotten hmac hunheard hd (h d hd)

/-! ## The result -/

/-- A cluster of which no other device hears anything until each has ticked late enough is forgotten
for good, if its own device stays silent. -/
theorem unheard_cluster_forgotten {mac : ι → MacAddr} (hmac : Injective mac) (c : ι)
    {staleAfterUs u : Nat} {earlier quiet later : List (Nat × Event ι)}
    (hearlier : ∀ op ∈ earlier, op.1 ≤ u)
    (hquiet : Along (step mac) (Unheard mac c) (run mac staleAfterUs earlier) quiet)
    (hticked : ∀ d, d ≠ c → ∃ nowUs, u + staleAfterUs ≤ nowUs ∧ (nowUs, .tick d) ∈ quiet)
    (hsilent : ∀ op ∈ later, ∀ receivers, op.2 ≠ .emit c receivers) :
    Forgotten mac c (run mac staleAfterUs (earlier ++ quiet ++ later)) := by
  have hstart : Fading mac staleAfterUs c u (run mac staleAfterUs earlier) :=
    ⟨.run mac staleAfterUs earlier, fun d _ hselected =>
      run_last_le hearlier d (isSome_of_eq_some hselected)⟩
  have hgone : Forgotten mac c (run mac staleAfterUs (earlier ++ quiet)) := by
    intro d hd
    obtain ⟨nowUs, hlate, hmem⟩ := hticked d hd
    obtain ⟨front, back, rfl⟩ := append_of_mem hmem
    obtain ⟨hfront, -, hback⟩ := Along.append.mp hquiet
    rw [run_append, exec_append]
    have hfading : Fading mac staleAfterUs c u
        (exec (step mac) (run mac staleAfterUs earlier) front) :=
      Along.invariant (fun _ _ h hunheard => h.step hmac hunheard) hstart hfront
    exact Along.invariant (P := fun s => (s d).cluster ≠ some (mac c))
      (fun _ _ h hunheard => unheard_forgotten hmac hunheard hd h)
        (hfading.tick hmac hd hlate) hback
  induction later using reverseRecOn with
  | nil => rwa [append_nil]
  | append_singleton later op ih =>
    rw [← append_assoc, run_append, exec_cons]
    exact (ih fun op hop => hsilent op (mem_append_left _ hop)).step hmac (hsilent op (by simp))

/-- Times do not go back, and every device ticks at least once in every `staleAfterUs`. -/
structure Fair (staleAfterUs : Nat) (ops : List (Nat × Event ι)) : Prop where
  clock : (ops.map (·.1)).Pairwise (· ≤ ·)
  ticks : ∀ d, (0 :: (ops.filter (·.2.isTickOf d)).map (·.1)).IsChain fun earlier later =>
    later ≤ earlier + staleAfterUs
  last : ∀ d, ∀ op ∈ ops, ∃ nowUs ∈ 0 :: (ops.filter (·.2.isTickOf d)).map (·.1),
    op.1 ≤ nowUs + staleAfterUs

def threeMacs (d : Fin 3) : MacAddr := ⟨[2, 0, 0, 0, 0, UInt8.ofNat d.val], rfl⟩

theorem threeMacs_injective : Injective threeMacs := by
  unfold Injective
  decide

/-- Both followers forward what they follow, and everyone ticks. -/
def exchange (nowUs : Nat) : List (Nat × Event (Fin 3)) :=
  [(nowUs, .emit 1 [2]), (nowUs, .emit 2 [1]), (nowUs, .tick 0), (nowUs, .tick 1), (nowUs, .tick 2)]

/-- The master is heard once. -/
def heardOnce : List (Nat × Event (Fin 3)) := [(0, .becomeNowMaster 0 none), (0, .emit 0 [1, 2])]

def circulating : List (Nat × Event (Fin 3)) :=
  heardOnce ++ exchange 4999999 ++ exchange 9999998 ++ exchange 14999997 ++ exchange 19999996 ++
    exchange 24999995

theorem circulating_fair : Fair 5000000 circulating where
  clock := by decide
  ticks := by decide
  last := by decide

/-- Two followers keep the cluster of a master that was heard once alive. -/
theorem forwards_keep_alive :
    ¬ ∀ (n : Nat) (mac : Fin n → MacAddr) (staleAfterUs : Nat) (ops : List (Nat × Event (Fin n)))
      (c : Fin n) (silentFromUs : Nat), Injective mac → Fair staleAfterUs ops →
      (∀ op ∈ ops, silentFromUs < op.1 → ∀ receivers, op.2 ≠ .emit c receivers) →
        (∃ op ∈ ops, silentFromUs + (n + 1) * staleAfterUs < op.1) →
          Forgotten mac c (run mac staleAfterUs ops) := by
  intro hall
  have hsilent : ∀ op ∈ circulating, 0 < op.1 → ∀ receivers, op.2 ≠ .emit 0 receivers := by
    simp [circulating, heardOnce, exchange]
  have hgone := hall 3 threeMacs 5000000 circulating 0 0 threeMacs_injective
    circulating_fair hsilent
    ⟨(24999995, .tick 2), by simp [circulating, exchange], by decide⟩
  exact hgone 1 (by decide) (by decide)

/-- The same devices forget it when they do not hear each other any more. -/
theorem silent_followers_forget :
    Forgotten threeMacs 0 (run threeMacs 5000000 (heardOnce ++ exchange 4999999 ++
      [(9999999, .tick 1), (9999999, .tick 2)] ++
        [(10000000, .emit 1 [2]), (10000000, .emit 2 [1])])) := by
  refine unheard_cluster_forgotten (u := 4999999) threeMacs_injective 0 (by decide) ?_ ?_ (by simp)
  · simp [Along, Unheard]
  intro d hd
  refine ⟨9999999, by decide, ?_⟩
  have hfollower : ∀ d : Fin 3, d ≠ 0 → d = 1 ∨ d = 2 := by decide
  rcases hfollower d hd with rfl | rfl
  · exact mem_cons_self
  · exact mem_cons_of_mem _ mem_cons_self

end Devices

end QuicLite.Nan
