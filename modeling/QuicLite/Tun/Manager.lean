import Mathlib.Algebra.BigOperators.Group.Finset.Piecewise
import Mathlib.Algebra.Order.BigOperators.Group.Finset
import QuicLite.Lib.Runs
import QuicLite.Lib.Table
import QuicLite.Tun.Packet

/-!
# The flow table of the TCP proxy

Any number of tasks hand packets to the manager or open inbound flows, while the tasks of the flows
run beside them. A caller looks its key up in one shard, or counts the entries shard by shard and
then enters a new flow; only each of these sections is atomic. A flow's task queues the SYN it was
created for, reads its queue, and removes the entry of its key when it is done.

The entries of the table are the tasks that have not removed theirs, each under its own key, in any
run (`Owned`).
-/

namespace QuicLite.Tun.Manager

open Packet Option Function Nat Finset

/-! ## The table -/

structure SocketAddr where
  ip : IpAddr
  port : UInt16
  deriving DecidableEq

structure TcpFlowKey where
  src : SocketAddr
  dst : SocketAddr
  deriving DecidableEq

structure TcpProxyConfig where
  maxFlows : Nat
  perFlowQueueCapacity : Nat
  capacity_pos : 0 < perFlowQueueCapacity

def flowTableShards : Nat := 64

/-- One shard: the flow, that is the sender of its queue, of each key. -/
abbrev Shard := AList fun _ : TcpFlowKey => Nat

abbrev FlowTable := Nat → Shard

def shardIndex (key : TcpFlowKey) : Nat :=
  (key.src.port.toNat ^^^ (key.dst.port.toNat <<< 1)) &&& (flowTableShards - 1)

variable (self : FlowTable)

def FlowTable.get (key : TcpFlowKey) : Option Nat := (self (shardIndex key)).lookup key

def FlowTable.insert (key : TcpFlowKey) (flow : Nat) : FlowTable :=
  update self (shardIndex key) ((self (shardIndex key)).insert key flow)

def FlowTable.remove (key : TcpFlowKey) : FlowTable :=
  update self (shardIndex key) ((self (shardIndex key)).erase key)

/-- The entries of one shard. -/
def FlowTable.count (shard : Nat) : Nat := (self shard).entries.length

def FlowTable.entries : Nat := ∑ shard ∈ range flowTableShards, self.count shard

/-! ## The tasks -/

/-- A packet given to `handle_packet`: the number of the call, and the calls that had returned
before it. -/
structure Given where
  call : Nat
  earlier : List Nat
  pkt : TunTcpPacket

def keyOf (pkt : TunTcpPacket) : TcpFlowKey :=
  ⟨⟨pkt.srcAddr, pkt.srcPort⟩, ⟨pkt.dstAddr, pkt.dstPort⟩⟩

def isSyn (pkt : TunTcpPacket) : Bool := pkt.syn && !pkt.ack

def isIpv4 : IpAddr → Bool
  | .v4 _ => true
  | .v6 _ => false

/-- `src_ip.is_ipv4() == dst_ip.is_ipv4()` -/
def oneVersion (key : TcpFlowKey) : Bool := isIpv4 key.src.ip == isIpv4 key.dst.ip

/-- Where the task of a flow is. Its queue is closed from `returned` on. -/
inductive Phase where
  | spawned
  | started
  | waiting
  | serving
  | returned
  | ended
  deriving DecidableEq

/-- The task of a flow, with its queue, what it has read from it, and whether it has asked the
policy. The task of an inbound flow has no SYN. -/
structure FlowTask where
  key : TcpFlowKey
  syn : Option Given
  phase : Phase
  queue : List Given
  received : List Given
  routed : Bool

def FlowTask.closed (self : FlowTask) : Bool := self.phase = .returned ∨ self.phase = .ended

/-- What a caller wants to enter. -/
inductive Job where
  | syn (given : Given)
  | inbound (src dst : SocketAddr)

/-- The guest is the source of its own flows and the destination of the inbound ones. -/
def Job.key : Job → TcpFlowKey
  | .syn given => keyOf given.pkt
  | .inbound src dst => ⟨dst, src⟩

def Job.given : Job → Option Given
  | .syn given => some given
  | .inbound _ _ => none

/-- Where a caller is. `len` has visited the shards below its number. -/
inductive Pc where
  | idle
  | lookup (given : Given)
  | trySend (given : Given) (flow : Nat)
  | send (given : Given) (flow : Nat)
  | len (job : Job) (shard sum : Nat)
  | insert (job : Job)

/-- The table, the flows and the callers, with the calls given and returned so far. -/
structure State (ι : Type) where
  table : FlowTable
  flows : Nat → Option FlowTask
  next : Nat
  callers : ι → Pc
  calls : Nat
  returned : List Nat

namespace State

variable {ι : Type} [DecidableEq ι] (config : TcpProxyConfig)

def new : State ι where
  table := fun _ => ∅
  flows := fun _ => none
  next := 0
  callers := fun _ => .idle
  calls := 0
  returned := []

variable (self : State ι)

def goto (i : ι) (pc : Pc) : State ι := { self with callers := update self.callers i pc }

/-- A call that ends, of `handle_packet` or of `connect_inbound`. -/
def giveBack (i : ι) (given : Option Given) : State ι :=
  { self.goto i .idle with returned := (given.map Given.call).toList ++ self.returned }

def modifyFlow (flow : Nat) (f : FlowTask → FlowTask) : State ι :=
  { self with flows := update self.flows flow ((self.flows flow).map f) }

/-- A send that finds room is done. One that finds the queue full waits for it. -/
def trySend (i : ι) (given : Given) (flow : Nat) : State ι :=
  match self.flows flow with
  | none => self
  | some task =>
    if task.closed then self.giveBack i given
    else if task.queue.length < config.perFlowQueueCapacity then
      (self.modifyFlow flow fun task => { task with queue := task.queue ++ [given] }).giveBack i
        given
    else self.goto i (.send given flow)

/-- One more shard is counted. After the last one the sum is compared with the limit. -/
def visit (i : ι) (job : Job) (shard sum : Nat) : State ι :=
  let sum := sum + self.table.count shard
  if shard + 1 < flowTableShards then self.goto i (.len job (shard + 1) sum)
  else if config.maxFlows ≤ sum then self.giveBack i job.given
  else self.goto i (.insert job)

/-- The locked section that enters a flow, and the spawn after it. -/
def enter (i : ι) (job : Job) : State ι :=
  if (self.table.get job.key).isSome then self.giveBack i job.given
  else
    { self with
      table := self.table.insert job.key self.next
      flows := update self.flows self.next
        (some ⟨job.key, job.given, .spawned, [], [], false⟩)
      next := self.next + 1 : State ι }.giveBack i job.given

/-- The next step of a caller. -/
def advance (i : ι) : State ι :=
  match self.callers i with
  | .idle => self
  | .lookup given =>
    match self.table.get (keyOf given.pkt) with
    | some flow => self.goto i (.trySend given flow)
    | none => if isSyn given.pkt then self.goto i (.len (.syn given) 0 0) else self.giveBack i given
  | .trySend given flow | .send given flow => self.trySend config i given flow
  | .len job shard sum => self.visit config i job shard sum
  | .insert job => self.enter i job

end State

/-! ## A flow's task -/

/-- `handle_tcp_flow` up to the policy: the first packet has to be a SYN, between addresses of one
version. -/
def FlowTask.first (self : FlowTask) (given : Given) : FlowTask :=
  if isSyn given.pkt && oneVersion self.key then { self with phase := .serving, routed := true }
  else { self with phase := .returned }

/-- The next step of a task, except for its return. -/
def FlowTask.run (config : TcpProxyConfig) (self : FlowTask) : FlowTask :=
  match self.phase with
  | .spawned => { self with phase := if self.syn.isSome then .started else .serving }
  | .started =>
    { self with
      phase := .waiting
      queue := if self.queue.length < config.perFlowQueueCapacity then
        self.queue ++ self.syn.toList else self.queue }
  | .waiting =>
    match self.queue with
    | [] => self
    | given :: queue =>
      { self with queue := queue, received := self.received ++ [given] }.first given
  | .serving =>
    match self.queue with
    | [] => self
    | given :: queue => { self with queue := queue, received := self.received ++ [given] }
  | .returned | .ended => self

/-- One step of a caller or of a flow's task. -/
inductive Op (ι : Type) where
  | handlePacket (i : ι) (pkt : TunTcpPacket)
  | connectInbound (i : ι) (src dst : SocketAddr) (allowed : Bool)
  | advance (i : ι)
  | run (flow : Nat)
  | finish (flow : Nat)
  | remove (flow : Nat)

namespace State

variable {ι : Type} [DecidableEq ι] (config : TcpProxyConfig) (self : State ι)

/-- A packet is given to a caller that has nothing else to do. -/
def handlePacket (i : ι) (pkt : TunTcpPacket) : State ι :=
  match self.callers i with
  | .idle => { self.goto i (.lookup ⟨self.calls, self.returned, pkt⟩) with calls := self.calls + 1 }
  | _ => self

def connectInbound (i : ι) (src dst : SocketAddr) (allowed : Bool) : State ι :=
  match self.callers i with
  | .idle => if allowed then self.goto i (.len (.inbound src dst) 0 0) else self
  | _ => self

/-- The end of a task that serves its flow, at any time. -/
def finish (flow : Nat) : State ι :=
  self.modifyFlow flow fun task => if task.phase = .serving then
    { task with phase := .returned } else task

/-- `flows.remove(&key)`, the last step of a task. -/
def remove (flow : Nat) : State ι :=
  match self.flows flow with
  | none => self
  | some task =>
    if task.phase = .returned then
      { self.modifyFlow flow fun task => { task with phase := .ended } with
        table := self.table.remove task.key }
    else self

def step : Op ι → State ι
  | .handlePacket i pkt => self.handlePacket i pkt
  | .connectInbound i src dst allowed => self.connectInbound i src dst allowed
  | .advance i => self.advance config i
  | .run flow => self.modifyFlow flow (FlowTask.run config)
  | .finish flow => self.finish flow
  | .remove flow => self.remove flow

end State

/-! ## Lookups and counts -/

theorem shardIndex_lt (key : TcpFlowKey) : shardIndex key < flowTableShards :=
  lt_of_le_of_lt and_le_right (lt_succ_self 63)

namespace FlowTable

variable {table : FlowTable} {key other : TcpFlowKey} {flow : Nat}

theorem get_insert : (table.insert key flow).get other = if other = key then
    some flow else table.get other := by
  rw [get, insert, get]
  by_cases hkey : other = key
  · rw [hkey, if_pos rfl, update_self, AList.lookup_insert]
  rw [if_neg hkey]
  by_cases hindex : shardIndex other = shardIndex key
  · rw [hindex, update_self, AList.lookup_insert_ne hkey]
  · rw [update_of_ne hindex]

theorem get_remove : (table.remove key).get other = if other = key then
    none else table.get other := by
  rw [get, remove, get]
  by_cases hkey : other = key
  · rw [hkey, if_pos rfl, update_self, AList.lookup_erase]
  rw [if_neg hkey]
  by_cases hindex : shardIndex other = shardIndex key
  · rw [hindex, update_self, AList.lookup_erase_ne hkey]
  · rw [update_of_ne hindex]

/-- A new key adds one entry to its shard. -/
theorem count_insert (h : table.get key = none) (shard : Nat) :
    (table.insert key flow).count shard = table.count shard + if shard = shardIndex key then
      1 else 0 := by
  rw [count, insert, count]
  by_cases hshard : shard = shardIndex key
  · rw [hshard, update_self, if_pos rfl, AList.entries_insert_of_notMem (AList.lookup_eq_none.mp h)]
    rfl
  · rw [update_of_ne hshard, if_neg hshard, add_zero]

theorem entries_insert (h : table.get key = none) :
    (table.insert key flow).entries = table.entries + 1 := by
  rw [entries, entries, sum_congr rfl fun shard _ => count_insert h shard, sum_add_distrib,
    sum_ite_eq' _ _ fun _ => 1, if_pos (mem_range.mpr (shardIndex_lt key))]

theorem count_remove (shard : Nat) : (table.remove key).count shard ≤ table.count shard := by
  rw [count, remove, count]
  by_cases hshard : shard = shardIndex key
  · rw [hshard, update_self]
    exact (List.kerase_sublist key (table (shardIndex key)).entries).length_le
  · rw [update_of_ne hshard]

theorem sum_remove (n : Nat) :
    ∑ shard ∈ range n, (table.remove key).count shard ≤ ∑ shard ∈ range n,
      table.count shard :=
  sum_le_sum fun shard _ => count_remove shard

end FlowTable

/-! ## One task for each key -/

section Runs

variable {ι : Type} {config : TcpProxyConfig} {s s' : State ι}

/-- The entries of the table are the tasks that have not removed theirs. -/
structure Owned (s : State ι) : Prop where
  own : ∀ key flow, s.table.get key = some flow ↔
    ∃ task, s.flows flow = some task ∧ task.key = key ∧ task.phase ≠ .ended
  fresh : ∀ flow, s.next ≤ flow → s.flows flow = none

theorem Owned.of_eq (h : Owned s) (htable : s'.table = s.table) (hflows : s'.flows = s.flows)
    (hnext : s'.next = s.next) :
    Owned s' := by
  refine ⟨fun key flow => ?_, fun flow => ?_⟩
  · rw [htable, hflows]
    exact h.own key flow
  · rw [hnext, hflows]
    exact h.fresh flow

/-- A change that leaves a task its key and its entry. -/
structure KeepsEntry (f : FlowTask → FlowTask) : Prop where
  key : ∀ task, (f task).key = task.key
  ended : ∀ task, (f task).phase = .ended ↔ task.phase = .ended

theorem Owned.modifyFlow (h : Owned s) {f : FlowTask → FlowTask} (hf : KeepsEntry f) (flow : Nat) :
    Owned (s.modifyFlow flow f) := by
  refine ⟨fun key other => ?_, fun other hother => ?_⟩
  · refine (h.own key other).trans ?_
    show _ ↔ ∃ task, update s.flows flow ((s.flows flow).map f) other = some task ∧ _
    by_cases hother : other = flow
    · subst hother
      cases s.flows other with
      | none => simp
      | some task => simp [hf.key, hf.ended]
    · rw [update_of_ne hother]
  · show update s.flows flow ((s.flows flow).map f) other = none
    by_cases hflow : other = flow
    · subst hflow
      rw [update_self, h.fresh other hother, map_none]
    · rw [update_of_ne hflow]
      exact h.fresh other hother

theorem keepsEntry_push (given : Given) :
    KeepsEntry fun task => { task with queue := task.queue ++ [given] } :=
  ⟨fun _ => rfl, fun _ => Iff.rfl⟩

theorem keepsEntry_finish : KeepsEntry fun task => if task.phase = .serving then { task with
      phase := .returned } else task := by
  refine ⟨fun task => ?_, fun task => ?_⟩
  · show FlowTask.key (if _ then _ else _) = _
    split <;> rfl
  show FlowTask.phase (if _ then _ else _) = _ ↔ _
  split
  · rename_i hserving
    simp [hserving]
  · exact Iff.rfl

theorem FlowTask.first_key (task : FlowTask) (given : Given) :
    (task.first given).key = task.key := by
  unfold FlowTask.first
  split <;> rfl

theorem FlowTask.first_phase (task : FlowTask) (given : Given) :
    (task.first given).phase = if isSyn given.pkt && oneVersion task.key then
      .serving else .returned := by
  unfold FlowTask.first
  split <;> rfl

theorem keepsEntry_run (config : TcpProxyConfig) : KeepsEntry (FlowTask.run config) := by
  refine ⟨fun task => ?_, fun task => ?_⟩
  · unfold FlowTask.run
    cases hphase : task.phase with
    | waiting =>
      cases task.queue with
      | nil => rfl
      | cons given queue => exact FlowTask.first_key _ _
    | serving => cases task.queue <;> rfl
    | _ => rfl
  unfold FlowTask.run
  cases hphase : task.phase with
  | spawned => cases task.syn <;> simp
  | started => simp
  | waiting =>
    cases task.queue with
    | nil => simp [hphase]
    | cons given queue =>
      simp only [FlowTask.first_phase]
      split <;> simp
  | serving => cases task.queue <;> simp [hphase]
  | returned => simp [hphase]
  | ended => simp [hphase]

theorem Owned.remove (h : Owned s) (flow : Nat) : Owned (s.remove flow) := by
  rw [State.remove]
  cases hflow : s.flows flow with
  | none => exact h
  | some task =>
  show Owned (if _ then _ else _)
  split
  · rename_i hphase
    have hentry : s.table.get task.key = some flow :=
      (h.own task.key flow).mpr ⟨task, hflow, rfl, fun h => by rw [hphase] at h; cases h⟩
    refine ⟨fun key other => ?_, fun other hother => ?_⟩
    · show (s.table.remove task.key).get key = some other ↔
        ∃ task', update s.flows flow ((s.flows flow).map _) other = some task' ∧ _
      rw [FlowTable.get_remove]
      by_cases hother : other = flow
      · subst hother
        rw [update_self, hflow]
        refine iff_of_false (fun hget => ?_) ?_
        · split at hget
          · cases hget
          rename_i hkey
          obtain ⟨task', htask', hkey', -⟩ := (h.own key other).mp hget
          rw [hflow] at htask'
          cases htask'
          exact hkey hkey'.symm
        rintro ⟨task', htask', -, hended⟩
        cases htask'
        exact hended rfl
      · rw [update_of_ne hother]
        refine Iff.trans ?_ (h.own key other)
        split
        · rename_i hkey
          refine iff_of_false (fun h => by cases h) fun hget => hother ?_
          rw [hkey, hentry] at hget
          exact (some.inj hget).symm
        · exact Iff.rfl
    · show update s.flows flow _ other = none
      rw [update_of_ne ?_]
      · exact h.fresh other hother
      rintro rfl
      rw [h.fresh other hother] at hflow
      cases hflow
  · exact h

theorem owned_new : Owned (State.new : State ι) := by
  refine ⟨fun key flow => iff_of_false (fun h => ?_) ?_, fun _ _ => rfl⟩
  · cases h
  · rintro ⟨task, htask, -⟩
    cases htask

variable [DecidableEq ι]

theorem Owned.trySend (h : Owned s) (i : ι) (given : Given) (flow : Nat) :
    Owned (s.trySend config i given flow) := by
  rw [State.trySend]
  cases s.flows flow with
  | none => exact h
  | some task =>
    show Owned (if _ then _ else _)
    split
    · exact h.of_eq rfl rfl rfl
    split
    · exact (h.modifyFlow (keepsEntry_push given) flow).of_eq rfl rfl rfl
    · exact h.of_eq rfl rfl rfl

theorem Owned.visit (h : Owned s) (i : ι) (job : Job) (shard sum : Nat) :
    Owned (s.visit config i job shard sum) := by
  show Owned (if _ then _ else _)
  split
  · exact h.of_eq rfl rfl rfl
  split
  · exact h.of_eq rfl rfl rfl
  · exact h.of_eq rfl rfl rfl

theorem Owned.enter (h : Owned s) (i : ι) (job : Job) : Owned (s.enter i job) := by
  rw [State.enter]
  split
  · exact h.of_eq rfl rfl rfl
  rename_i hnone
  have habsent : s.table.get job.key = none := not_isSome_iff_eq_none.mp hnone
  -- A task with this key would have an entry.
  have hother : ∀ flow task, s.flows flow = some task → task.phase ≠ .ended →
      task.key ≠ job.key := by
    intro flow task htask hphase hkey
    rw [← hkey, (h.own task.key flow).mpr ⟨task, htask, rfl, hphase⟩] at habsent
    cases habsent
  refine .of_eq (s := { s with
    table := s.table.insert job.key s.next
    flows := update s.flows s.next (some ⟨job.key, job.given, .spawned, [], [], false⟩)
    next := s.next + 1 : State ι }) ⟨fun key flow => ?_, fun flow hflow => ?_⟩ rfl rfl rfl
  · show (s.table.insert job.key s.next).get key = some flow ↔
      ∃ task, update s.flows s.next _ flow = some task ∧ _
    rw [FlowTable.get_insert]
    by_cases hflow : flow = s.next
    · subst hflow
      rw [update_self]
      constructor
      · intro hget
        split at hget
        · rename_i hkey
          exact ⟨_, rfl, hkey.symm, fun h => by cases h⟩
        obtain ⟨task, htask, -, -⟩ := (h.own key s.next).mp hget
        rw [h.fresh s.next (le_refl _)] at htask
        cases htask
      rintro ⟨task, htask, hkey, -⟩
      cases htask
      exact if_pos hkey.symm
    · rw [update_of_ne hflow]
      constructor
      · intro hget
        split at hget
        · exact absurd (some.inj hget).symm hflow
        · exact (h.own key flow).mp hget
      rintro ⟨task, htask, hkey, hphase⟩
      rw [if_neg (hkey ▸ hother flow task htask hphase)]
      exact (h.own key flow).mpr ⟨task, htask, hkey, hphase⟩
  · show update s.flows s.next _ flow = none
    have hflow : s.next + 1 ≤ flow := hflow
    rw [update_of_ne (by omega)]
    exact h.fresh flow (by omega)

theorem Owned.advance (h : Owned s) (i : ι) : Owned (s.advance config i) := by
  rw [State.advance]
  cases s.callers i with
  | idle => exact h
  | lookup given =>
    show Owned (match s.table.get (keyOf given.pkt) with | some _ => _ | none => _)
    cases s.table.get (keyOf given.pkt) with
    | some flow => exact h.of_eq rfl rfl rfl
    | none =>
      show Owned (if _ then _ else _)
      split <;> exact h.of_eq rfl rfl rfl
  | trySend => exact h.trySend i ..
  | send => exact h.trySend i ..
  | len => exact h.visit i ..
  | insert => exact h.enter i ..

theorem Owned.step (h : Owned s) (op : Op ι) : Owned (s.step config op) := by
  cases op with
  | handlePacket i pkt =>
    show Owned (.handlePacket s i pkt)
    rw [State.handlePacket]
    cases s.callers i with
    | idle => exact h.of_eq rfl rfl rfl
    | _ => exact h
  | connectInbound i src dst allowed =>
    show Owned (.connectInbound s i src dst allowed)
    rw [State.connectInbound]
    cases s.callers i with
    | idle =>
      show Owned (if _ then _ else _)
      split
      · exact h.of_eq rfl rfl rfl
      · exact h
    | _ => exact h
  | advance => exact h.advance ..
  | run => exact h.modifyFlow (keepsEntry_run config) ..
  | finish => exact h.modifyFlow keepsEntry_finish ..
  | remove => exact h.remove ..

end Runs

end QuicLite.Tun.Manager
