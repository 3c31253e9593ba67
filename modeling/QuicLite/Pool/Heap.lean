import QuicLite.Lib.Runs
import Mathlib.Data.List.Count

/-!
# The heap packet pool

A pool of packet slots whose buffers come from the heap. One owner resizes it; any number of tasks
acquire writers, commit them to leases, clone leases and drop either. The table is made of atomics,
so every atomic access is a step of its own here, and a run is any interleaving of such steps.

Program counters are named after the access they are about to make. The spin lock is a flag; it is
modelled with the agent that set it, which no access reads.
-/

namespace QuicLite

namespace HeapPool

/-- `WRITER`: the reference word of a slot that is being written, or that has no buffer. -/
def writerMark : Nat := 255

/-- `HEAP_PACKET_SLOT_OVERHEAD` -/
def heapPacketSlotOverhead : Nat := 32

inductive HeapPacketPoolError where
  | capacityTooLarge
  | allocationFailed
  deriving DecidableEq, Repr

/-- The constants of a pool type. Slots are kept as `u8` in writers and leases. -/
structure PoolSize where
  maxSlots : Nat
  mtu : Nat
  bound : maxSlots ≤ 255

/-! ## Program counters -/

/-- The two stores of `retire_locked`. -/
inductive RetireStage where
  | mark
  | swap
  deriving DecidableEq, Repr

/-- The two loops of `resize` that retire slots. -/
inductive RetireLoop where
  | sweep
  | reclaim
  deriving DecidableEq, Repr

/-- Arguments of `maintain_free`. -/
structure FreeRequest where
  targetFree : Nat
  deviceLimit : Nat
  availableBytes : Nat
  largestFreeBlock : Nat
  reserveBytes : Nat
  deriving DecidableEq, Repr

/-- Calls of the owner. -/
inductive Call where
  | resize (target : Nat)
  | resizeWithBudget (target availableBytes reserveBytes : Nat)
  | maintainFree (request : FreeRequest)
  deriving DecidableEq, Repr

/-- Slot and buffer of a `PendingSlot`. -/
abbrev PendingSlot := Nat × Nat

/-- Where the owner stands. `current` and `target` are the locals of `resize`. -/
inductive Owner where
  | idle
  | countLeases (slot count : Nat) (request : FreeRequest)
  | countWriters (slot count : Nat) (request : FreeRequest)
  | countWriterBuffer (slot count : Nat) (request : FreeRequest)
  | choose (count : Nat) (request : FreeRequest)
  | reserve (current target : Nat)
  | scan (current target slot : Nat) (pending : List PendingSlot)
  | allocate (current target slot : Nat) (pending : List PendingSlot)
  | abandon (current : Nat) (pending : List PendingSlot)
  | growLock (current target : Nat) (pending : List PendingSlot)
  | publish (current target : Nat) (pending : List PendingSlot)
  | publishBuffer (current target slot buffer : Nat) (pending : List PendingSlot)
  | publishReference (current target slot : Nat) (pending : List PendingSlot)
  | publishDrop (current target buffer : Nat) (pending : List PendingSlot)
  | shrinkLock (current target : Nat)
  | storeCapacity (current target : Nat)
  | sweep (current target slot : Nat)
  | reclaim (current target slot : Nat)
  | reclaimBuffer (current target slot : Nat)
  | retire (current target slot : Nat) (loop : RetireLoop) (stage : RetireStage)
  | unlock (current : Nat)
  | returned (current : Nat) (result : Except HeapPacketPoolError Unit)
  deriving DecidableEq

/-- Where a task stands. -/
inductive Task where
  | idle
  | acquireLock (reserved : Nat)
  | acquireCapacity (reserved : Nat)
  | count (reserved capacity slot available : Nat)
  | find (reserved capacity slot : Nat)
  | claim (reserved slot : Nat)
  | acquireUnlock
  | releaseCapacity (slot : Nat)
  | releaseLock (slot : Nat)
  | recheckCapacity (slot : Nat)
  | recheckReferences (slot : Nat)
  | retire (slot : Nat) (stage : RetireStage)
  | releaseUnlock
  deriving DecidableEq

/-- What a task begins. A writer whose `commit` does not fit is dropped, which is `dropWriter`. -/
inductive TaskOp where
  | acquireWriter (headroom reserved : Nat)
  | commit (slot : Nat)
  | dropWriter (slot : Nat)
  | clone (slot : Nat)
  | dropLease (slot : Nat)
  deriving DecidableEq, Repr

/-- The owner, or a task. -/
inductive Agent where
  | owner
  | task (id : Nat)
  deriving DecidableEq, Repr

/-! ## State -/

/-- The shared table, where everyone stands, and what lives outside the table: the writers and
leases of each slot, and the heap as the buffers handed out (all numbers below `nextBuffer`) and the
log of those freed. -/
structure State where
  lock : Option Agent
  capacity : Nat
  buffers : Nat → Option Nat
  references : Nat → Nat
  owner : Owner
  budget : Option (Nat × Nat)
  tasks : Nat → Task
  writers : Nat → Nat
  leases : Nat → Nat
  nextBuffer : Nat
  freed : List Nat
  resized : Nat

/-- `HeapPacketPool::new` -/
def new : State where
  lock := none
  capacity := 0
  buffers := fun _ => none
  references := fun _ => writerMark
  owner := .idle
  budget := none
  tasks := fun _ => .idle
  writers := fun _ => 0
  leases := fun _ => 0
  nextBuffer := 0
  freed := []
  resized := 0

namespace State

def setReference (s : State) (slot value : Nat) : State :=
  { s with references := Function.update s.references slot value }

/-- `references[slot].store(WRITER)` -/
def mark (s : State) (slot : Nat) : State := s.setReference slot writerMark

/-- `buffers[slot].swap(null)`; what comes out is private to the caller, which frees it. -/
def swapOut (s : State) (slot : Nat) : State :=
  { s with
    buffers := Function.update s.buffers slot none, freed := s.freed ++ (s.buffers slot).toList }

def setOwner (s : State) (owner : Owner) : State := { s with owner := owner }

def setTask (s : State) (id : Nat) (task : Task) : State :=
  { s with tasks := Function.update s.tasks id task }

/-! ## The owner -/

variable (size : PoolSize)

/-- Entry of `resize`. -/
def resize (s : State) (target : Nat) : State :=
  if size.maxSlots < target then s.setOwner (.returned s.capacity (.error .capacityTooLarge))
  else if s.capacity < target then s.setOwner (.reserve s.capacity target)
  else s.setOwner (.shrinkLock s.capacity target)

/-- Head of the loop of `resize_with_budget`. -/
def resizeNext (s : State) (next admitted : Nat) : State :=
  if admitted < next then { s with budget := none }.setOwner .idle
  else { s with budget := some (next + 1, admitted) }.resize size next

/-- `MTU.saturating_add(HEAP_PACKET_SLOT_OVERHEAD).max(1)` -/
def slotBytes : Nat := max (size.mtu + heapPacketSlotOverhead) 1

def resizeWithBudget (s : State) (target availableBytes reserveBytes : Nat) : State :=
  if size.maxSlots < target then s.setOwner (.returned s.capacity (.error .capacityTooLarge))
  else if target ≤ s.capacity then s.resize size target
  else
    let affordableGrowth := (availableBytes - reserveBytes) / slotBytes size
    let admitted := min target (s.capacity + affordableGrowth)
    s.resizeNext size (s.capacity + 1) admitted

/-- `maintain_free` after `in_use`. -/
def maintainFree (s : State) (inUse : Nat) (request : FreeRequest) : State :=
  let desired := min (inUse + request.targetFree) request.deviceLimit
  if desired ≤ s.capacity then s.resize size desired
  else if request.largestFreeBlock < slotBytes size then s.setOwner .idle
  else s.resizeWithBudget size desired request.availableBytes request.reserveBytes

def call (s : State) : Call → State
  | .resize target => s.resize size target
  | .resizeWithBudget target availableBytes reserveBytes =>
    s.resizeWithBudget size target availableBytes reserveBytes
  | .maintainFree request =>
    if size.maxSlots < request.deviceLimit then
      s.setOwner (.returned s.capacity (.error .capacityTooLarge))
    else s.setOwner (.countLeases 0 0 request)

/-- After a slot was looked at in a retiring loop. -/
def nextRetire (current target slot : Nat) : RetireLoop → Owner
  | .sweep => .sweep current target (slot + 1)
  | .reclaim => .reclaim current target (slot + 1)

/-- One access of the owner. `allocated` is the allocator's answer where one is asked for. -/
def ownerStep (s : State) (allocated : Bool) : State :=
  match s.owner with
  | .idle => s
  -- `in_use`: slots that hold leases, then slots that hold a writer
  | .countLeases slot count request =>
    if slot < size.maxSlots then
      let leased := s.references slot ≠ 0 ∧ s.references slot ≠ writerMark
      s.setOwner (.countLeases (slot + 1) (if leased then count + 1 else count) request)
    else s.setOwner (.countWriters 0 count request)
  | .countWriters slot count request =>
    if slot < size.maxSlots then
      if s.references slot = writerMark then s.setOwner (.countWriterBuffer slot count request)
      else s.setOwner (.countWriters (slot + 1) count request)
    else s.setOwner (.choose count request)
  | .countWriterBuffer slot count request =>
    s.setOwner (.countWriters (slot + 1) (if (s.buffers slot).isSome then count + 1 else count)
      request)
  | .choose count request => s.maintainFree size count request
  -- growth, before the guard
  | .reserve current target =>
    if allocated then s.setOwner (.scan current target current [])
    else s.setOwner (.returned current (.error .allocationFailed))
  | .scan current target slot pending =>
    if slot < target then
      if (s.buffers slot).isNone then s.setOwner (.allocate current target slot pending)
      else s.setOwner (.scan current target (slot + 1) pending)
    else s.setOwner (.growLock current target pending)
  | .allocate current target slot pending =>
    if allocated then
      { s with nextBuffer := s.nextBuffer + 1 }.setOwner
        (.scan current target (slot + 1) (pending ++ [(slot, s.nextBuffer)]))
    else s.setOwner (.abandon current pending)
  | .abandon current pending =>
    match pending with
    | [] => s.setOwner (.returned current (.error .allocationFailed))
    | (_, buffer) :: pending =>
      { s with freed := s.freed ++ [buffer] }.setOwner (.abandon current pending)
  | .growLock current target pending =>
    match s.lock with
    | some _ => s
    | none => { s with lock := some .owner }.setOwner (.publish current target pending)
  -- growth, under the guard
  | .publish current target pending =>
    match pending with
    | [] => s.setOwner (.storeCapacity current target)
    | (slot, buffer) :: pending =>
      if (s.buffers slot).isNone then s.setOwner (.publishBuffer current target slot buffer pending)
      else s.setOwner (.publishDrop current target buffer pending)
  | .publishBuffer current target slot buffer pending =>
    { s with buffers := Function.update s.buffers slot (some buffer) }.setOwner
      (.publishReference current target slot pending)
  | .publishReference current target slot pending =>
    (s.setReference slot 0).setOwner (.publish current target pending)
  | .publishDrop current target buffer pending =>
    { s with freed := s.freed ++ [buffer] }.setOwner (.publish current target pending)
  -- both directions
  | .shrinkLock current target =>
    match s.lock with
    | some _ => s
    | none => { s with lock := some .owner }.setOwner (.storeCapacity current target)
  | .storeCapacity current target =>
    { s with capacity := target }.setOwner
      (if current < target then .reclaim current target target else .sweep current target target)
  | .sweep current target slot =>
    if slot < current then
      if s.references slot = 0 then s.setOwner (.retire current target slot .sweep .mark)
      else s.setOwner (.sweep current target (slot + 1))
    else s.setOwner (.reclaim current target target)
  | .reclaim current target slot =>
    if slot < size.maxSlots then
      if s.references slot = 0 then s.setOwner (.reclaimBuffer current target slot)
      else s.setOwner (.reclaim current target (slot + 1))
    else s.setOwner (.unlock current)
  | .reclaimBuffer current target slot =>
    if (s.buffers slot).isSome then s.setOwner (.retire current target slot .reclaim .mark)
    else s.setOwner (.reclaim current target (slot + 1))
  | .retire current target slot loop .mark =>
    (s.mark slot).setOwner (.retire current target slot loop .swap)
  | .retire current target slot loop .swap =>
    (s.swapOut slot).setOwner (nextRetire current target slot loop)
  | .unlock current =>
    { s with lock := none, resized := s.resized + 1 }.setOwner (.returned current (.ok ()))
  | .returned _ result =>
    match s.budget, result with
    | some (next, admitted), .ok () => s.resizeNext size next admitted
    | _, _ => { s with budget := none }.setOwner .idle

/-! ## Tasks -/

/-- A task begins. Each of the calls on a writer or lease needs one; their first access is made
here. -/
def begin (s : State) (id : Nat) : TaskOp → State
  | .acquireWriter headroom reserved =>
    if size.mtu < headroom then s else s.setTask id (.acquireLock reserved)
  | .commit slot =>
    if s.writers slot = 0 then s
    else
      { s.setReference slot 1 with
        writers := Function.update s.writers slot (s.writers slot - 1)
        leases := Function.update s.leases slot (s.leases slot + 1) }
  | .dropWriter slot =>
    if s.writers slot = 0 then s
    else
      { s.setReference slot 0 with
        writers := Function.update s.writers slot (s.writers slot - 1) }.setTask id
          (.releaseCapacity slot)
  | .clone slot =>
    if s.leases slot = 0 then s
    else
      let previous := s.references slot
      let added := s.setReference slot ((previous + 1) % 256)
      -- the assertion fails after the addition: there is no new lease then
      if previous ≠ 0 ∧ previous < writerMark - 1 then
        { added with leases := Function.update s.leases slot (s.leases slot + 1) }
      else added
  | .dropLease slot =>
    if s.leases slot = 0 then s
    else
      let previous := s.references slot
      let dropped :=
        { s.setReference slot ((previous + 255) % 256) with
          leases := Function.update s.leases slot (s.leases slot - 1) }
      if previous = 1 then dropped.setTask id (.releaseCapacity slot) else dropped

/-- One access of a task inside a call. -/
def taskStep (s : State) (id : Nat) : State :=
  match s.tasks id with
  | .idle => s
  -- `acquire_writer_reserving`
  | .acquireLock reserved =>
    match s.lock with
    | some _ => s.setTask id .idle
    | none => { s with lock := some (.task id) }.setTask id (.acquireCapacity reserved)
  | .acquireCapacity reserved => s.setTask id (.count reserved s.capacity 0 0)
  | .count reserved capacity slot available =>
    if slot < capacity then
      s.setTask id (.count reserved capacity (slot + 1)
        (if s.references slot = 0 then available + 1 else available))
    else if available ≤ reserved then s.setTask id .acquireUnlock
    else s.setTask id (.find reserved capacity 0)
  | .find reserved capacity slot =>
    if slot < capacity then
      if s.references slot = 0 then s.setTask id (.claim reserved slot)
      else s.setTask id (.find reserved capacity (slot + 1))
    else s.setTask id .acquireUnlock
  | .claim _ slot =>
    { s.mark slot with writers := Function.update s.writers slot (s.writers slot + 1) }.setTask id
      .acquireUnlock
  | .acquireUnlock => { s with lock := none }.setTask id .idle
  -- `final_release`
  | .releaseCapacity slot =>
    if slot < s.capacity then s.setTask id .idle else s.setTask id (.releaseLock slot)
  | .releaseLock slot =>
    match s.lock with
    | some _ => s.setTask id .idle
    | none => { s with lock := some (.task id) }.setTask id (.recheckCapacity slot)
  | .recheckCapacity slot =>
    if s.capacity ≤ slot then s.setTask id (.recheckReferences slot)
    else s.setTask id .releaseUnlock
  | .recheckReferences slot =>
    if s.references slot = 0 then s.setTask id (.retire slot .mark) else s.setTask id .releaseUnlock
  | .retire slot .mark => (s.mark slot).setTask id (.retire slot .swap)
  | .retire slot .swap => (s.swapOut slot).setTask id .releaseUnlock
  | .releaseUnlock => { s with lock := none }.setTask id .idle

end State

/-! ## Runs -/

/-- Who takes the next step. -/
inductive Action where
  | call (call : Call)
  | owner (allocated : Bool)
  | begin (id : Nat) (op : TaskOp)
  | task (id : Nat)
  deriving DecidableEq, Repr

/-- A call or a task begins only where none is in progress; out of turn nothing happens. -/
def step (size : PoolSize) (s : State) : Action → State
  | .call c =>
    match s.owner with
    | .idle => s.call size c
    | _ => s
  | .owner allocated => s.ownerStep size allocated
  | .begin id op =>
    match s.tasks id with
    | .idle => s.begin size id op
    | _ => s
  | .task id => s.taskStep id

/-- No operation is in progress. -/
def Quiescent (s : State) : Prop := s.owner = .idle ∧ ∀ id, s.tasks id = .idle

end HeapPool

end QuicLite
