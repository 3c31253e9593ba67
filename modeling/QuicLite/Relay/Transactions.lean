import QuicLite.Relay.Setup
import QuicLite.Lib.Runs
import Mathlib.Data.List.Nodup
import Mathlib.Data.List.Perm.Basic

/-!
# Setup transactions

A relay may see the same request again while it waits for the reply, or after it has sent one. The
table of transactions answers such retries: it holds one entry for a previous hop and transaction
id, from the request that was admitted until some time after the reply or the deadline. Admission
reserves the space for the reply; three counters keep what is reserved, pending and cached. They are
decremented with plain subtraction, so here they are integers, and `TableInv` says that they never
go below zero.

`Life` is what an entry is for: a transaction is pending, then completed by one reply or ended
without. The table follows it, `step_follows`, and answers by it.
-/

namespace QuicLite

open List Option Nat

structure SetupRelayState where
  forwardCid : ConnectionId
  reverseCid : ConnectionId
  reverseTarget : ConnectionId
  leaseDurationUs : Nat
  packetQuota : Nat
  deriving DecidableEq

inductive SetupTransactionLookup where
  | new
  | pendingRetry
  | expired
  | replay (reply : Bytes)
  | conflict
  | full
  | invalid
  deriving DecidableEq

inductive SetupTransactionError where
  | missing
  | expired
  | replyTooLarge
  | conflict

inductive SetupDownstreamReply (Hop : Type) where
  | replay (previousHop : Hop) (reply : Bytes)
  | new (previousHop : Hop) (relayState : SetupRelayState)

structure SetupTransaction (Hop : Type) where
  previousHop : Hop
  transactionId : Nat
  request : Bytes
  reply : Bytes
  downstreamReply : Bytes
  downstreamHop : Option Hop
  relayState : Option SetupRelayState
  replyReady : Bool
  expired : Bool
  pendingDeadlineUs : Nat
  cacheExpiryUs : Nat
  reservedReplyBytes : Nat

structure SetupTransactionTable (Hop : Type) where
  entries : List (SetupTransaction Hop)
  maxPending : Nat
  maxCachedReplies : Nat
  maxRequestBytes : Nat
  maxReplyBytes : Nat
  maxReservedReplyBytes : Nat
  reservedReplyBytes : Nat
  pendingCount : Int
  cachedCount : Int
  retentionUs : Nat

namespace SetupTransactionTable

variable {Hop : Type}

def new (maxPending maxCachedReplies maxRequestBytes maxReplyBytes maxReservedReplyBytes
    retentionUs : Nat) : SetupTransactionTable Hop :=
  ⟨[], maxPending, maxCachedReplies, maxRequestBytes, maxReplyBytes, maxReservedReplyBytes, 0, 0, 0,
    retentionUs⟩

/-! ## Lookup -/

variable (self : SetupTransactionTable Hop)

/-- The first entry that matches, with its position. -/
def lookup (p : SetupTransaction Hop → Bool) : Option (Nat × SetupTransaction Hop) :=
  match self.entries.findIdx? p with
  | none => none
  | some index => self.entries[index]?.map fun entry => (index, entry)

def isFrom [DecidableEq Hop] (previousHop : Hop) (transactionId : Nat)
    (entry : SetupTransaction Hop) : Bool :=
  entry.previousHop = previousHop && entry.transactionId = transactionId

def isSentTo [DecidableEq Hop] (downstreamHop : Hop) (transactionId : Nat)
    (entry : SetupTransaction Hop) : Bool :=
  entry.downstreamHop = some downstreamHop && entry.transactionId = transactionId

/-! ## Expiry -/

def remove (index : Nat) : SetupTransactionTable Hop :=
  match self.entries[index]? with
  | none => self
  | some entry =>
    { self with
      entries := self.entries.eraseIdx index
      cachedCount := if entry.replyReady then self.cachedCount - 1 else self.cachedCount
      pendingCount := if !entry.replyReady && !entry.expired then
        self.pendingCount - 1 else self.pendingCount
      reservedReplyBytes := self.reservedReplyBytes - entry.reservedReplyBytes }

def markExpired (index : Nat) : SetupTransactionTable Hop :=
  match self.entries[index]? with
  | none => self
  | some entry =>
    if entry.replyReady || entry.expired then self
    else
      { self with
        entries := self.entries.set index { entry with
          expired := true
          cacheExpiryUs := satAdd entry.pendingDeadlineUs self.retentionUs
          reply := []
          reservedReplyBytes := 0 }
        pendingCount := self.pendingCount - 1
        reservedReplyBytes := self.reservedReplyBytes - entry.reservedReplyBytes }

/-- The deadline of a pending entry has passed. -/
def isOverdue (nowUs : Nat) (entry : SetupTransaction Hop) : Bool :=
  !entry.replyReady && !entry.expired && entry.pendingDeadlineUs ≤ nowUs

/-- An entry that is no longer kept for retries. -/
def isStale (nowUs : Nat) (entry : SetupTransaction Hop) : Bool :=
  (entry.replyReady || entry.expired) && entry.cacheExpiryUs ≤ nowUs

/-- The loop over the entries. A turn moves on or removes an entry, so there are as many turns as
entries. -/
def expireLoop (nowUs : Nat) :
    Nat → SetupTransactionTable Hop → Nat → Nat → SetupTransactionTable Hop × Nat
  | 0, self, _, removed => (self, removed)
  | fuel + 1, self, index, removed =>
    match self.entries[index]? with
    | none => (self, removed)
    | some entry =>
      let marked := if isOverdue nowUs entry then self.markExpired index else self
      let removed := if isOverdue nowUs entry then removed + 1 else removed
      if marked.entries[index]?.any (isStale nowUs) then
        expireLoop nowUs fuel (marked.remove index) index (if isOverdue nowUs entry then
          removed else removed + 1)
      else expireLoop nowUs fuel marked (index + 1) removed

variable (self : SetupTransactionTable Hop)

def expire (nowUs : Nat) : SetupTransactionTable Hop × Nat :=
  expireLoop nowUs self.entries.length self 0 0

/-! ## The operations

`reserved` is whether the allocator could reserve what is needed. -/

/-- Arguments that `begin` takes. -/
def Admissible (transactionId : Nat) (request : Bytes)
    (replyCapacity nowUs pendingDeadlineUs : Nat) : Prop :=
  transactionId ≠ 0 ∧ request ≠ [] ∧ request.length ≤ self.maxRequestBytes ∧ replyCapacity ≠ 0 ∧
    replyCapacity ≤ self.maxReplyBytes ∧ nowUs < pendingDeadlineUs

instance (self : SetupTransactionTable Hop) (transactionId : Nat) (request : Bytes)
    (replyCapacity nowUs pendingDeadlineUs : Nat) :
    Decidable (self.Admissible transactionId request replyCapacity nowUs pendingDeadlineUs) :=
  inferInstanceAs (Decidable (_ ∧ _ ∧ _ ∧ _ ∧ _ ∧ _))

def answer (entry : SetupTransaction Hop) (request : Bytes) : SetupTransactionLookup :=
  if entry.request ≠ request then .conflict
  else if entry.expired then .expired
  else if entry.replyReady then .replay entry.reply
  else .pendingRetry

def begin [DecidableEq Hop] (self : SetupTransactionTable Hop) (previousHop : Hop)
    (transactionId : Nat) (request : Bytes) (replyCapacity nowUs pendingDeadlineUs : Nat)
    (reserved : Bool) : SetupTransactionTable Hop × SetupTransactionLookup :=
  let self := (self.expire nowUs).1
  if ¬ self.Admissible transactionId request replyCapacity nowUs pendingDeadlineUs then
    (self, .invalid)
  else
    match self.lookup (isFrom previousHop transactionId) with
    | some (_, entry) => (self, answer entry request)
    | none =>
      let reservedReplyBytes := self.reservedReplyBytes + replyCapacity
      if usizeBound ≤ reservedReplyBytes then (self, .full)
      else if self.maxPending ≤ self.pendingCount ∨ self.maxCachedReplies ≤ self.entries.length ∨
          self.maxReservedReplyBytes < reservedReplyBytes then (self, .full)
      else if !reserved then (self, .full)
      else
        ({ self with
            entries := self.entries ++
              [⟨previousHop, transactionId, request, [], [], none, none, false, false,
              pendingDeadlineUs, 0, replyCapacity⟩]
            pendingCount := self.pendingCount + 1
            reservedReplyBytes := reservedReplyBytes }, .new)

def complete [DecidableEq Hop] (self : SetupTransactionTable Hop) (previousHop : Hop)
    (transactionId : Nat) (reply : Bytes) (nowUs : Nat) :
    SetupTransactionTable Hop × Except SetupTransactionError Unit :=
  match self.lookup (isFrom previousHop transactionId) with
  | none => (self, .error .missing)
  | some (index, entry) =>
    if entry.expired ∨ entry.pendingDeadlineUs ≤ nowUs then (self, .error .expired)
    else if entry.replyReady then (self, .error .missing)
    else if reply = [] ∨ entry.reservedReplyBytes < reply.length then (self, .error .replyTooLarge)
    else
      ({ self with
          entries := self.entries.set index { entry with
            reply := entry.reply ++ reply
            replyReady := true
            cacheExpiryUs := satAdd nowUs self.retentionUs }
          pendingCount := self.pendingCount - 1
          cachedCount := self.cachedCount + 1 }, .ok ())

def setDownstreamHop [DecidableEq Hop] (self : SetupTransactionTable Hop) (previousHop : Hop)
    (transactionId : Nat) (downstreamHop : Hop) :
    SetupTransactionTable Hop × Except SetupTransactionError Unit :=
  match self.lookup (isFrom previousHop transactionId) with
  | none => (self, .error .missing)
  | some (index, entry) =>
    if entry.expired ∨ entry.replyReady then (self, .error .expired)
    else if entry.downstreamHop.any (· ≠ downstreamHop) then (self, .error .conflict)
    else ({ self with
      entries := self.entries.set index { entry with downstreamHop := some downstreamHop } },
      .ok ())

def setRelayState [DecidableEq Hop] (self : SetupTransactionTable Hop) (previousHop : Hop)
    (transactionId : Nat) (relayState : SetupRelayState) :
    SetupTransactionTable Hop × Except SetupTransactionError Unit :=
  match self.lookup (isFrom previousHop transactionId) with
  | none => (self, .error .missing)
  | some (index, entry) =>
    if entry.expired ∨ entry.replyReady then (self, .error .expired)
    else if entry.relayState.any (· ≠ relayState) then (self, .error .conflict)
    else ({ self with
      entries := self.entries.set index { entry with relayState := some relayState } }, .ok ())

/-- What `validate_downstream_reply` reports of an entry that holds the reply. -/
def downstreamReport (entry : SetupTransaction Hop) :
    Except SetupTransactionError (SetupDownstreamReply Hop) :=
  match entry.relayState with
  | none => .error .missing
  | some relayState => .ok (.new entry.previousHop relayState)

def validateDownstreamReply [DecidableEq Hop] (self : SetupTransactionTable Hop)
    (downstreamHop : Hop) (transactionId : Nat) (circuit : SetupCircuitKey) (reply : Bytes)
    (reserved : Bool) :
    SetupTransactionTable Hop × Except SetupTransactionError (SetupDownstreamReply Hop) :=
  match self.lookup (isSentTo downstreamHop transactionId) with
  | none => (self, .error .missing)
  | some (index, entry) =>
    if entry.expired then (self, .error .expired)
    else
      match decodeSetupReplyPacket reply with
      | .error _ => (self, .error .conflict)
      | .ok decoded =>
        if decoded.transactionId ≠ transactionId ∨ decoded.circuit ≠ circuit then
          (self, .error .conflict)
        else if entry.downstreamReply ≠ [] then
          if entry.downstreamReply ≠ reply then (self, .error .conflict)
          else if entry.replyReady then (self, .ok (.replay entry.previousHop entry.reply))
          else (self, downstreamReport entry)
        else if reply = [] ∨ self.maxReplyBytes < reply.length then (self, .error .replyTooLarge)
        else if !reserved then (self, .error .replyTooLarge)
        else
          ({ self with entries := self.entries.set index { entry with downstreamReply := reply } },
            downstreamReport entry)

def completeFromDownstream [DecidableEq Hop] (self : SetupTransactionTable Hop)
    (downstreamHop : Hop) (transactionId : Nat) (reply : Bytes) (nowUs : Nat) :
    SetupTransactionTable Hop × Except SetupTransactionError Hop :=
  match self.lookup (isSentTo downstreamHop transactionId) with
  | none => (self, .error .missing)
  | some (_, entry) =>
    match self.complete entry.previousHop transactionId reply nowUs with
    | (self, .error e) => (self, .error e)
    | (self, .ok ()) => (self, .ok entry.previousHop)

def cancel [DecidableEq Hop] (self : SetupTransactionTable Hop) (previousHop : Hop)
    (transactionId : Nat) : SetupTransactionTable Hop × Bool :=
  match self.lookup (isFrom previousHop transactionId) with
  | none => (self, false)
  | some (index, _) => (self.markExpired index, true)

end SetupTransactionTable

/-! ## The invariant -/

namespace SetupTransaction

variable {Hop : Type}

def key (entry : SetupTransaction Hop) : Hop × Nat := (entry.previousHop, entry.transactionId)

def isPending (entry : SetupTransaction Hop) : Bool := !entry.replyReady && !entry.expired

/-- Only a completed transaction has a reply, and one that ended without keeps no space for it. -/
structure WellFormed (entry : SetupTransaction Hop) : Prop where
  reply : entry.replyReady = false → entry.reply = []
  expired : entry.expired = true → entry.replyReady = false ∧ entry.reservedReplyBytes = 0

end SetupTransaction

open SetupTransaction

namespace SetupTransactionTable

variable {Hop : Type} {entry : SetupTransaction Hop}
variable {l : List (SetupTransaction Hop)} {p : SetupTransaction Hop → Bool}

/-- One entry apart from the others, and another in its place. -/
theorem entries_perm {index : Nat} (h : l[index]? = some entry) :
    l.Perm (entry :: l.eraseIdx index) ∧ ∀ other,
      (l.set index other).Perm (other :: l.eraseIdx index) := by
  obtain ⟨hindex, rfl⟩ := List.getElem?_eq_some_iff.mp h
  exact ⟨(List.getElem_cons_eraseIdx_perm hindex).symm, fun other =>
    List.set_perm_cons_eraseIdx hindex other⟩

/-- Exact counters within their caps, over entries with different keys. -/
structure TableInv (table : SetupTransactionTable Hop) : Prop where
  unique : (table.entries.map (·.key)).Nodup
  pending : table.pendingCount = (table.entries.countP (·.isPending) : Nat)
  cached : table.cachedCount = (table.entries.countP (·.replyReady) : Nat)
  reserved : table.reservedReplyBytes = (table.entries.map (·.reservedReplyBytes)).sum
  pendingCap : table.pendingCount ≤ table.maxPending
  entriesCap : table.entries.length ≤ table.maxCachedReplies
  reservedCap : table.reservedReplyBytes ≤ table.maxReservedReplyBytes
  wellFormed : ∀ entry ∈ table.entries, entry.WellFormed

/-- The configured part of the table. -/
def SamePolicy (self after : SetupTransactionTable Hop) : Prop :=
  after.maxPending = self.maxPending ∧ after.maxCachedReplies = self.maxCachedReplies ∧
    after.maxRequestBytes = self.maxRequestBytes ∧ after.maxReplyBytes = self.maxReplyBytes ∧
    after.maxReservedReplyBytes = self.maxReservedReplyBytes ∧ after.retentionUs = self.retentionUs

section Accounts

variable {self after : SetupTransactionTable Hop} {entry old : SetupTransaction Hop}
    {rest : List (SetupTransaction Hop)}

theorem countP_toNat (p : SetupTransaction Hop → Bool) (entry : SetupTransaction Hop)
    (rest : List (SetupTransaction Hop)) :
    (entry :: rest).countP p = rest.countP p + (p entry).toNat := by
  rw [countP_cons]
  cases p entry <;> rfl

section

variable (h : self.TableInv)
include h

theorem TableInv.drop (hperm : self.entries.Perm (entry :: rest)) :
    entry.key ∉ rest.map (·.key) ∧ entry.WellFormed ∧ TableInv { self with
        entries := rest
        pendingCount := self.pendingCount - entry.isPending.toNat
        cachedCount := self.cachedCount - entry.replyReady.toNat
        reservedReplyBytes := self.reservedReplyBytes - entry.reservedReplyBytes } := by
  obtain ⟨hfresh, hunique⟩ := nodup_cons.mp ((hperm.map (·.key)).nodup_iff.mp h.unique)
  have hpending := h.pending
  have hcached := h.cached
  have hreserved := h.reserved
  have hlength := hperm.length_eq ▸ h.entriesCap
  have hcap := h.pendingCap
  rw [hperm.countP_eq, countP_toNat] at hpending hcached
  rw [(hperm.map _).sum_nat, map_cons, sum_cons] at hreserved
  refine ⟨hfresh, h.wellFormed entry (hperm.mem_iff.mpr mem_cons_self), hunique, ?_, ?_, ?_, ?_,
    le_of_succ_le hlength, (sub_le _ _).trans h.reservedCap, fun other hother =>
    h.wellFormed other (hperm.mem_iff.mpr (mem_cons_of_mem _ hother))⟩
  · dsimp only
    omega
  · dsimp only
    omega
  · dsimp only
    omega
  · dsimp only
    omega

/-- The table with one more entry, for which there is room. -/
theorem TableInv.admit (hperm : after.entries.Perm (entry :: self.entries))
    (hfresh : entry.key ∉ self.entries.map (·.key)) (hwell : entry.WellFormed)
    (hpending : after.pendingCount = self.pendingCount + entry.isPending.toNat)
    (hcached : after.cachedCount = self.cachedCount + entry.replyReady.toNat)
    (hreserved : after.reservedReplyBytes = self.reservedReplyBytes + entry.reservedReplyBytes)
    (hpendingCap : after.pendingCount ≤ after.maxPending)
    (hentriesCap : after.entries.length ≤ after.maxCachedReplies)
    (hreservedCap : after.reservedReplyBytes ≤ after.maxReservedReplyBytes) : after.TableInv where
  unique := (hperm.map (·.key)).nodup_iff.mpr (nodup_cons.mpr ⟨hfresh, h.unique⟩)
  pending := by rw [hpending, h.pending, hperm.countP_eq, countP_toNat, cast_add]
  cached := by rw [hcached, h.cached, hperm.countP_eq, countP_toNat, cast_add]
  reserved := by rw [hreserved, h.reserved, (hperm.map _).sum_nat, map_cons, sum_cons, add_comm]
  pendingCap := hpendingCap
  entriesCap := hentriesCap
  reservedCap := hreservedCap
  wellFormed other hother := by
    rcases mem_cons.mp (hperm.mem_iff.mp hother) with rfl | hother
    · exact hwell
    · exact h.wellFormed other hother

/-- Replacing one entry by one of the same key, which must not need more than the old one. -/
theorem TableInv.set {index : Nat} (hold : self.entries[index]? = some old)
    (hpolicy : self.SamePolicy after) (hentries : after.entries = self.entries.set index entry)
    (hkey : entry.key = old.key) (hwell : entry.WellFormed)
    (hpending : after.pendingCount = self.pendingCount - old.isPending.toNat +
      entry.isPending.toNat) (hcached : after.cachedCount =
        self.cachedCount - old.replyReady.toNat + entry.replyReady.toNat)
    (hreserved : after.reservedReplyBytes =
      self.reservedReplyBytes - (old.reservedReplyBytes - entry.reservedReplyBytes))
    (hless : entry.isPending = true → old.isPending = true)
    (hspace : entry.reservedReplyBytes ≤ old.reservedReplyBytes) :
    after.TableInv := by
  obtain ⟨hperm, hset⟩ := entries_perm hold
  obtain ⟨hfresh, -, hrest⟩ := h.drop hperm
  have hcap := h.pendingCap
  have hlength := h.entriesCap
  have hreservedCap := h.reservedCap
  have hsum := h.reserved
  rw [(hperm.map _).sum_nat, map_cons, sum_cons] at hsum
  have htoNat := Bool.toNat_le_toNat hless
  refine hrest.admit (hentries ▸ hset entry) (hkey ▸ hfresh) hwell hpending hcached ?_ ?_ ?_ ?_
  · dsimp only
    omega
  · rw [hpolicy.1]
    omega
  · rw [hpolicy.2.1, hentries, length_set]
    exact hlength
  · rw [hpolicy.2.2.2.2.1]
    omega

theorem markExpired_inv (index : Nat) : (self.markExpired index).TableInv := by
  unfold markExpired
  split
  · exact h
  rename_i entry hentry
  split
  · exact h
  rename_i hpending
  rw [Bool.not_eq_true, Bool.or_eq_false_iff] at hpending
  refine h.set hentry ⟨rfl, rfl, rfl, rfl, rfl, rfl⟩ rfl rfl ⟨fun _ => rfl, fun _ =>
    ⟨hpending.1, rfl⟩⟩ ?_ ?_ rfl ?_ ?_
  · simp [isPending, hpending]
  · simp
  · simp [isPending]
  · simp

theorem remove_inv (index : Nat) : (self.remove index).TableInv := by
  unfold remove
  split
  · exact h
  rename_i entry hentry
  have hdrop := (h.drop (entries_perm hentry).1).2.2
  cases hready : entry.replyReady <;> cases hexpired : entry.expired <;>
    simpa [isPending, hready, hexpired] using hdrop

end

end Accounts

/-! ## Expiry, entry by entry -/

theorem split_at {index : Nat} (h : l[index]? = some entry) :
    ∃ before rest, l = before ++ entry :: rest ∧ before.length = index ∧ ∀ other,
      l.set index other = before ++ other :: rest := by
  obtain ⟨hindex, hget⟩ := List.getElem?_eq_some_iff.mp h
  refine ⟨l.take index, l.drop (index + 1), ?_, List.length_take_of_le hindex.le, fun other => ?_⟩
  · rw [← hget, ← List.drop_eq_getElem_cons hindex, List.take_append_drop]
  · rw [set_eq_take_append_cons_drop, if_pos hindex]

variable (nowUs : Nat)

theorem expireLoop_inv {fuel : Nat} {self : SetupTransactionTable Hop} (h : self.TableInv)
    (index removed : Nat) :
    (expireLoop nowUs fuel self index removed).1.TableInv := by
  induction fuel generalizing self index removed with
  | zero => exact h
  | succ fuel ih =>
    unfold expireLoop
    split
    · exact h
    rename_i entry hentry
    extract_lets marked count
    have hmarked : marked.TableInv := by
      unfold marked
      split
      · exact markExpired_inv h index
      · exact h
    split
    · exact ih (remove_inv hmarked index) _ _
    · exact ih hmarked _ _

theorem expire_inv {self : SetupTransactionTable Hop} (h : self.TableInv) (nowUs : Nat) :
    (self.expire nowUs).1.TableInv :=
  expireLoop_inv nowUs h 0 0

/-- The entry, once its deadline has passed or it is cancelled. -/
def ended (retentionUs : Nat) (entry : SetupTransaction Hop) : SetupTransaction Hop :=
  { entry with
    expired := true
    cacheExpiryUs := satAdd entry.pendingDeadlineUs retentionUs
    reply := []
    reservedReplyBytes := 0 }

/-- What one turn of the loop leaves of an entry. -/
def expireEntry (retentionUs nowUs : Nat) (entry : SetupTransaction Hop) :
    Option (SetupTransaction Hop) :=
  let marked := if isOverdue nowUs entry then ended retentionUs entry else entry
  if isStale nowUs marked then none else some marked

theorem markExpired_entries {self : SetupTransactionTable Hop} {index : Nat}
    (hentry : self.entries[index]? = some entry) : (self.markExpired index).entries =
      if entry.isPending then self.entries.set index (ended self.retentionUs entry)
        else self.entries := by
  have hpending : entry.isPending = !(entry.replyReady || entry.expired) := by
    rw [isPending, Bool.not_or]
  unfold markExpired
  rw [hentry, hpending]
  simp only
  split
  · rename_i hnot
    rw [hnot]
    rfl
  rename_i hnot
  rw [Bool.not_eq_true] at hnot
  rw [hnot]
  rfl

variable (self : SetupTransactionTable Hop)

theorem markExpired_policy (index : Nat) : self.SamePolicy (self.markExpired index) := by
  unfold markExpired
  split
  · exact ⟨rfl, rfl, rfl, rfl, rfl, rfl⟩
  split
  · exact ⟨rfl, rfl, rfl, rfl, rfl, rfl⟩
  · exact ⟨rfl, rfl, rfl, rfl, rfl, rfl⟩

theorem remove_policy (index : Nat) : self.SamePolicy (self.remove index) := by
  unfold remove
  split
  · exact ⟨rfl, rfl, rfl, rfl, rfl, rfl⟩
  · exact ⟨rfl, rfl, rfl, rfl, rfl, rfl⟩

theorem SamePolicy.trans {self between after : SetupTransactionTable Hop}
    (h₁ : self.SamePolicy between) (h₂ : between.SamePolicy after) : self.SamePolicy after := by
  obtain ⟨a₁, a₂, a₃, a₄, a₅, a₆⟩ := h₁
  obtain ⟨b₁, b₂, b₃, b₄, b₅, b₆⟩ := h₂
  exact ⟨b₁.trans a₁, b₂.trans a₂, b₃.trans a₃, b₄.trans a₄, b₅.trans a₅, b₆.trans a₆⟩

theorem isPending_of_isOverdue {nowUs : Nat} (h : isOverdue nowUs entry = true) :
    entry.isPending = true := by
  rw [isOverdue, Bool.and_eq_true] at h
  exact h.1

/-- The loop visits every entry from `index` on. -/
theorem expireLoop_entries {fuel : Nat} {self : SetupTransactionTable Hop} {index removed : Nat}
    (hfuel : self.entries.length ≤ index + fuel) :
    (expireLoop nowUs fuel self index removed).1.entries =
        self.entries.take index ++
          (self.entries.drop index).filterMap (expireEntry self.retentionUs nowUs) ∧
      self.SamePolicy (expireLoop nowUs fuel self index removed).1 := by
  induction fuel generalizing self index removed with
  | zero =>
    rw [add_zero] at hfuel
    refine ⟨?_, rfl, rfl, rfl, rfl, rfl, rfl⟩
    rw [take_of_length_le hfuel, drop_of_length_le hfuel]
    simp [expireLoop]
  | succ fuel ih =>
    unfold expireLoop
    split
    · rename_i hnone
      have hle : self.entries.length ≤ index := getElem?_eq_none_iff.mp hnone
      refine ⟨?_, rfl, rfl, rfl, rfl, rfl, rfl⟩
      rw [take_of_length_le hle, drop_of_length_le hle]
      simp
    rename_i entry hentry
    extract_lets marked count
    obtain ⟨before, rest, hself, hlength, hset⟩ := split_at hentry
    obtain ⟨turned, hturned⟩ : ∃ turned, turned = if isOverdue nowUs entry then
        ended self.retentionUs entry else entry :=
      ⟨_, rfl⟩
    have hpolicy : self.SamePolicy marked := by
      unfold marked
      split
      · exact markExpired_policy self index
      · exact ⟨rfl, rfl, rfl, rfl, rfl, rfl⟩
    have hmarked : marked.entries = before ++ turned :: rest := by
      unfold marked
      split
      · rename_i hoverdue
        rw [markExpired_entries hentry, if_pos (isPending_of_isOverdue hoverdue), hset, hturned,
          if_pos hoverdue]
      rename_i hoverdue
      rw [hturned, if_neg hoverdue]
      exact hself
    have hget : marked.entries[index]? = some turned := by
      rw [hmarked, ← hlength]
      simp
    have hretention : marked.retentionUs = self.retentionUs := hpolicy.2.2.2.2.2
    have hspec : expireEntry self.retentionUs nowUs entry = if isStale nowUs turned then
        none else some turned := by
      rw [expireEntry, ← hturned]
    have htake : self.entries.take index = before := by rw [hself, take_left' hlength]
    have hdrop : self.entries.drop index = entry :: rest := by rw [hself, drop_left' hlength]
    have hcount : self.entries.length = index + 1 + rest.length := by
      rw [hself, length_append, length_cons]
      omega
    rw [htake, hdrop, filterMap_cons, hspec]
    split
    · rename_i hstale
      rw [hget, any_some] at hstale
      have hremoved : (marked.remove index).entries = before ++ rest := by
        unfold remove
        rw [← hlength]
        simp [hmarked, eraseIdx_append_of_length_le]
      obtain ⟨hentries, hsame⟩ := @ih (marked.remove index) index
        (if isOverdue nowUs entry then count else count + 1)
        (by rw [hremoved, length_append]; omega)
      refine ⟨?_, (hpolicy.trans (remove_policy marked index)).trans hsame⟩
      rw [hentries, hremoved, take_left' hlength, drop_left' hlength,
        (remove_policy marked index).2.2.2.2.2, hretention, if_pos hstale]
    · rename_i hstale
      rw [hget, any_some] at hstale
      obtain ⟨hentries, hsame⟩ := @ih marked (index + 1) count
        (by rw [hmarked, length_append, length_cons]; omega)
      refine ⟨?_, hpolicy.trans hsame⟩
      have hsplit : marked.entries = (before ++ [turned]) ++ rest := by
        rw [hmarked, append_assoc]; rfl
      have hlength' : (before ++ [turned]).length = index + 1 := by rw [length_append, hlength]; rfl
      rw [hentries, hsplit, take_left' hlength', drop_left' hlength', hretention, if_neg hstale,
        append_assoc]
      rfl

theorem expire_entries : (self.expire nowUs).1.entries =
      self.entries.filterMap (expireEntry self.retentionUs nowUs) := by
  have h := (@expireLoop_entries _ nowUs self.entries.length self 0 0 (by omega)).1
  rw [expire, h]
  simp

theorem expire_policy : self.SamePolicy (self.expire nowUs).1 :=
  (@expireLoop_entries _ nowUs self.entries.length self 0 0 (by omega)).2

/-! ## The operations keep the invariant -/

theorem lookup_eq_some {self : SetupTransactionTable Hop} {index : Nat}
    (h : self.lookup p = some (index, entry)) :
    self.entries[index]? = some entry ∧ p entry = true := by
  unfold lookup at h
  split at h
  · cases h
  rename_i position hposition
  obtain ⟨hlt, hp, -⟩ := findIdx?_eq_some_iff_getElem.mp hposition
  rw [getElem?_eq_getElem hlt, map_some, some.injEq] at h
  obtain ⟨rfl, rfl⟩ := h
  exact ⟨getElem?_eq_getElem hlt, hp⟩

theorem lookup_eq_none {self : SetupTransactionTable Hop} (h : self.lookup p = none) :
    ∀ entry ∈ self.entries, p entry = false := by
  unfold lookup at h
  split at h
  · rename_i hnone
    simpa using findIdx?_eq_none_iff.mp hnone
  rename_i position hposition
  obtain ⟨hlt, -⟩ := findIdx?_eq_some_iff_getElem.mp hposition
  rw [getElem?_eq_getElem hlt] at h
  cases h

/-- All that an operation did to the table is to note in one entry what nothing is accounted by. -/
def Notes (self after : SetupTransactionTable Hop) : Prop :=
  after = self ∨ ∃ index entry downstreamReply downstreamHop relayState,
    self.entries[index]? = some entry ∧
    after = { self with
      entries := self.entries.set index { entry with
        downstreamReply := downstreamReply, downstreamHop := downstreamHop,
          relayState := relayState } }

theorem Notes.inv {self after : SetupTransactionTable Hop} (hnotes : self.Notes after)
    (h : self.TableInv) : after.TableInv := by
  rcases hnotes with rfl | ⟨index, entry, _, _, _, hentry, rfl⟩
  · exact h
  have hwell := h.wellFormed entry (mem_of_getElem? hentry)
  refine h.set hentry ⟨rfl, rfl, rfl, rfl, rfl, rfl⟩ rfl rfl ⟨hwell.reply, hwell.expired⟩ ?_ ?_ ?_
    id (le_refl _)
  · exact (sub_add_cancel _ _).symm
  · exact (sub_add_cancel _ _).symm
  · rw [Nat.sub_self, Nat.sub_zero]

section Operations

variable [DecidableEq Hop] {self : SetupTransactionTable Hop} {previousHop downstreamHop : Hop}
    {transactionId : Nat} {request reply : Bytes} {replyCapacity nowUs pendingDeadlineUs : Nat}
    {reserved : Bool}

theorem isFrom_iff {entry : SetupTransaction Hop} :
    isFrom previousHop transactionId entry = true ↔ entry.key = (previousHop, transactionId) := by
  simp [isFrom, key]

/-- The entry that `begin` adds. -/
def admitted (previousHop : Hop) (transactionId : Nat) (request : Bytes)
    (replyCapacity pendingDeadlineUs : Nat) : SetupTransaction Hop :=
  ⟨previousHop, transactionId, request, [], [], none, none, false, false, pendingDeadlineUs, 0,
    replyCapacity⟩

/-- After its lazy expiry `begin` does nothing more, or there is room for a new entry and it adds
one. -/
theorem begin_cases (self : SetupTransactionTable Hop) (previousHop : Hop) (transactionId : Nat)
    (request : Bytes) (replyCapacity nowUs pendingDeadlineUs : Nat) (reserved : Bool) :
    (∃ result, result ≠ .new ∧
      self.begin previousHop transactionId request replyCapacity nowUs pendingDeadlineUs reserved =
        ((self.expire nowUs).1, result)) ∨
      ∃ table, table = (self.expire nowUs).1 ∧
        table.lookup (isFrom previousHop transactionId) = none ∧
        table.pendingCount < table.maxPending ∧ table.entries.length < table.maxCachedReplies ∧
        table.reservedReplyBytes + replyCapacity ≤ table.maxReservedReplyBytes ∧
        self.begin previousHop transactionId request replyCapacity nowUs pendingDeadlineUs
          reserved = ({ table with
          entries := table.entries ++
            [admitted previousHop transactionId request replyCapacity pendingDeadlineUs]
          pendingCount := table.pendingCount + 1
          reservedReplyBytes := table.reservedReplyBytes + replyCapacity }, .new) := by
  unfold begin
  extract_lets table reservedReplyBytes
  split
  · exact .inl ⟨_, by simp, rfl⟩
  split
  · refine .inl ⟨_, ?_, rfl⟩
    unfold answer
    split_ifs <;> simp
  rename_i hlookup
  split
  · exact .inl ⟨_, by simp, rfl⟩
  split
  · exact .inl ⟨_, by simp, rfl⟩
  rename_i hroom
  simp only [not_or, not_le, not_lt] at hroom
  split
  · exact .inl ⟨_, by simp, rfl⟩
  · exact .inr ⟨table, rfl, hlookup, hroom.1, hroom.2.1, hroom.2.2, rfl⟩

theorem begin_inv (h : self.TableInv) :
    (self.begin previousHop transactionId request replyCapacity nowUs pendingDeadlineUs
      reserved).1.TableInv := by
  have hexpire := expire_inv h nowUs
  rcases self.begin_cases previousHop transactionId request replyCapacity nowUs pendingDeadlineUs
    reserved with
    ⟨result, -, heq⟩ | ⟨table, rfl, hlookup, hpending, hentries, hreserved, heq⟩
  · rwa [heq]
  rw [heq]
  refine hexpire.admit (perm_append_singleton _ _) ?_ ⟨fun _ => rfl, by simp [admitted]⟩ rfl ?_ rfl
    ?_ ?_ hreserved
  · intro hmem
    obtain ⟨entry, hentry, hkey⟩ := mem_map.mp hmem
    have hnot := lookup_eq_none hlookup entry hentry
    have hfrom : isFrom previousHop transactionId entry = true := isFrom_iff.mpr hkey
    rw [hfrom] at hnot
    cases hnot
  · exact (add_zero _).symm
  · exact Int.add_one_le_of_lt hpending
  · rw [length_append]
    exact hentries

theorem complete_inv (h : self.TableInv) :
    (self.complete previousHop transactionId reply nowUs).1.TableInv := by
  unfold complete
  split
  · exact h
  rename_i index entry hlookup
  obtain ⟨hentry, -⟩ := lookup_eq_some hlookup
  split
  · exact h
  rename_i hexpired
  rw [not_or] at hexpired
  split
  · exact h
  rename_i hready
  split
  · exact h
  refine h.set hentry ⟨rfl, rfl, rfl, rfl, rfl, rfl⟩ rfl rfl ⟨by simp, by simp [hexpired.1]⟩ ?_ ?_
    ?_ ?_ ?_
  · simp [isPending, hready, hexpired.1]
  · simp [hready]
  · simp
  · simp [isPending]
  · simp

theorem setDownstreamHop_notes :
    self.Notes (self.setDownstreamHop previousHop transactionId downstreamHop).1 := by
  unfold setDownstreamHop
  split
  · exact .inl rfl
  rename_i index entry hlookup
  split
  · exact .inl rfl
  split
  · exact .inl rfl
  · exact .inr ⟨index, entry, _, _, _, (lookup_eq_some hlookup).1, rfl⟩

theorem setRelayState_notes {relayState : SetupRelayState} :
    self.Notes (self.setRelayState previousHop transactionId relayState).1 := by
  unfold setRelayState
  split
  · exact .inl rfl
  rename_i index entry hlookup
  split
  · exact .inl rfl
  split
  · exact .inl rfl
  · exact .inr ⟨index, entry, _, _, _, (lookup_eq_some hlookup).1, rfl⟩

theorem validateDownstreamReply_notes {circuit : SetupCircuitKey} :
    self.Notes (self.validateDownstreamReply downstreamHop transactionId circuit reply
      reserved).1 := by
  unfold validateDownstreamReply
  split
  · exact .inl rfl
  rename_i index entry hlookup
  split
  · exact .inl rfl
  split
  · exact .inl rfl
  split
  · exact .inl rfl
  split
  · split
    · exact .inl rfl
    split
    · exact .inl rfl
    · exact .inl rfl
  split
  · exact .inl rfl
  split
  · exact .inl rfl
  · exact .inr ⟨index, entry, _, _, _, (lookup_eq_some hlookup).1, rfl⟩

/-- Completion from downstream is completion for the hop that asked. -/
theorem completeFromDownstream_eq (self : SetupTransactionTable Hop) (downstreamHop : Hop)
    (transactionId : Nat) (reply : Bytes) (nowUs : Nat) :
    (self.completeFromDownstream downstreamHop transactionId reply nowUs).1 = self ∧
        (∀ hop, (self.completeFromDownstream downstreamHop transactionId reply nowUs).2 ≠ .ok hop) ∨
      ∃ previousHop, (self.completeFromDownstream downstreamHop transactionId reply nowUs).1 =
          (self.complete previousHop transactionId reply nowUs).1 ∧
        (self.completeFromDownstream downstreamHop transactionId reply nowUs).2 =
          (self.complete previousHop transactionId reply nowUs).2.map fun _ => previousHop := by
  unfold completeFromDownstream
  split
  · exact .inl ⟨rfl, by simp⟩
  rename_i index entry hlookup
  refine .inr ⟨entry.previousHop, ?_⟩
  split
  · rename_i heq
    rw [heq]
    exact ⟨rfl, rfl⟩
  rename_i heq
  rw [heq]
  exact ⟨rfl, rfl⟩

theorem completeFromDownstream_inv (h : self.TableInv) :
    (self.completeFromDownstream downstreamHop transactionId reply nowUs).1.TableInv := by
  rcases self.completeFromDownstream_eq downstreamHop transactionId reply nowUs with ⟨heq, -⟩ |
    ⟨previousHop, heq, -⟩
  · rwa [heq]
  · rw [heq]
    exact complete_inv h

theorem cancel_inv (h : self.TableInv) : (self.cancel previousHop transactionId).1.TableInv := by
  unfold cancel
  split
  · exact h
  · exact markExpired_inv h _

end Operations

end SetupTransactionTable

/-! ## Runs -/

inductive SetupOp (Hop : Type) where
  | begin (previousHop : Hop) (transactionId : Nat) (request : Bytes)
      (replyCapacity nowUs pendingDeadlineUs : Nat) (reserved : Bool)
  | complete (previousHop : Hop) (transactionId : Nat) (reply : Bytes) (nowUs : Nat)
  | setDownstreamHop (previousHop : Hop) (transactionId : Nat) (downstreamHop : Hop)
  | setRelayState (previousHop : Hop) (transactionId : Nat) (relayState : SetupRelayState)
  | validateDownstreamReply (downstreamHop : Hop) (transactionId : Nat) (circuit : SetupCircuitKey)
      (reply : Bytes) (reserved : Bool)
  | completeFromDownstream (downstreamHop : Hop) (transactionId : Nat) (reply : Bytes) (nowUs : Nat)
  | cancel (previousHop : Hop) (transactionId : Nat)
  | expire (nowUs : Nat)

inductive SetupOutcome (Hop : Type) where
  | lookup (result : SetupTransactionLookup)
  | done (result : Except SetupTransactionError Unit)
  | validated (result : Except SetupTransactionError (SetupDownstreamReply Hop))
  | completed (result : Except SetupTransactionError Hop)
  | cancelled (found : Bool)
  | removed (count : Nat)

namespace SetupTransactionTable

variable {Hop : Type} [DecidableEq Hop]

def step (self : SetupTransactionTable Hop) :
    SetupOp Hop → SetupTransactionTable Hop × SetupOutcome Hop
  | .begin previousHop transactionId request replyCapacity nowUs pendingDeadlineUs reserved =>
    let result := self.begin previousHop transactionId request replyCapacity nowUs pendingDeadlineUs
      reserved
    (result.1, .lookup result.2)
  | .complete previousHop transactionId reply nowUs =>
    let result := self.complete previousHop transactionId reply nowUs
    (result.1, .done result.2)
  | .setDownstreamHop previousHop transactionId downstreamHop =>
    let result := self.setDownstreamHop previousHop transactionId downstreamHop
    (result.1, .done result.2)
  | .setRelayState previousHop transactionId relayState =>
    let result := self.setRelayState previousHop transactionId relayState
    (result.1, .done result.2)
  | .validateDownstreamReply downstreamHop transactionId circuit reply reserved =>
    let result := self.validateDownstreamReply downstreamHop transactionId circuit reply reserved
    (result.1, .validated result.2)
  | .completeFromDownstream downstreamHop transactionId reply nowUs =>
    let result := self.completeFromDownstream downstreamHop transactionId reply nowUs
    (result.1, .completed result.2)
  | .cancel previousHop transactionId =>
    let result := self.cancel previousHop transactionId
    (result.1, .cancelled result.2)
  | .expire nowUs =>
    let result := self.expire nowUs
    (result.1, .removed result.2)

/-- The table after an operation, and what a caller could have written down about it. -/
def next (self : SetupTransactionTable Hop) (op : SetupOp Hop) : SetupTransactionTable Hop :=
  (self.step op).1

def record (self : SetupTransactionTable Hop) (op : SetupOp Hop) :
    List (SetupOp Hop × SetupOutcome Hop) :=
  [(op, (self.step op).2)]

theorem next_inv {self : SetupTransactionTable Hop} (op : SetupOp Hop) (h : self.TableInv) :
    (self.next op).TableInv := by
  cases op with
  | begin => exact begin_inv h
  | complete => exact complete_inv h
  | setDownstreamHop => exact setDownstreamHop_notes.inv h
  | setRelayState => exact setRelayState_notes.inv h
  | validateDownstreamReply => exact validateDownstreamReply_notes.inv h
  | completeFromDownstream => exact completeFromDownstream_inv h
  | cancel => exact cancel_inv h
  | expire => exact expire_inv h ..

theorem exec_inv {self : SetupTransactionTable Hop} (h : self.TableInv) (ops : List (SetupOp Hop)) :
    (Runs.exec next self ops).TableInv :=
  Runs.invariant (fun self op (h : self.TableInv) => next_inv op h) h ops

omit [DecidableEq Hop] in
theorem new_inv (maxPending maxCachedReplies maxRequestBytes maxReplyBytes maxReservedReplyBytes
    retentionUs : Nat) :
    (new maxPending maxCachedReplies maxRequestBytes maxReplyBytes maxReservedReplyBytes
      retentionUs : SetupTransactionTable Hop).TableInv where
  unique := nodup_nil
  pending := rfl
  cached := rfl
  reserved := rfl
  pendingCap := Int.natCast_nonneg _
  entriesCap := zero_le _
  reservedCap := zero_le _
  wellFormed := by simp [new]

end SetupTransactionTable

/-! ## What an entry is for -/

/-- The life of a transaction, as its callers see it. -/
inductive Life where
  | pending
  | completed (reply : Bytes)
  | ended

namespace Life

/-- The answer that a retry gets. -/
def answer : Life → SetupTransactionLookup
  | .pending => .pendingRetry
  | .completed reply => .replay reply
  | .ended => .expired

/-- Time passes. -/
def expire (deadlineUs nowUs : Nat) : Life → Life
  | .pending => if deadlineUs ≤ nowUs then .ended else .pending
  | life => life

def complete (reply : Bytes) : Life → Life
  | .pending => .completed reply
  | life => life

def cancel : Life → Life
  | .pending => .ended
  | life => life

/-- A successful completion for this key completes it, a cancellation ends it while it is pending,
and so does the time that operations with a clock tell. -/
def follow {Hop : Type} [DecidableEq Hop] (key : Hop × Nat) (deadlineUs : Nat) (life : Life) :
    SetupOp Hop × SetupOutcome Hop → Life
  | (.complete previousHop transactionId reply _, .done (.ok ())) =>
    if key = (previousHop, transactionId) then life.complete reply else life
  | (.completeFromDownstream _ transactionId reply _, .completed (.ok previousHop)) =>
    if key = (previousHop, transactionId) then life.complete reply else life
  | (.cancel previousHop transactionId, _) => if key = (previousHop, transactionId) then
      life.cancel else life
  | (.begin _ _ _ _ nowUs _ _, _) => life.expire deadlineUs nowUs
  | (.expire nowUs, _) => life.expire deadlineUs nowUs
  | _ => life

end Life

def SetupTransaction.life {Hop : Type} (entry : SetupTransaction Hop) : Life :=
  if entry.expired then .ended else if entry.replyReady then .completed entry.reply else .pending

namespace SetupTransactionTable

variable {Hop : Type} {nowUs deadlineUs transactionId : Nat} {request : Bytes}
    {entry : SetupTransaction Hop}
variable {key : Hop × Nat} {life : Life} {previousHop : Hop}
variable {replyCapacity pendingDeadlineUs : Nat} {reserved : Bool}

/-- The entry of this key, with what it remembers of the request that was admitted. -/
def Tracks (self : SetupTransactionTable Hop) (key : Hop × Nat) (request : Bytes) (deadlineUs : Nat)
    (life : Life) : Prop :=
  ∃ entry ∈ self.entries, entry.key = key ∧ entry.request = request ∧
    entry.pendingDeadlineUs = deadlineUs ∧
    entry.life = life

def HasEntry (self : SetupTransactionTable Hop) (key : Hop × Nat) : Prop :=
  ∃ entry ∈ self.entries, entry.key = key

instance [DecidableEq Hop] (self : SetupTransactionTable Hop) (key : Hop × Nat) :
    Decidable (self.HasEntry key) :=
  inferInstanceAs (Decidable (∃ entry ∈ self.entries, entry.key = key))

theorem TableInv.eq_of_key {self : SetupTransactionTable Hop} (h : self.TableInv)
    {a b : SetupTransaction Hop} (ha : a ∈ self.entries) (hb : b ∈ self.entries)
    (hkey : a.key = b.key) : a = b :=
  inj_on_of_nodup_map h.unique ha hb hkey

theorem Tracks.set {self after : SetupTransactionTable Hop} (h : self.TableInv) {life' : Life}
    (ht : self.Tracks key request deadlineUs life) {index : Nat} {old : SetupTransaction Hop}
    (hold : self.entries[index]? = some old)
    (hentries : after.entries = self.entries.set index entry) (hkey : entry.key = old.key)
    (hrequest : entry.request = old.request)
    (hdeadline : entry.pendingDeadlineUs = old.pendingDeadlineUs)
    (hsame : old.key = key → old.life = life → entry.life = life')
    (hother : old.key ≠ key → life = life') :
    after.Tracks key request deadlineUs life' := by
  obtain ⟨tracked, hmem, htrackedKey, htrackedRequest, htrackedDeadline, htrackedLife⟩ := ht
  obtain ⟨hperm, hset⟩ := entries_perm hold
  have hafter : after.entries.Perm (entry :: self.entries.eraseIdx index) := hentries ▸ hset entry
  rcases mem_cons.mp (hperm.mem_iff.mp hmem) with rfl | hrest
  · exact ⟨entry, hafter.mem_iff.mpr mem_cons_self, hkey.trans htrackedKey,
      hrequest.trans htrackedRequest, hdeadline.trans htrackedDeadline,
      hsame htrackedKey htrackedLife⟩
  have hother' : old.key ≠ key := by
    rintro rfl
    exact (h.drop hperm).1 (htrackedKey ▸ mem_map_of_mem hrest)
  exact ⟨tracked, hafter.mem_iff.mpr (mem_cons_of_mem _ hrest), htrackedKey, htrackedRequest,
    htrackedDeadline, htrackedLife.trans (hother hother')⟩

theorem Notes.tracks {self after : SetupTransactionTable Hop} (hnotes : self.Notes after)
    (h : self.TableInv) (ht : self.Tracks key request deadlineUs life) :
    after.Tracks key request deadlineUs life := by
  rcases hnotes with rfl | ⟨index, entry, _, _, _, hentry, rfl⟩
  · exact ht
  · exact ht.set h hentry rfl rfl rfl rfl (fun _ hlife => hlife) fun _ => rfl

theorem expireEntry_eq_some {retentionUs : Nat} {kept : SetupTransaction Hop}
    (h : expireEntry retentionUs nowUs entry = some kept) :
    kept.key = entry.key ∧ kept.request = entry.request ∧
      kept.pendingDeadlineUs = entry.pendingDeadlineUs ∧
      kept.life = entry.life.expire entry.pendingDeadlineUs nowUs := by
  obtain ⟨turned, hturned⟩ : ∃ turned, turned = if isOverdue nowUs entry then
      ended retentionUs entry else entry :=
    ⟨_, rfl⟩
  rw [expireEntry, ← hturned] at h
  split at h
  · cases h
  rw [some.injEq] at h
  subst h
  cases hoverdue : isOverdue nowUs entry with
  | true =>
    rw [hoverdue] at hturned
    subst hturned
    refine ⟨rfl, rfl, rfl, ?_⟩
    simp only [isOverdue, Bool.and_eq_true, Bool.not_eq_true', decide_eq_true_eq] at hoverdue
    obtain ⟨⟨hready, hexpired⟩, hdeadline⟩ := hoverdue
    simp [life, ended, hready, hexpired, Life.expire, hdeadline]
  | false =>
    rw [hoverdue] at hturned
    subst hturned
    refine ⟨rfl, rfl, rfl, ?_⟩
    unfold life
    split
    · rfl
    split
    · rfl
    rename_i hexpired hready
    simp only [isOverdue, hexpired, hready, Bool.not_false, Bool.true_and,
      decide_eq_false_iff_not] at hoverdue
    rw [Life.expire, if_neg hoverdue]

theorem Tracks.expire {self : SetupTransactionTable Hop} (h : self.TableInv)
    (ht : self.Tracks key request deadlineUs life) (hkept : (self.expire nowUs).1.HasEntry key) :
    (self.expire nowUs).1.Tracks key request deadlineUs (life.expire deadlineUs nowUs) := by
  obtain ⟨tracked, hmem, htrackedKey, hrequest, hdeadline, hlife⟩ := ht
  obtain ⟨kept, hkept, hkey⟩ := hkept
  have hspec := hkept
  rw [expire_entries] at hspec
  obtain ⟨source, hsource, hexpire⟩ := mem_filterMap.mp hspec
  obtain ⟨hkeptKey, hkeptRequest, hkeptDeadline, hkeptLife⟩ := expireEntry_eq_some hexpire
  obtain rfl : source = tracked :=
    h.eq_of_key hsource hmem ((hkeptKey.symm.trans hkey).trans htrackedKey.symm)
  refine ⟨kept, hkept, hkey, hkeptRequest.trans hrequest, hkeptDeadline.trans hdeadline, ?_⟩
  rw [hkeptLife, hlife, hdeadline]

section Follow

variable [DecidableEq Hop] {self : SetupTransactionTable Hop}

theorem begin_mem (h : entry ∈ (self.expire nowUs).1.entries) :
    entry ∈ (self.begin previousHop transactionId request replyCapacity nowUs pendingDeadlineUs
      reserved).1.entries := by
  rcases self.begin_cases previousHop transactionId request replyCapacity nowUs pendingDeadlineUs
    reserved with
    ⟨result, -, heq⟩ | ⟨table, rfl, -, -, -, -, heq⟩
  · rwa [heq]
  · rw [heq]
    exact mem_append_left _ h

variable {key : Hop × Nat} {request : Bytes} {deadlineUs : Nat} {life : Life}

section

variable (h : self.TableInv) (ht : self.Tracks key request deadlineUs life)
include h ht

theorem Tracks.complete (previousHop : Hop) (transactionId : Nat) (reply : Bytes) (nowUs : Nat) :
    (self.complete previousHop transactionId reply nowUs).1.Tracks key request deadlineUs
      (life.follow key deadlineUs (.complete previousHop transactionId reply nowUs,
        .done (self.complete previousHop transactionId reply nowUs).2)) := by
  unfold SetupTransactionTable.complete
  split
  · exact ht
  rename_i index entry hlookup
  obtain ⟨hentry, hfrom⟩ := lookup_eq_some hlookup
  split
  · exact ht
  rename_i hexpired
  rw [not_or] at hexpired
  split
  · exact ht
  rename_i hready
  rw [Bool.not_eq_true] at hready
  split
  · exact ht
  have hkey := isFrom_iff.mp hfrom
  have hreply := (h.wellFormed entry (mem_of_getElem? hentry)).reply hready
  refine ht.set h hentry rfl rfl rfl rfl ?_ ?_
  · rintro hsame rfl
    simp [Life.follow, ← hsame, hkey, life, hexpired.1, hready,
      Life.complete, hreply]
  intro hne
  rw [hkey] at hne
  simp [Life.follow, Ne.symm hne]

theorem Tracks.completeFromDownstream (downstreamHop : Hop) (transactionId : Nat) (reply : Bytes)
    (nowUs : Nat) :
    (self.completeFromDownstream downstreamHop transactionId reply nowUs).1.Tracks key request
      deadlineUs
      (life.follow key deadlineUs (.completeFromDownstream downstreamHop transactionId reply nowUs,
        .completed (self.completeFromDownstream downstreamHop transactionId reply nowUs).2)) := by
  rcases self.completeFromDownstream_eq downstreamHop transactionId reply nowUs with ⟨heq, hfails⟩ |
    ⟨previousHop, heq, hresult⟩
  · rw [heq]
    cases hout : (self.completeFromDownstream downstreamHop transactionId reply nowUs).2 with
    | error e => exact ht
    | ok hop => exact absurd hout (hfails hop)
  have hcomplete := ht.complete h previousHop transactionId reply nowUs
  rw [heq, hresult]
  cases hout : (self.complete previousHop transactionId reply nowUs).2 with
  | error e =>
    rw [hout] at hcomplete
    exact hcomplete
  | ok done =>
    rw [hout] at hcomplete
    exact hcomplete

theorem Tracks.cancel (previousHop : Hop) (transactionId : Nat) :
    (self.cancel previousHop transactionId).1.Tracks key request deadlineUs
      (if key = (previousHop, transactionId) then life.cancel else life) := by
  unfold SetupTransactionTable.cancel
  split
  · rename_i hlookup
    obtain ⟨tracked, hmem, hkey, hrest⟩ := ht
    have hnot := lookup_eq_none hlookup tracked hmem
    rw [if_neg]
    · exact ⟨tracked, hmem, hkey, hrest⟩
    intro heq
    rw [isFrom_iff.mpr (hkey.trans heq)] at hnot
    cases hnot
  rename_i index entry hlookup
  obtain ⟨hentry, hfrom⟩ := lookup_eq_some hlookup
  have hkey := isFrom_iff.mp hfrom
  have hentries := markExpired_entries hentry
  cases hpending : entry.isPending with
  | true =>
    rw [hpending] at hentries
    refine ht.set h hentry hentries rfl rfl rfl ?_ ?_
    · rintro hsame rfl
      rw [isPending, Bool.and_eq_true, Bool.not_eq_true',
        Bool.not_eq_true'] at hpending
      rw [if_pos (hsame.symm.trans hkey)]
      simp [life, ended, hpending.1, hpending.2, Life.cancel]
    · intro hne
      rw [if_neg (fun heq => hne (hkey.trans heq.symm))]
  | false =>
    rw [hpending] at hentries
    obtain ⟨tracked, hmem, htrackedKey, hrequest, hdeadline, hlife⟩ := ht
    refine ⟨tracked, hentries ▸ hmem, htrackedKey, hrequest, hdeadline, ?_⟩
    split
    · rename_i heq
      -- A transaction that is not pending keeps its life.
      obtain rfl : tracked = entry :=
        h.eq_of_key hmem (mem_of_getElem? hentry) ((htrackedKey.trans heq).trans hkey.symm)
      rw [← hlife]
      simp only [SetupTransaction.isPending, Bool.and_eq_false_iff, Bool.not_eq_false'] at hpending
      unfold SetupTransaction.life
      rcases hpending with hready | hexpired
      · split
        · rfl
        · rfl
      · rw [if_pos hexpired]
        rfl
    · exact hlife

end

end Follow

/-! ## Retries -/

/-- The clock that an operation tells. -/
def clockUs : SetupOp Hop → Option Nat
  | .begin _ _ _ _ nowUs _ _ => some nowUs
  | .expire nowUs => some nowUs
  | _ => none

/-- The operation does not remove the entry, not even to admit another of the same key. -/
def Survives (key : Hop × Nat) (self : SetupTransactionTable Hop) (op : SetupOp Hop) : Prop :=
  ∀ nowUs, clockUs op = some nowUs → (self.expire nowUs).1.HasEntry key

section Retries

variable [DecidableEq Hop] {self : SetupTransactionTable Hop} {key : Hop × Nat} {request : Bytes}
    {deadlineUs : Nat} {life : Life}

/-- One operation: the entry follows the life of its transaction. -/
theorem step_follows (h : self.TableInv) (ht : self.Tracks key request deadlineUs life)
    (op : SetupOp Hop) (hsurvives : Survives key self op) :
    (self.next op).Tracks key request deadlineUs
      (life.follow key deadlineUs (op, (self.step op).2)) := by
  cases op with
  | begin previousHop transactionId request' replyCapacity nowUs pendingDeadlineUs reserved =>
    obtain ⟨entry, hentry, hrest⟩ := ht.expire h (hsurvives nowUs rfl)
    exact ⟨entry, begin_mem hentry, hrest⟩
  | complete => exact ht.complete h ..
  | setDownstreamHop => exact setDownstreamHop_notes.tracks h ht
  | setRelayState => exact setRelayState_notes.tracks h ht
  | validateDownstreamReply => exact validateDownstreamReply_notes.tracks h ht
  | completeFromDownstream => exact ht.completeFromDownstream h ..
  | cancel => exact ht.cancel h ..
  | expire nowUs => exact ht.expire h (hsurvives nowUs rfl)

/-- A whole run: the entry follows what the operations and their outcomes say. -/
theorem run_follows (h : self.TableInv) (ht : self.Tracks key request deadlineUs life)
    {ops : List (SetupOp Hop)} (hsurvives : Runs.Along next (Survives key) self ops) :
    (Runs.exec next self ops).Tracks key request deadlineUs
      ((Runs.trace next record self ops).foldl (Life.follow key deadlineUs) life) := by
  induction ops generalizing self life with
  | nil => exact ht
  | cons op ops ih => exact ih (next_inv op h) (step_follows h ht op hsurvives.1) hsurvives.2

omit [DecidableEq Hop] in
theorem answer_eq (entry : SetupTransaction Hop) (retry : Bytes) :
    answer entry retry = if retry ≠ entry.request then .conflict else entry.life.answer := by
  unfold answer life
  by_cases hsame : retry = entry.request
  · subst hsame
    simp only [ne_eq, not_true_eq_false, if_false]
    split
    · rfl
    split
    · rfl
    · rfl
  · rw [if_pos (Ne.symm hsame), if_pos hsame]

/-- What `begin` answers when the transaction has an entry. -/
theorem begin_of_tracks (h : self.TableInv)
    (ht : self.Tracks (previousHop, transactionId) request deadlineUs life)
    (hkept : (self.expire nowUs).1.HasEntry (previousHop, transactionId)) (retry : Bytes)
    (replyCapacity pendingDeadlineUs : Nat) (reserved : Bool) :
    (self.begin previousHop transactionId retry replyCapacity nowUs pendingDeadlineUs reserved).2 =
        (if ¬ self.Admissible transactionId retry replyCapacity nowUs pendingDeadlineUs then
          .invalid
        else if retry ≠ request then .conflict
        else (life.expire deadlineUs nowUs).answer) ∧
      (self.begin previousHop transactionId retry replyCapacity nowUs pendingDeadlineUs
        reserved).1.Tracks
        (previousHop, transactionId) request deadlineUs (life.expire deadlineUs nowUs) := by
  obtain ⟨entry, hentry, hkey, hrequest, hdeadline, hlife⟩ := ht.expire h hkept
  refine ⟨?_, entry, begin_mem hentry, hkey, hrequest, hdeadline, hlife⟩
  have hpolicy := self.expire_policy nowUs
  have hexpire := expire_inv h nowUs
  have hadmissible : (self.expire nowUs).1.Admissible transactionId retry replyCapacity nowUs
      pendingDeadlineUs ↔
      self.Admissible transactionId retry replyCapacity nowUs pendingDeadlineUs := by
    unfold Admissible
    rw [hpolicy.2.2.1, hpolicy.2.2.2.1]
  unfold begin
  simp only [hadmissible]
  split
  · rfl
  split
  · rename_i index found hlookup
    obtain ⟨hfound, hfrom⟩ := lookup_eq_some hlookup
    obtain rfl : found = entry :=
      hexpire.eq_of_key (mem_of_getElem? hfound) hentry ((isFrom_iff.mp hfrom).trans hkey.symm)
    rw [← hlife, ← hrequest]
    exact answer_eq found retry
  rename_i hlookup
  have hnot := lookup_eq_none hlookup entry hentry
  rw [isFrom_iff.mpr hkey] at hnot
  cases hnot

theorem begin_new
    (hnew : (self.begin previousHop transactionId request replyCapacity nowUs pendingDeadlineUs
      reserved).2 = .new) :
    (self.begin previousHop transactionId request replyCapacity nowUs pendingDeadlineUs
      reserved).1.Tracks
      (previousHop, transactionId) request pendingDeadlineUs .pending := by
  rcases self.begin_cases previousHop transactionId request replyCapacity nowUs pendingDeadlineUs
    reserved with
    ⟨result, hne, heq⟩ | ⟨table, -, -, -, -, -, heq⟩
  · rw [heq] at hnew
    exact absurd hnew hne
  · rw [heq]
    exact ⟨_, mem_append_right _ (mem_singleton_self _), rfl, rfl, rfl, rfl⟩

end Retries

/-- The table after any run: one entry for a key, exact counters within their caps. And from the
request that was admitted until its entry is removed, a retry with arguments that `begin` takes gets
the answer that fits the life of the transaction, or a conflict if its bytes differ, and moves no
deadline. -/
theorem setup_table_exact_and_idempotent [DecidableEq Hop]
    (maxPending maxCachedReplies maxRequestBytes maxReplyBytes maxReservedReplyBytes retentionUs :
      Nat) (ops : List (SetupOp Hop)) :
    let table := Runs.exec next
      (new maxPending maxCachedReplies maxRequestBytes maxReplyBytes maxReservedReplyBytes
        retentionUs) ops
    table.TableInv ∧
    ∀ (previousHop : Hop) (transactionId : Nat) (request : Bytes)
      (replyCapacity nowUs deadlineUs : Nat) (reserved : Bool),
      (table.begin previousHop transactionId request replyCapacity nowUs deadlineUs reserved).2 =
        .new →
      let admitted := (table.begin previousHop transactionId request replyCapacity nowUs deadlineUs
        reserved).1
      ∀ later : List (SetupOp Hop),
        Runs.Along next (Survives (previousHop, transactionId)) admitted later →
      let reached := Runs.exec next admitted later
      let life := (Runs.trace next record admitted later).foldl
        (Life.follow (previousHop, transactionId) deadlineUs) .pending
      ∀ (retry : Bytes) (retryCapacity retryUs retryDeadlineUs : Nat) (retryReserved : Bool),
        (reached.expire retryUs).1.HasEntry (previousHop, transactionId) →
        (reached.begin previousHop transactionId retry retryCapacity retryUs retryDeadlineUs
          retryReserved).2 =
            (if ¬ reached.Admissible transactionId retry retryCapacity retryUs retryDeadlineUs then
              .invalid
            else if retry ≠ request then .conflict
            else (life.expire deadlineUs retryUs).answer) ∧
          (reached.begin previousHop transactionId retry retryCapacity retryUs retryDeadlineUs
            retryReserved).1.Tracks
            (previousHop, transactionId) request deadlineUs (life.expire deadlineUs retryUs) := by
  intro table
  have htable : table.TableInv := exec_inv (new_inv _ _ _ _ _ _) ops
  refine ⟨htable, ?_⟩
  intro previousHop transactionId request replyCapacity nowUs deadlineUs reserved hnew admitted
    later hsurvives reached life
    retry retryCapacity retryUs retryDeadlineUs retryReserved hkept
  have hadmitted : admitted.TableInv := begin_inv htable
  have htracks : reached.Tracks (previousHop, transactionId) request deadlineUs life :=
    run_follows hadmitted (begin_new hnew) hsurvives
  exact begin_of_tracks (exec_inv hadmitted later) htracks hkept retry retryCapacity retryDeadlineUs
    retryReserved

/-- A table with one admitted request. -/
def admittedTable : SetupTransactionTable Nat :=
  ((new 4 8 64 64 256 50).begin 1 7 [1] 10 0 100 true).1

theorem completed_retry_replayed :
    ((Runs.exec next admittedTable [.complete 1 7 [9] 5]).begin 1 7 [1] 10 6 100 true).2 =
      .replay [9] := by
  have h := (setup_table_exact_and_idempotent 4 8 64 64 256 50 ([] : List (SetupOp Nat))).2 1 7 [1]
    10 0 100 true
    (by decide +kernel) [.complete 1 7 [9] 5] ⟨fun _ habsurd => (nomatch habsurd), trivial⟩ [1] 10 6
      100 true (by decide +kernel)
  exact h.1.trans (by decide +kernel)

/-- A retry of a pending request that asks for no space for the reply is turned away like any such
request. -/
theorem retry_without_capacity_invalid :
    ((new 4 8 64 64 256 50 : SetupTransactionTable Nat).begin 1 7 [1] 10 0 100 true).2 = .new ∧
      (admittedTable.expire 5).1.HasEntry (1, 7) ∧ (admittedTable.begin 1 7 [1] 0 5 100 true).2 =
        .invalid := by
  decide +kernel

end SetupTransactionTable

end QuicLite
