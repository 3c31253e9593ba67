import QuicLite.Node.Joins

/-!
# The join protocol of two parties

What a side of an association keeps of its joins, and what the two sides can do to it. A party is
the list of its paths, each with the key, transaction and ids of the join that made it, and the two
counters by which keys are opened and admitted. Its moves are those of the node, read off
`Node.Joins`; a world is the two parties with everything they ever sent, from which a packet may be
delivered late, again or never.

The invariant says where each path comes from: a path of this side's own from a join that this side
sent, with the peer id of some answer; a path of the peer's from a join that the peer sent, and
every answer given for its key names its id.
-/

namespace QuicLite

open List Option Nat Role Function

def Role.peer : Role → Role
  | .client => .server
  | .server => .client

theorem Role.peer_ne (role : Role) : role.peer ≠ role := by cases role <;> decide

theorem Role.eq_peer_of_ne {role other : Role} (h : other ≠ role) : other = role.peer := by
  cases role <;> cases other <;> first | rfl | exact absurd rfl h

@[simp] theorem Role.peer_peer (role : Role) : role.peer.peer = role := by cases role <;> rfl

namespace JoinPair

variable {p p' : Party} {join : PathJoin} {ack : PathJoinAck}

/-- The key of the path that an association starts with. -/
def baseKey : CircuitKey := ⟨.client, 0⟩

/-- What a path keeps of its join. -/
structure PathIds where
  key : Option CircuitKey
  transactionId : Option Nat
  localCid : Option ConnectionId
  peerCid : Option ConnectionId

structure Party where
  paths : List PathIds
  /-- The sequence of the next key that this side opens. -/
  nextSequence : Nat
  /-- The highest sequence that was admitted from the peer. -/
  highest : Nat
  peerJoinCid : Option ConnectionId
  peerCid : Option ConnectionId

inductive Event where
  | quiet
  | opened (join : PathJoin)
  | retried (join : PathJoin)
  /-- The answer is not `answered` when its packet could not be built. -/
  | admitted (join : PathJoin) (localCid : ConnectionId) (answered : Bool)
  | replayed (ack : PathJoinAck)
  | confirmed (ack : PathJoinAck)
  | closed (key : Option CircuitKey)

namespace Event

def sent : Event → Option PathJoin
  | .opened join => some join
  | .retried join => some join
  | _ => none

def answer : Event → Option PathJoinAck
  | .admitted join localCid true => some ⟨join.receiveCid, join.key, join.transactionId, localCid⟩
  | .replayed ack => some ack
  | _ => none

def admits : Event → Option CircuitKey
  | .admitted join _ _ => some join.key
  | _ => none

def closes : Event → Option CircuitKey
  | .closed key => key
  | _ => none

end Event

namespace Party

variable {side : Role}

/-- The id that path zero sends to. -/
def basePeer (p : Party) : Option ConnectionId := (p.paths.head?.bind (·.peerCid)).or p.peerCid

def HasKey (p : Party) (key : CircuitKey) : Prop := ∃ path ∈ p.paths, path.key = some key

/-- A path answers with its own id, or with that of the association where it has none. -/
def Names (path : PathIds) (cid : ConnectionId) : Prop :=
  ∀ own, path.localCid = some own → cid = own

inductive Moves (side : Role) (p : Party) : Event → Party → Prop
  | quiet : Moves side p .quiet p
  | opened {join : PathJoin} (hkey : join.key = ⟨side, p.nextSequence⟩) (hpos : 1 ≤ p.nextSequence)
      (hjoin : p.peerJoinCid.or p.basePeer = some join.joinCid) :
      Moves side p (.opened join) { p with
        paths := p.paths ++ [⟨some join.key, some join.transactionId, some join.receiveCid, none⟩]
        nextSequence := p.nextSequence + 1 }
  | retried {join : PathJoin} {path : PathIds} (hmem : path ∈ p.paths)
      (hkey : path.key = some join.key)
      (htransaction : path.transactionId = some join.transactionId)
      (hcid : Names path join.receiveCid) (hjoin : p.basePeer = some join.joinCid) :
      Moves side p (.retried join) p
  | admitted {join : PathJoin} {localCid : ConnectionId} {answered : Bool}
      (hrole : join.key.openerRole ≠ side) (hnew : ¬p.HasKey join.key)
      (hhigh : p.highest < join.key.sequence) :
      Moves side p (.admitted join localCid answered) { p with
        paths := p.paths ++ [⟨some join.key, some join.transactionId, some localCid,
          some join.receiveCid⟩]
        highest := join.key.sequence }
  | replayed {ack : PathJoinAck} {path : PathIds} (hmem : path ∈ p.paths)
      (hrole : ack.key.openerRole ≠ side) (hkey : path.key = some ack.key)
      (htransaction : path.transactionId = some ack.transactionId)
      (hcid : Names path ack.receiveCid) : Moves side p (.replayed ack) p
  | confirmed {ack : PathJoinAck} {path : PathIds} {i : Nat} (hpos : i ≠ 0)
      (hget : p.paths[i]? = some path) (hrole : ack.key.openerRole = side)
      (hkey : path.key = some ack.key)
      (htransaction : path.transactionId = some ack.transactionId) :
      Moves side p (.confirmed ack)
      { p with paths := p.paths.set i { path with peerCid := some ack.receiveCid } }
  | closed {path : PathIds} {i : Nat} (hpos : i ≠ 0) (hget : p.paths[i]? = some path) :
      Moves side p (.closed path.key) { p with paths := p.paths.eraseIdx i }

/-- No move touches the path that the association started with. -/
theorem Moves.head {event : Event} (h : p.Moves side event p') (hne : p.paths ≠ []) :
    p'.paths.head? = p.paths.head? ∧ p'.peerJoinCid = p.peerJoinCid ∧ p'.peerCid = p.peerCid := by
  obtain ⟨base, rest, hpaths⟩ := exists_cons_of_ne_nil hne
  cases h with
  | quiet | retried | replayed => exact ⟨rfl, rfl, rfl⟩
  | opened | admitted => exact ⟨by simp [hpaths], rfl, rfl⟩
  | confirmed hpos =>
    obtain ⟨j, rfl⟩ := exists_eq_succ_of_ne_zero hpos
    exact ⟨by simp [hpaths], rfl, rfl⟩
  | closed hpos =>
    obtain ⟨j, rfl⟩ := exists_eq_succ_of_ne_zero hpos
    exact ⟨by simp [hpaths], rfl, rfl⟩

theorem Moves.quiet_eq (h : p.Moves side .quiet p') : p' = p := by
  cases h
  rfl

theorem Moves.replayed_eq (h : p.Moves side (.replayed ack) p') : p' = p := by
  cases h
  rfl

theorem Moves.admitted_new {localCid : ConnectionId} {answered : Bool}
    (h : p.Moves side (.admitted join localCid answered) p') :
    p'.HasKey join.key ∧ ¬p.HasKey join.key := by
  cases h with
  | admitted _ hnew _ => exact ⟨⟨_, mem_append_right _ (mem_singleton_self _), rfl⟩, hnew⟩

end Party

/-! ## Two parties and the packets between them -/

structure World where
  party : Role → Party
  /-- Every PATH_JOIN and PATH_JOIN_ACK ever sent, with its sender. -/
  joins : List (Role × PathJoin)
  acks : List (Role × PathJoinAck)
  /-- The keys that a side admitted, and those of the circuits that it closed. -/
  seen : List (Role × CircuitKey)
  closed : List (Role × CircuitKey)

namespace World

variable {key : CircuitKey} {start w : World} {path : PathIds}

def record (w : World) (side : Role) (party : Party) (event : Event) : World where
  party := update w.party side party
  joins := w.joins ++ (event.sent.map fun join => (side, join)).toList
  acks := w.acks ++ (event.answer.map fun ack => (side, ack)).toList
  seen := w.seen ++ (event.admits.map fun key => (side, key)).toList
  closed := w.closed ++ (event.closes.map fun key => (side, key)).toList

/-- What comes in was sent by the peer. -/
def Delivered (w : World) (side : Role) : Event → Prop
  | .admitted join _ _ => (side.peer, join) ∈ w.joins
  | .confirmed ack => (side.peer, ack) ∈ w.acks
  | _ => True

inductive Next (w : World) : World → Prop
  | move {side : Role} {event : Event} {party : Party}
      (hmoves : (w.party side).Moves side event party) (hdelivered : w.Delivered side event) :
      Next w (w.record side party event)

/-! ## Where a path comes from -/

inductive Origin (w : World) (side : Role) (path : PathIds) : Prop
  | base (hkey : path.key = some baseKey) (htransaction : path.transactionId = none)
  | opened (join : PathJoin) (hrole : join.key.openerRole = side) (hkey : path.key = some join.key)
      (hsent : (side, join) ∈ w.joins) (htransaction : path.transactionId = some join.transactionId)
      (hlocal : path.localCid = some join.receiveCid)
      (hpeer : ∀ cid, path.peerCid = some cid → ∃ ack, (side.peer, ack) ∈ w.acks ∧
        ack.key = join.key ∧ ack.receiveCid = cid)
  | admitted (join : PathJoin) (localCid : ConnectionId) (hrole : join.key.openerRole = side.peer)
      (hkey : path.key = some join.key) (hsent : (side.peer, join) ∈ w.joins)
      (hseen : (side, join.key) ∈ w.seen) (hlocal : path.localCid = some localCid)
      (hpeer : path.peerCid = some join.receiveCid)
      (hacks : ∀ ack, (side, ack) ∈ w.acks → ack.key = join.key → ack.receiveCid = localCid)

/-- What holds of one side. -/
structure Sound (w : World) (side : Role) : Prop where
  base : ∃ base, (w.party side).paths.head? = some base ∧ base.key = some baseKey
  keys : ((w.party side).paths.map (·.key)).Nodup
  origin : ∀ path ∈ (w.party side).paths, Origin w side path
  joins : ∀ join, (side, join) ∈ w.joins →
    1 ≤ join.key.sequence ∧ (join.key.openerRole = side →
      join.key.sequence < (w.party side).nextSequence)
  sameJoin : ∀ first second, (side, first) ∈ w.joins → (side, second) ∈ w.joins →
    first.key.openerRole = side →
    first.key = second.key → first.transactionId = second.transactionId ∧
      first.receiveCid = second.receiveCid
  acks : ∀ ack, (side, ack) ∈ w.acks → (side, ack.key) ∈ w.seen
  seen : ∀ key, (side, key) ∈ w.seen →
    key.openerRole = side.peer ∧ 1 ≤ key.sequence ∧ key.sequence ≤ (w.party side).highest
  highest : (w.party side).highest = 0 ∨ (side, ⟨side.peer, (w.party side).highest⟩) ∈ w.seen
  closed : ∀ key, (side, key) ∈ w.closed → ¬(w.party side).HasKey key ∧
    (key.openerRole = side → key.sequence < (w.party side).nextSequence) ∧
    (key.openerRole = side.peer → (side, key) ∈ w.seen)

section Record

variable {w : World} {side other : Role} {party : Party} {event : Event}

theorem mem_append_tagged {α : Type} {entries : List (Role × α)} {new : Option α} {value : α} :
    (other, value) ∈ entries ++ (new.map fun v => (side, v)).toList ↔
      (other, value) ∈ entries ∨ other = side ∧ new = some value := by
  cases new with
  | none => simp
  | some v => simp [eq_comm]

theorem mem_joins : (other, join) ∈ (w.record side party event).joins ↔
    (other, join) ∈ w.joins ∨ other = side ∧ event.sent = some join := mem_append_tagged

theorem mem_acks : (other, ack) ∈ (w.record side party event).acks ↔
    (other, ack) ∈ w.acks ∨ other = side ∧ event.answer = some ack := mem_append_tagged

theorem mem_seen : (other, key) ∈ (w.record side party event).seen ↔
    (other, key) ∈ w.seen ∨ other = side ∧ event.admits = some key := mem_append_tagged

theorem mem_closed : (other, key) ∈ (w.record side party event).closed ↔
    (other, key) ∈ w.closed ∨ other = side ∧ event.closes = some key := mem_append_tagged

@[simp] theorem record_party : (w.record side party event).party side = party :=
  update_self ..

theorem record_party_of_ne (h : other ≠ side) :
    (w.record side party event).party other = w.party other :=
  update_of_ne h ..

/-- An answer of this side for the key of the path names the id of the path. -/
theorem Origin.record (h : Origin w other path)
    (hanswer : ∀ ack, other = side → event.answer = some ack → path.key = some ack.key →
      Party.Names path ack.receiveCid) :
    Origin (w.record side party event) other path := by
  cases h with
  | base hkey htransaction => exact .base hkey htransaction
  | opened join hrole hkey hsent htransaction hlocal hpeer =>
    refine .opened join hrole hkey (mem_joins.mpr (.inl hsent)) htransaction hlocal fun cid hcid =>
      ?_
    obtain ⟨ack, hack, heq⟩ := hpeer cid hcid
    exact ⟨ack, mem_acks.mpr (.inl hack), heq⟩
  | admitted join localCid hrole hkey hsent hseen hlocal hpeer hacks =>
    refine .admitted join localCid hrole hkey (mem_joins.mpr (.inl hsent))
      (mem_seen.mpr (.inl hseen)) hlocal hpeer
      fun ack hack heq => ?_
    rcases mem_acks.mp hack with hack | ⟨hside, hnew⟩
    · exact hacks ack hack heq
    · exact hanswer ack hside hnew (by rw [hkey, heq]) localCid hlocal

/-- The other side keeps what it has. -/
theorem Sound.frame (h : Sound w other) (hne : other ≠ side) :
    Sound (w.record side party event) other := by
  have hparty : (w.record side party event).party other = w.party other := record_party_of_ne hne
  have hold {p q : Prop} (h : p ∨ other = side ∧ q) : p := h.resolve_right fun h => hne h.1
  refine ⟨?_, ?_, fun path hpath => ?_, fun join hjoin => ?_, fun first second hfirst hsecond =>
    ?_, fun ack hack => ?_, fun key hkey => ?_, ?_, fun key hkey => ?_⟩
  · rw [hparty]; exact h.base
  · rw [hparty]; exact h.keys
  · rw [hparty] at hpath
    exact (h.origin path hpath).record fun _ hside => absurd hside hne
  · rw [hparty]; exact h.joins join (hold (mem_joins.mp hjoin))
  · exact h.sameJoin first second (hold (mem_joins.mp hfirst)) (hold (mem_joins.mp hsecond))
  · exact mem_seen.mpr (.inl (h.acks ack (hold (mem_acks.mp hack))))
  · rw [hparty]; exact h.seen key (hold (mem_seen.mp hkey))
  · rw [hparty]; exact h.highest.imp_right fun hmem => mem_seen.mpr (.inl hmem)
  · rw [hparty]
    obtain ⟨hnone, hown, hforeign⟩ := h.closed key (hold (mem_closed.mp hkey))
    exact ⟨hnone, hown, fun hrole => mem_seen.mpr (.inl (hforeign hrole))⟩

end Record

/-! ## One move -/

section Move

variable {w : World} {side : Role} {party : Party} {event : Event} {first second : PathIds}

theorem Sound.path_unique (h : Sound w side) (hfirst : first ∈ (w.party side).paths)
    (hsecond : second ∈ (w.party side).paths) (hkey : first.key = second.key) : first = second :=
  inj_on_of_nodup_map h.keys hfirst hsecond hkey

theorem Sound.index_unique (h : Sound w side) {i j : Nat}
    (hfirst : (w.party side).paths[i]? = some first)
    (hsecond : (w.party side).paths[j]? = some second) (hkey : first.key = second.key) : i = j := by
  have hlt : i < ((w.party side).paths.map (·.key)).length := by
    rw [List.length_map]
    exact (List.getElem?_eq_some_iff.mp hfirst).1
  refine (List.getElem?_inj hlt h.keys).mp ?_
  rw [List.getElem?_map, List.getElem?_map, hfirst, hsecond]
  exact congrArg some hkey

/-- The keys that this side has not opened yet have no path. -/
theorem Sound.not_hasKey_next (h : Sound w side) (hpos : 1 ≤ (w.party side).nextSequence) :
    ¬(w.party side).HasKey ⟨side, (w.party side).nextSequence⟩ := by
  rintro ⟨path, hpath, hkey⟩
  cases h.origin path hpath with
  | base hbase _ =>
    have hseq : baseKey = ⟨side, (w.party side).nextSequence⟩ := some.inj (hbase.symm.trans hkey)
    have : 0 = (w.party side).nextSequence := congrArg CircuitKey.sequence hseq
    omega
  | opened join hrole hjoin hsent _ _ _ =>
    have hseq : join.key = ⟨side, (w.party side).nextSequence⟩ := some.inj (hjoin.symm.trans hkey)
    have hlt := (h.joins join hsent).2 hrole
    rw [hseq] at hlt
    exact absurd hlt (lt_irrefl _)
  | admitted join _ hrole hjoin _ _ _ _ _ =>
    have hseq : join.key = ⟨side, (w.party side).nextSequence⟩ := some.inj (hjoin.symm.trans hkey)
    rw [hseq] at hrole
    exact absurd hrole.symm side.peer_ne

/-- What a retry repeats: the join that opened the path, where this side opened it. -/
theorem Sound.retried_join (h : Sound w side) (hmem : path ∈ (w.party side).paths)
    (hkey : path.key = some join.key) (htransaction : path.transactionId = some join.transactionId)
    (hcid : Party.Names path join.receiveCid) :
    1 ≤ join.key.sequence ∧ (join.key.openerRole = side → ∃ first, (side, first) ∈ w.joins ∧
      first.key = join.key ∧
      first.transactionId = join.transactionId ∧ first.receiveCid = join.receiveCid) := by
  cases h.origin path hmem with
  | base _ hnone => rw [hnone] at htransaction; cases htransaction
  | opened first _ hfirst hsent htx hlocal _ =>
    have heq : first.key = join.key := some.inj (hfirst.symm.trans hkey)
    refine ⟨heq ▸ (h.joins first hsent).1, fun _ => ⟨first, hsent, heq, ?_, (hcid _ hlocal).symm⟩⟩
    exact some.inj (htx.symm.trans htransaction)
  | admitted first _ hrole hfirst _ hseen _ _ _ =>
    have heq : first.key = join.key := some.inj (hfirst.symm.trans hkey)
    rw [heq] at hrole hseen
    exact ⟨(h.seen _ hseen).2.1, fun hown => absurd (hrole.symm.trans hown) side.peer_ne⟩

theorem moves_counters (h : p.Moves side event p') :
    p.nextSequence ≤ p'.nextSequence ∧ p.highest ≤ p'.highest := by
  cases h with
  | opened => exact ⟨le_succ _, le_rfl⟩
  | admitted _ _ hhigh => exact ⟨le_rfl, hhigh.le⟩
  | _ => exact ⟨le_rfl, le_rfl⟩

/-- A key that a move brings was never in use on this side. -/
theorem moves_hasKey (h : p.Moves side event p') (hkey : p'.HasKey key) :
    p.HasKey key ∨ (key = ⟨side, p.nextSequence⟩ ∧ 1 ≤ p.nextSequence) ∨
      (key.openerRole ≠ side ∧ p.highest < key.sequence) := by
  obtain ⟨path, hpath, hpathKey⟩ := hkey
  cases h with
  | quiet | retried | replayed => exact .inl ⟨path, hpath, hpathKey⟩
  | opened hnew hpos =>
    rcases mem_append.mp hpath with hpath | hpath
    · exact .inl ⟨path, hpath, hpathKey⟩
    · obtain rfl := mem_singleton.mp hpath
      exact .inr (.inl ⟨(some.inj hpathKey).symm.trans hnew, hpos⟩)
  | admitted hrole _ hhigh =>
    rcases mem_append.mp hpath with hpath | hpath
    · exact .inl ⟨path, hpath, hpathKey⟩
    obtain rfl := mem_singleton.mp hpath
    obtain rfl := some.inj hpathKey
    exact .inr (.inr ⟨hrole, hhigh⟩)
  | confirmed _ hget =>
    rcases mem_or_eq_of_mem_set hpath with hpath | rfl
    · exact .inl ⟨path, hpath, hpathKey⟩
    · exact .inl ⟨_, mem_of_getElem? hget, hpathKey⟩
  | closed _ hget => exact .inl ⟨path, mem_of_mem_eraseIdx hpath, hpathKey⟩

section

variable (h : Sound w side) (hmoves : (w.party side).Moves side event party)
include h hmoves

theorem Sound.keys_move : (party.paths.map (·.key)).Nodup := by
  have hfresh {key : CircuitKey} (hnone : ¬(w.party side).HasKey key) {path : PathIds}
      (hpath : path.key = some key) :
      (((w.party side).paths ++ [path]).map (·.key)).Nodup := by
    rw [map_append]
    refine nodup_append.mpr ⟨h.keys, nodup_singleton _, fun k hk k' hk' heq => ?_⟩
    obtain ⟨old, hold, rfl⟩ := mem_map.mp hk
    rw [mem_singleton.mp hk'] at heq
    exact hnone ⟨old, hold, heq.trans hpath⟩
  cases hmoves with
  | quiet | retried | replayed => exact h.keys
  | opened hnew hpos => exact hfresh (hnew ▸ h.not_hasKey_next hpos) rfl
  | admitted _ hnew _ => exact hfresh hnew rfl
  | @confirmed ack path i _ hget _ _ _ =>
    have hsame : ((w.party side).paths.set i { path with peerCid := some ack.receiveCid }).map
      (·.key) =
        (w.party side).paths.map (·.key) := by
      apply ext_getElem?
      grind
    exact hsame ▸ h.keys
  | closed => exact h.keys.sublist ((eraseIdx_sublist _ _).map _)

theorem Sound.origin_move (hdelivered : w.Delivered side event) :
    ∀ path ∈ party.paths, Origin (w.record side party event) side path := by
  intro path hpath
  cases hmoves with
  | quiet => exact (h.origin path hpath).record nofun
  | @opened join hkey _ _ =>
    rcases mem_append.mp hpath with hpath | hpath
    · exact (h.origin path hpath).record nofun
    · obtain rfl := mem_singleton.mp hpath
      exact .opened join (hkey ▸ rfl) rfl (mem_joins.mpr (.inr ⟨rfl, rfl⟩)) rfl rfl nofun
  | retried => exact (h.origin path hpath).record nofun
  | @admitted join localCid answered hrole hnew hhigh =>
    rcases mem_append.mp hpath with hpath | hpath
    · refine (h.origin path hpath).record fun ack _ hanswer hkey => ?_
      cases answered with
      | false => cases hanswer
      | true =>
        obtain rfl := some.inj hanswer
        exact absurd ⟨path, hpath, hkey⟩ hnew
    obtain rfl := mem_singleton.mp hpath
    refine .admitted join localCid (eq_peer_of_ne hrole) rfl (mem_joins.mpr (.inl hdelivered))
      (mem_seen.mpr (.inr ⟨rfl, rfl⟩)) rfl rfl fun ack hack heq => ?_
    rcases mem_acks.mp hack with hack | ⟨-, hanswer⟩
    · -- an old answer for the key would have put it below the mark
      have hle := (h.seen _ (h.acks ack hack)).2.2
      rw [heq] at hle
      exact absurd hhigh (not_lt.mpr hle)
    cases answered with
    | false => cases hanswer
    | true => exact congrArg PathJoinAck.receiveCid (some.inj hanswer).symm
  | @replayed ack source hmem _ hkey _ hcid =>
    refine (h.origin path hpath).record fun answer _ hanswer hpathKey => ?_
    obtain rfl := some.inj hanswer
    obtain rfl := h.path_unique hpath hmem (hpathKey.trans hkey.symm)
    exact hcid
  | @confirmed ack source i _ hget hrole hkey htransaction =>
    rcases mem_or_eq_of_mem_set hpath with hpath | rfl
    · exact (h.origin path hpath).record nofun
    cases h.origin source (mem_of_getElem? hget) with
    | base _ hnone => rw [hnone] at htransaction; cases htransaction
    | opened join hown hjoin hsent htx hlocal _ =>
      have heq : join.key = ack.key := some.inj (hjoin.symm.trans hkey)
      refine .opened join hown hjoin (mem_joins.mpr (.inl hsent)) htx hlocal fun cid hcid => ?_
      exact ⟨ack, mem_acks.mpr (.inl hdelivered), heq.symm, some.inj hcid⟩
    | admitted join _ hforeign hjoin _ _ _ _ _ =>
      have heq : join.key = ack.key := some.inj (hjoin.symm.trans hkey)
      rw [heq, hrole] at hforeign
      exact absurd hforeign.symm side.peer_ne
  | closed => exact (h.origin path (mem_of_mem_eraseIdx hpath)).record nofun

theorem Sound.joins_move (join : PathJoin)
    (hjoin : (side, join) ∈ (w.record side party event).joins) :
    1 ≤ join.key.sequence ∧ (join.key.openerRole = side →
      join.key.sequence < party.nextSequence) := by
  rcases mem_joins.mp hjoin with hold | ⟨-, hnew⟩
  · obtain ⟨hpos, hlt⟩ := h.joins join hold
    exact ⟨hpos, fun hrole => (hlt hrole).trans_le (moves_counters hmoves).1⟩
  cases hmoves with
  | opened hkey hpos =>
    obtain rfl := some.inj hnew
    rw [hkey]
    exact ⟨hpos, fun _ => lt_succ_self _⟩
  | retried hmem hkey htransaction hcid =>
    obtain rfl := some.inj hnew
    obtain ⟨hpos, hfirst⟩ := h.retried_join hmem hkey htransaction hcid
    refine ⟨hpos, fun hrole => ?_⟩
    obtain ⟨first, hsent, heq, -⟩ := hfirst hrole
    rw [← heq] at hrole ⊢
    exact (h.joins first hsent).2 hrole
  | _ => cases hnew

theorem Sound.sameJoin_move (first second : PathJoin)
    (hfirst : (side, first) ∈ (w.record side party event).joins)
    (hsecond : (side, second) ∈ (w.record side party event).joins)
    (hrole : first.key.openerRole = side) (hkey : first.key = second.key) :
    first.transactionId = second.transactionId ∧ first.receiveCid = second.receiveCid := by
  have hnew : ∀ old new, (side, old) ∈ w.joins → event.sent = some new → old.key.openerRole = side →
      old.key = new.key → old.transactionId = new.transactionId ∧
        old.receiveCid = new.receiveCid := by
    intro old new hold hsent hown heq
    cases hmoves with
    | opened hopened _ =>
      -- the key is the next one, and this side sent joins for earlier ones only
      obtain rfl := some.inj hsent
      have hlt := (h.joins old hold).2 hown
      rw [heq, hopened] at hlt
      exact absurd hlt (lt_irrefl _)
    | retried hmem hpath htransaction hcid =>
      obtain rfl := some.inj hsent
      obtain ⟨opening, hopening, hopenKey, htx, hid⟩ :=
        (h.retried_join hmem hpath htransaction hcid).2 (heq ▸ hown)
      have hsame := h.sameJoin old opening hold hopening hown (heq.trans hopenKey.symm)
      exact ⟨hsame.1.trans htx, hsame.2.trans hid⟩
    | _ => cases hsent
  rcases mem_joins.mp hfirst with hold | ⟨-, hsent⟩ <;> rcases mem_joins.mp hsecond with hold' |
    ⟨-, hsent'⟩
  · exact h.sameJoin first second hold hold' hrole hkey
  · exact hnew first second hold hsent' hrole hkey
  · obtain ⟨htx, hid⟩ := hnew second first hold' hsent (hkey ▸ hrole) hkey.symm
    exact ⟨htx.symm, hid.symm⟩
  · obtain rfl := some.inj (hsent.symm.trans hsent')
    exact ⟨rfl, rfl⟩

theorem Sound.acks_move (ack : PathJoinAck)
    (hack : (side, ack) ∈ (w.record side party event).acks) :
    (side, ack.key) ∈ (w.record side party event).seen := by
  rcases mem_acks.mp hack with hold | ⟨-, hnew⟩
  · exact mem_seen.mpr (.inl (h.acks ack hold))
  cases hmoves with
  | @admitted join localCid answered =>
    cases answered with
    | false => cases hnew
    | true =>
      obtain rfl := some.inj hnew
      exact mem_seen.mpr (.inr ⟨rfl, rfl⟩)
  | @replayed ack path hmem hrole hkey htransaction _ =>
    obtain rfl := some.inj hnew
    refine mem_seen.mpr (.inl ?_)
    cases h.origin path hmem with
    | base _ hnone => rw [hnone] at htransaction; cases htransaction
    | opened join hown hjoin =>
      have heq : join.key = ack.key := some.inj (hjoin.symm.trans hkey)
      exact absurd (heq ▸ hown) hrole
    | admitted join _ _ hjoin _ hseen =>
      have heq : join.key = ack.key := some.inj (hjoin.symm.trans hkey)
      exact heq ▸ hseen
  | _ => cases hnew

theorem Sound.seen_move (key : CircuitKey) (hkey : (side, key) ∈ (w.record side party event).seen) :
    key.openerRole = side.peer ∧ 1 ≤ key.sequence ∧ key.sequence ≤ party.highest := by
  rcases mem_seen.mp hkey with hold | ⟨-, hnew⟩
  · obtain ⟨hrole, hpos, hle⟩ := h.seen key hold
    exact ⟨hrole, hpos, hle.trans (moves_counters hmoves).2⟩
  cases hmoves with
  | admitted hrole _ hhigh =>
    obtain rfl := some.inj hnew
    exact ⟨eq_peer_of_ne hrole, one_le_of_lt hhigh, le_rfl⟩
  | _ => cases hnew

theorem Sound.highest_move :
    party.highest = 0 ∨ (side, ⟨side.peer, party.highest⟩) ∈ (w.record side party event).seen := by
  cases hmoves with
  | @admitted join _ _ hrole =>
    refine .inr (mem_seen.mpr (.inr ⟨rfl, ?_⟩))
    exact congrArg some (congrArg (CircuitKey.mk · join.key.sequence) (eq_peer_of_ne hrole))
  | _ => exact h.highest.imp_right fun hold => mem_seen.mpr (.inl hold)

theorem Sound.closed_move (key : CircuitKey)
    (hkey : (side, key) ∈ (w.record side party event).closed) :
    ¬party.HasKey key ∧ (key.openerRole = side → key.sequence < party.nextSequence) ∧
      (key.openerRole = side.peer → (side, key) ∈ (w.record side party event).seen) := by
  rcases mem_closed.mp hkey with hold | ⟨-, hnew⟩
  · obtain ⟨hnone, hown, hforeign⟩ := h.closed key hold
    refine ⟨fun hhas => ?_, fun hrole => (hown hrole).trans_le (moves_counters hmoves).1,
      fun hrole => mem_seen.mpr (.inl (hforeign hrole))⟩
    rcases moves_hasKey hmoves hhas with hhas | ⟨hnext, -⟩ | ⟨hrole, hhigh⟩
    · exact hnone hhas
    · have hlt := hown (hnext ▸ rfl)
      rw [hnext] at hlt
      exact absurd hlt (lt_irrefl _)
    · have hle := (h.seen key (hforeign (eq_peer_of_ne hrole))).2.2
      exact absurd hhigh (not_lt.mpr hle)
  · cases hmoves with
    | @closed path i hpos hget =>
      have hpath : path.key = some key := hnew
      have hmem := mem_of_getElem? hget
      refine ⟨?_, ?_⟩
      · -- the paths that stay have other keys
        rintro ⟨other, hother, hotherKey⟩
        obtain ⟨j, hne, hj⟩ := mem_eraseIdx_iff_getElem?.mp hother
        exact hne (h.index_unique hj hget (hotherKey.trans hpath.symm))
      cases h.origin path hmem with
      | base hbase _ =>
        obtain ⟨base, hhead, hbaseKey⟩ := h.base
        rw [head?_eq_getElem?] at hhead
        exact absurd (h.index_unique hget hhead (hbase.trans hbaseKey.symm)) hpos
      | opened join hown hjoin hsent =>
        obtain rfl : join.key = key := some.inj (hjoin.symm.trans hpath)
        exact ⟨fun _ => (h.joins join hsent).2 hown, fun hrole =>
          absurd (hrole.symm.trans hown) side.peer_ne⟩
      | admitted join _ hrole hjoin _ hseen =>
        obtain rfl : join.key = key := some.inj (hjoin.symm.trans hpath)
        exact ⟨fun hown => absurd (hrole.symm.trans hown) side.peer_ne, fun _ =>
          mem_seen.mpr (.inl hseen)⟩
    | _ => cases hnew

theorem Sound.move (hdelivered : w.Delivered side event) :
    Sound (w.record side party event) side := by
  have hne : (w.party side).paths ≠ [] := by
    obtain ⟨base, hbase, -⟩ := h.base
    exact ne_nil_of_mem (mem_of_head? hbase)
  refine ⟨?_, ?_, ?_, ?_, h.sameJoin_move hmoves, h.acks_move hmoves, ?_, ?_, ?_⟩ <;>
    rw [record_party]
  · rw [(hmoves.head hne).1]
    exact h.base
  · exact h.keys_move hmoves
  · exact h.origin_move hmoves hdelivered
  · exact h.joins_move hmoves
  · exact h.seen_move hmoves
  · exact h.highest_move hmoves
  · exact h.closed_move hmoves

end

end Move

/-! ## Runs -/

/-- Both sides are sound, and path zero is the one that the association started with. -/
structure Inv (start w : World) : Prop where
  sound : ∀ side, Sound w side
  base : ∀ side, (w.party side).paths.head? = (start.party side).paths.head? ∧
    (w.party side).peerJoinCid = (start.party side).peerJoinCid ∧
      (w.party side).peerCid = (start.party side).peerCid
  /-- First joins name the join id of the peer where one is known, retries the peer id of path
  zero. -/
  joinCid : ∀ side join, (side, join) ∈ w.joins →
    (start.party side).peerJoinCid.or (start.party side).basePeer = some join.joinCid ∨
      (start.party side).basePeer = some join.joinCid

theorem Inv.basePeer (h : Inv start w) (side : Role) :
    (w.party side).basePeer = (start.party side).basePeer := by
  obtain ⟨hhead, -, hpeer⟩ := h.base side
  rw [Party.basePeer, Party.basePeer, hhead, hpeer]

theorem Inv.next {w' : World} (h : Inv start w) (hnext : w.Next w') : Inv start w' := by
  obtain @⟨side, event, party, hmoves, hdelivered⟩ := hnext
  refine ⟨fun other => ?_, fun other => ?_, fun other join hjoin => ?_⟩ <;> by_cases hside :
    other = side
  · subst hside
    exact (h.sound other).move hmoves hdelivered
  · exact (h.sound other).frame hside
  · subst hside
    obtain ⟨base, hbase, -⟩ := (h.sound other).base
    obtain ⟨hhead, hjoin, hpeer⟩ := hmoves.head (ne_nil_of_mem (mem_of_head? hbase))
    rw [record_party, hhead, hjoin, hpeer]
    exact h.base other
  · rw [record_party_of_ne hside]
    exact h.base other
  · subst hside
    rcases mem_joins.mp hjoin with hold | ⟨-, hnew⟩
    · exact h.joinCid other join hold
    cases hmoves with
    | opened _ _ hcid =>
      obtain rfl := some.inj hnew
      rw [(h.base other).2.1, h.basePeer] at hcid
      exact .inl hcid
    | retried _ _ _ _ hcid =>
      obtain rfl := some.inj hnew
      rw [h.basePeer] at hcid
      exact .inr hcid
    | _ => cases hnew
  · exact h.joinCid other join ((mem_joins.mp hjoin).resolve_right fun hnew => hside hnew.1)

/-! ## Agreement -/

/-- Paths of one key on the two sides name each other's ids, where both are known. -/
theorem Inv.agree (h : Inv start w) {opener : Role} (hopener : key.openerRole = opener)
    (hbase : key ≠ baseKey) {near far : PathIds} (hnear : near ∈ (w.party opener).paths)
    (hfar : far ∈ (w.party opener.peer).paths) (hnearKey : near.key = some key)
    (hfarKey : far.key = some key) :
    near.localCid = far.peerCid ∧ ∀ cid, near.peerCid = some cid → far.localCid = some cid := by
  obtain ⟨join, hsent, hjoinKey, hlocal, hpeer⟩ :
      ∃ join, (opener, join) ∈ w.joins ∧ join.key = key ∧ near.localCid = some join.receiveCid ∧
        ∀ cid, near.peerCid = some cid → ∃ ack, (opener.peer, ack) ∈ w.acks ∧ ack.key = key ∧
          ack.receiveCid = cid := by
    cases (h.sound opener).origin near hnear with
    | base hkey _ => exact absurd (some.inj (hnearKey.symm.trans hkey)) hbase
    | opened join _ hkey hsent _ hlocal hpeer =>
      obtain rfl : join.key = key := some.inj (hkey.symm.trans hnearKey)
      exact ⟨join, hsent, rfl, hlocal, hpeer⟩
    | admitted join _ hrole hkey =>
      obtain rfl : join.key = key := some.inj (hkey.symm.trans hnearKey)
      exact absurd (hrole.symm.trans hopener) opener.peer_ne
  cases (h.sound opener.peer).origin far hfar with
  | base hkey _ => exact absurd (some.inj (hfarKey.symm.trans hkey)) hbase
  | opened other hrole hkey =>
    obtain rfl : other.key = key := some.inj (hkey.symm.trans hfarKey)
    exact absurd (hrole.symm.trans hopener) opener.peer_ne
  | admitted other farCid hrole hkey hotherSent _ hfarLocal hfarPeer hacks =>
  obtain rfl : other.key = key := some.inj (hkey.symm.trans hfarKey)
  rw [peer_peer] at hotherSent
  -- both joins are this opener's for one key
  have hsame := (h.sound opener).sameJoin join other hsent hotherSent (hjoinKey ▸ hopener)
    hjoinKey
  refine ⟨by rw [hlocal, hfarPeer, hsame.2], fun cid hcid => ?_⟩
  obtain ⟨ack, hack, hackKey, rfl⟩ := hpeer cid hcid
  rw [hfarLocal, hacks ack hack hackKey]

end World

end JoinPair

end QuicLite
