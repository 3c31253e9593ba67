import QuicLite.Lib.Runs
import QuicLite.Wire.Frame

/-!
# Peers of a bearer

A bearer gives out a handle for each of its native addresses. A handle packs a slot with the
generation of the slot. A removal moves the generation on, at the end to zero, and a slot of
generation zero is never used again. So a handle names the address that it was given out for, or
nothing (`handle_names_one_peer`).
-/

namespace QuicLite.Bearer

open List Runs Nat

inductive PeerL2TableFull where
  | full

structure PeerEntry (Address : Type) where
  generation : Nat
  address : Option Address

structure PeerL2Table (Address : Type) where
  peers : List (PeerEntry Address)

namespace PeerL2Table

variable {Address : Type}

/-- `PEERS` is at most `u32::MAX`. -/
def new (capacity : Nat) : PeerL2Table Address := ⟨replicate capacity ⟨1, none⟩⟩

/-- `generation << 32 | (slot + 1)`, both in their own halves. -/
def pack (generation slot : Nat) : Nat := generation * (u32Max + 1) + min (slot + 1) u32Max

def handle (self : PeerL2Table Address) (slot : Nat) : Nat :=
  pack ((self.peers[slot]?.map (·.generation)).getD 0) slot

def decode (handle : Nat) : Option (Nat × Nat) :=
  let generation := handle / (u32Max + 1)
  let encodedSlot := handle % (u32Max + 1)
  if encodedSlot = 0 ∨ generation = 0 then none else some (encodedSlot - 1, generation)

/-- Resolve a current handle. -/
def peer (self : PeerL2Table Address) (handle : Nat) : Option Address :=
  (decode handle).bind fun found => (self.peers[found.1]?).bind fun entry =>
    if entry.generation = found.2 then entry.address else none

def remove (self : PeerL2Table Address) (handle : Nat) : PeerL2Table Address × Option Address :=
  match decode handle with
  | none => (self, none)
  | some (slot, generation) =>
    match self.peers[slot]? with
    | none => (self, none)
    | some entry =>
      if entry.generation ≠ generation then (self, none)
      else
        match entry.address with
        | none => (self, none)
        | some address =>
          -- a generation that cannot be moved on retires the slot
          let next := if entry.generation < u32Max then entry.generation + 1 else 0
          (⟨self.peers.set slot ⟨next, none⟩⟩, some address)

/-! ## Handles -/

variable {slot : Nat} {generation : Nat}

theorem decode_pack (hgeneration : generation ≠ 0) (hslot : slot < u32Max) :
    decode (pack generation slot) = some (slot, generation) := by
  have hmin : min (slot + 1) u32Max = slot + 1 := by omega
  have hdiv : pack generation slot / (u32Max + 1) = generation := by
    rw [pack, add_comm, add_mul_div_right _ _ (succ_pos _), div_eq_of_lt (by omega),
      zero_add]
  have hmod : pack generation slot % (u32Max + 1) = slot + 1 := by
    rw [pack, hmin, add_comm, add_mul_mod_self_right, mod_eq_of_lt (by omega)]
  unfold decode
  simp only [hdiv, hmod]
  rw [if_neg (by omega), Nat.add_sub_cancel]

theorem pack_of_decode {handle : Nat} (h : decode handle = some (slot, generation))
    (hslot : slot < u32Max) : handle = pack generation slot := by
  unfold decode at h
  simp only at h
  split_ifs at h with hzero
  obtain ⟨rfl, rfl⟩ := Prod.mk.inj (Option.some.inj h)
  rw [pack, min_eq_left (by omega), Nat.sub_add_cancel (by omega), Nat.div_add_mod']

/-- A slot of this generation holds this address. -/
def Holds (s : PeerL2Table Address) (slot : Nat) (generation : Nat)
    (address : Option Address) : Prop :=
  s.peers[slot]? = some ⟨generation, address⟩

variable {s : PeerL2Table Address}

theorem Holds.lt {address : Option Address}
    (h : s.Holds slot generation address) : slot < s.peers.length :=
  (List.getElem?_eq_some_iff.mp h).1

theorem Holds.inj {g g' : Nat} {address address' : Option Address}
    (h : s.Holds slot g address) (h' : s.Holds slot g' address') : g = g' ∧ address = address' := by
  cases h.symm.trans h'
  exact ⟨rfl, rfl⟩

theorem peer_pack {g : Nat} {held : Option Address}
    (hgeneration : generation ≠ 0) (hshort : s.peers.length ≤ u32Max) (h : s.Holds slot g held) :
    s.peer (pack generation slot) = if g = generation then held else none := by
  have hlt := (List.getElem?_eq_some_iff.mp h).1
  rw [peer, decode_pack hgeneration (by omega), Option.bind_some, h, Option.bind_some]

structure Inv (s : PeerL2Table Address) : Prop where
  short : s.peers.length ≤ u32Max
  retired : ∀ slot address, s.Holds slot 0 address → address = none
  unique : ∀ slot slot' g g' address, s.Holds slot g (some address) →
    s.Holds slot' g' (some address) → slot = slot'

theorem inv_new {capacity : Nat} (h : capacity ≤ u32Max) :
    Inv (new capacity : PeerL2Table Address) := by
  have hentry : ∀ slot g address, (new capacity : PeerL2Table Address).Holds slot g address →
      g = 1 ∧ address = none := by
    intro slot g address hheld
    cases eq_of_mem_replicate (mem_of_getElem? hheld)
    exact ⟨rfl, rfl⟩
  constructor
  · rw [new, length_replicate]
    exact h
  · intro slot address hheld
    exact (hentry slot 0 address hheld).2
  · intro slot slot' g g' address hheld
    cases (hentry slot g _ hheld).2

/-- One slot is rewritten, and the others are as before. -/
@[grind =]
theorem holds_set {other g : Nat} {entry : PeerEntry Address} {address : Option Address} :
    (⟨s.peers.set slot entry⟩ : PeerL2Table Address).Holds other g address ↔
      other = slot ∧ slot < s.peers.length ∧ entry = ⟨g, address⟩ ∨ other ≠ slot ∧
        s.Holds other g address := by
  unfold Holds
  grind

/-- The slot still holds the address under the generation, or its generation has moved on. -/
def Given (s : PeerL2Table Address) (slot generation : Nat) (address : Address) : Prop :=
  ∃ g held, s.Holds slot g held ∧ (g = generation ∧ held = some address ∨ generation < g ∨ g = 0)

theorem Given.peer (hinv : s.Inv) {address : Address}
    (hgeneration : generation ≠ 0) (h : s.Given slot generation address) :
    s.peer (pack generation slot) = some address ∨ s.peer (pack generation slot) = none := by
  obtain ⟨g, held, hheld, hcase⟩ := h
  rw [peer_pack hgeneration hinv.short hheld]
  split_ifs
  · exact .inl (by grind)
  · exact .inr rfl

/-! ## Calls -/

inductive Op (Address : Type) where
  | getOrInsert (peer : Address)
  | remove (handle : Nat)

/-- What one call does: it leaves the table alone, gives a free slot an address that no slot has, or
takes the address of a slot away and moves its generation on. -/
inductive Moves (s : PeerL2Table Address) : Op Address → PeerL2Table Address → Prop where
  | same (op : Op Address) : Moves s op s
  | insert {slot generation : Nat} {peer : Address} (hfree : s.Holds slot generation none)
      (hused : generation ≠ 0) (hnew : ∀ other g, ¬s.Holds other g (some peer)) :
      Moves s (.getOrInsert peer) ⟨s.peers.set slot ⟨generation, some peer⟩⟩
  | remove {slot generation next : Nat} {peer : Address}
      (hheld : s.Holds slot generation (some peer)) (hnext : next = 0 ∨ next = generation + 1) :
      Moves s (.remove (pack generation slot)) ⟨s.peers.set slot ⟨next, none⟩⟩

theorem remove_moves (hinv : s.Inv) (handle : Nat) : Moves s (.remove handle)
    (s.remove handle).1 := by
  unfold remove
  split
  · exact .same _
  rename_i slot generation hdecode
  split
  · exact .same _
  rename_i entry hentry
  split
  · exact .same _
  rename_i hsame
  split
  · exact .same _
  rename_i address haddress
  have hlt := (List.getElem?_eq_some_iff.mp hentry).1
  obtain ⟨entryGeneration, entryAddress⟩ := entry
  obtain rfl : entryGeneration = generation := not_not.mp hsame
  obtain rfl : entryAddress = some address := haddress
  rw [pack_of_decode hdecode (hlt.trans_le hinv.short)]
  refine .remove hentry ?_
  split_ifs
  · exact .inr rfl
  · exact .inl rfl

variable [DecidableEq Address] (self : PeerL2Table Address)

def slotOf (peer : Address) : Option Nat :=
  self.peers.findIdx? fun candidate => candidate.address = some peer

def freeSlot : Option Nat :=
  self.peers.findIdx? fun entry => entry.address.isNone && entry.generation != 0

def getOrInsert (peer : Address) : PeerL2Table Address × Except PeerL2TableFull Nat :=
  match self.slotOf peer with
  | some slot => (self, .ok (self.handle slot))
  | none =>
    match self.freeSlot with
    | none => (self, .error .full)
    | some slot =>
      let inserted : PeerL2Table Address :=
        ⟨self.peers.modify slot fun entry => { entry with address := some peer }⟩
      (inserted, .ok (inserted.handle slot))

/-- The current handle of an address. -/
def address (peer : Address) : Option Nat := (self.slotOf peer).map self.handle

def step : Op Address → PeerL2Table Address
  | .getOrInsert peer => (self.getOrInsert peer).1
  | .remove handle => (self.remove handle).1

theorem slotOf_eq_some {peer : Address} (h : s.slotOf peer = some slot) :
    ∃ generation, s.Holds slot generation (some peer) := by
  obtain ⟨hlt, hmatch, -⟩ := findIdx?_eq_some_iff_getElem.mp h
  refine ⟨s.peers[slot].generation, ?_⟩
  rw [Holds, getElem?_eq_getElem hlt, ← of_decide_eq_true hmatch]

theorem slotOf_eq_none {peer : Address} (h : s.slotOf peer = none) (slot generation : Nat) :
    ¬s.Holds slot generation (some peer) := by
  intro hheld
  have := findIdx?_eq_none_iff.mp h _ (mem_of_getElem? hheld)
  simp at this

omit [DecidableEq Address] in
theorem freeSlot_eq_some (h : s.freeSlot = some slot) :
    ∃ generation, generation ≠ 0 ∧ s.Holds slot generation none := by
  obtain ⟨hlt, hmatch, -⟩ := findIdx?_eq_some_iff_getElem.mp h
  rw [Bool.and_eq_true, Option.isNone_iff_eq_none, bne_iff_ne] at hmatch
  refine ⟨s.peers[slot].generation, hmatch.2, ?_⟩
  rw [Holds, getElem?_eq_getElem hlt, ← hmatch.1]

theorem getOrInsert_cases (s : PeerL2Table Address) (peer : Address) :
    (∃ slot generation, s.Holds slot generation (some peer) ∧
      s.getOrInsert peer = (s, .ok (pack generation slot))) ∨
      s.getOrInsert peer = (s, .error .full) ∨
      ∃ slot generation, generation ≠ 0 ∧ s.Holds slot generation none ∧
        (∀ other g, ¬s.Holds other g (some peer)) ∧
        s.getOrInsert peer = (⟨s.peers.set slot ⟨generation, some peer⟩⟩,
          .ok (pack generation slot)) := by
  unfold getOrInsert
  split
  · rename_i slot hslot
    obtain ⟨generation, hheld⟩ := slotOf_eq_some hslot
    refine .inl ⟨slot, generation, hheld, ?_⟩
    rw [handle, hheld]
    rfl
  rename_i hslot
  split
  · exact .inr (.inl rfl)
  rename_i slot hfree
  obtain ⟨generation, hused, hheld⟩ := freeSlot_eq_some hfree
  have hset : (s.peers.modify slot fun entry => { entry with address := some peer }) =
      s.peers.set slot ⟨generation, some peer⟩ := by
    rw [modify_eq_set_getElem?, hheld]
    rfl
  refine .inr (.inr ⟨slot, generation, hused, hheld, slotOf_eq_none hslot, ?_⟩)
  have hlt := hheld.lt
  simp only [hset, handle, getElem?_set_self hlt]
  rfl

theorem step_moves (hinv : s.Inv) (op : Op Address) : Moves s op (s.step op) := by
  cases op with
  | remove => exact remove_moves hinv ..
  | getOrInsert peer =>
  show Moves s _ (s.getOrInsert peer).1
  rcases s.getOrInsert_cases peer with ⟨slot, generation, -, heq⟩ | heq |
    ⟨slot, generation, hused, hfree, hnew, heq⟩
  · rw [heq]
    exact .same _
  · rw [heq]
    exact .same _
  · rw [heq]
    exact .insert hfree hused hnew

theorem Inv.step (h : s.Inv) (op : Op Address) : (s.step op).Inv := by
  have hmoves := step_moves h op
  generalize s.step op = s' at hmoves
  obtain ⟨hshort, hretired, hunique⟩ := h
  cases hmoves with
  | same => exact ⟨hshort, hretired, hunique⟩
  | insert hfree hused hnew =>
    refine ⟨by rwa [length_set], ?_, ?_⟩
    · grind
    · grind
  | remove hheld hnext =>
    refine ⟨by rwa [length_set], ?_, ?_⟩
    · grind
    · grind

/-! ## A handle that was given out -/

theorem Given.step (hinv : s.Inv) {address : Address}
    (h : s.Given slot generation address) (op : Op Address) :
    (s.step op).Given slot generation address ∧
      (s.Holds slot generation (some address) → op ≠ .remove (pack generation slot) →
        (s.step op).Holds slot generation (some address)) := by
  have hmoves := step_moves hinv op
  generalize s.step op = s' at hmoves
  obtain ⟨g, held, hslot, hcase⟩ := h
  cases hmoves with
  | same => exact ⟨⟨g, held, hslot, hcase⟩, fun hheld _ => hheld⟩
  | @insert changed generation' peer hfree =>
    by_cases heq : slot = changed
    · subst heq
      obtain ⟨rfl, rfl⟩ := hslot.inj hfree
      refine ⟨⟨g, some peer, holds_set.mpr (.inl ⟨rfl, hfree.lt, rfl⟩), by grind⟩, fun hheld => ?_⟩
      cases (hheld.inj hfree).2
    · exact ⟨⟨g, held, holds_set.mpr (.inr ⟨heq, hslot⟩), hcase⟩, fun hheld _ =>
        holds_set.mpr (.inr ⟨heq, hheld⟩)⟩
  | @remove changed generation' next peer hheld hnext =>
    by_cases heq : slot = changed
    · subst heq
      obtain ⟨rfl, rfl⟩ := hslot.inj hheld
      -- a slot of generation zero holds no address, so this generation moves on
      have hused := hinv.retired slot (some peer)
      refine ⟨⟨next, none, holds_set.mpr (.inl ⟨rfl, hheld.lt, rfl⟩), by grind⟩,
        fun hgiven hop => ?_⟩
      rw [(hgiven.inj hheld).1] at hop
      exact absurd rfl hop
    · exact ⟨⟨g, held, holds_set.mpr (.inr ⟨heq, hslot⟩), hcase⟩, fun hheld _ =>
        holds_set.mpr (.inr ⟨heq, hheld⟩)⟩

theorem Given.run (hinv : s.Inv) {address : Address} (h : s.Given slot generation address)
    (ops : List (Op Address)) : (exec PeerL2Table.step s ops).Given slot generation address ∧
      (s.Holds slot generation (some address) → .remove (pack generation slot) ∉ ops →
        (exec PeerL2Table.step s ops).Holds slot generation (some address)) := by
  induction ops generalizing s with
  | nil => exact ⟨h, fun hheld _ => hheld⟩
  | cons op ops ih =>
    obtain ⟨hnext, hheld⟩ := h.step hinv op
    obtain ⟨hend, hends⟩ := ih (hinv.step op) hnext
    refine ⟨hend, fun hnow hnot => ?_⟩
    rw [mem_cons, not_or] at hnot
    exact hends (hheld hnow (Ne.symm hnot.1)) hnot.2

/-- In any history a live address has one slot and two have two handles; a handle resolves to the
address that it was given out for until it is removed, and later to that address or to nothing; a
refused insertion changes nothing. -/
theorem handle_names_one_peer {capacity : Nat} (hcapacity : capacity ≤ u32Max)
    (before after : List (Op Address)) (peer : Address) :
    let s : PeerL2Table Address := exec step (new capacity) before
    (∀ slot slot' g g' live, s.Holds slot g (some live) → s.Holds slot' g' (some live) →
      slot = slot') ∧
    (∀ other handle, s.address peer = some handle → s.address other = some handle → other = peer) ∧
    (∀ e, (s.getOrInsert peer).2 = .error e → (s.getOrInsert peer).1 = s) ∧
    ∀ handle, (s.getOrInsert peer).2 = .ok handle → let s' := exec step (s.getOrInsert peer).1 after
      (s'.peer handle = some peer ∨ s'.peer handle = none) ∧
        (.remove handle ∉ after → s'.peer handle = some peer) := by
  intro s
  have hinv : s.Inv := invariant (P := Inv) (fun s op h => h.step op) (inv_new hcapacity) before
  have hinv' : (s.getOrInsert peer).1.Inv := hinv.step (.getOrInsert peer)
  refine ⟨hinv.unique, ?_, ?_, ?_⟩
  · intro other handle hpeer hother
    have hresolves : ∀ x, s.address x = some handle → s.peer handle = some x := by
      intro x hx
      obtain ⟨slot, hslot, rfl⟩ := Option.map_eq_some_iff.mp hx
      obtain ⟨generation, hheld⟩ := slotOf_eq_some hslot
      have hused : generation ≠ 0 := by
        rintro rfl
        cases hinv.retired slot _ hheld
      have hhandle : s.handle slot = pack generation slot := by rw [PeerL2Table.handle, hheld]; rfl
      rw [hhandle, peer_pack hused hinv.short hheld, if_pos rfl]
    exact Option.some.inj ((hresolves other hother).symm.trans (hresolves peer hpeer))
  · intro e herror
    rcases s.getOrInsert_cases peer with ⟨_, _, _, heq⟩ | heq | ⟨_, _, _, _, _, heq⟩
    · rw [heq]
    · rw [heq]
    · rw [heq] at herror
      cases herror
  · intro handle hok
    have hgiven : ∃ slot generation, generation ≠ 0 ∧ handle = pack generation slot ∧
        (s.getOrInsert peer).1.Holds slot generation (some peer) := by
      rcases s.getOrInsert_cases peer with ⟨slot, generation, hheld, heq⟩ | heq |
        ⟨slot, generation, hused, hfree, -, heq⟩
      · rw [heq] at hok ⊢
        refine ⟨slot, generation, ?_, (Except.ok.inj hok).symm, hheld⟩
        rintro rfl
        cases hinv.retired slot _ hheld
      · rw [heq] at hok
        cases hok
      · rw [heq] at hok ⊢
        exact ⟨slot, generation, hused, (Except.ok.inj hok).symm, getElem?_set_self hfree.lt⟩
    obtain ⟨slot, generation, hused, rfl, hheld⟩ := hgiven
    obtain ⟨hends, hkept⟩ := Given.run hinv' ⟨generation, some peer, hheld, .inl ⟨rfl, rfl⟩⟩ after
    have hinvEnd : (exec step (s.getOrInsert peer).1 after).Inv :=
      invariant (P := Inv) (fun s op h => h.step op) hinv' after
    refine ⟨hends.peer hinvEnd hused, fun hnot => ?_⟩
    rw [peer_pack hused hinvEnd.short (hkept hheld hnot), if_pos rfl]

theorem second_peer_named :
    (((exec step (new 2) [.getOrInsert 7] : PeerL2Table Nat).getOrInsert 9).1.peer
      (pack 1 1)) = some 9 :=
  ((handle_names_one_peer (by decide) [.getOrInsert 7] [] 9).2.2.2 _ rfl).2 not_mem_nil

end PeerL2Table

end QuicLite.Bearer
