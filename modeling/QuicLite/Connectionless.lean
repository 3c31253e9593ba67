import Mathlib.Data.List.Nodup
import Mathlib.Data.List.ReduceOption
import QuicLite.Wire.Varint

/-!
# Connectionless duplicates

`ConnectionlessDedup` is a ring of the last answers. An entry is found by its key, and a payload is
told from another one with that key by its fingerprint alone.
-/

namespace QuicLite.Connectionless

open List Nat

/-- `connectionless_fingerprint`, which is FNV-1a. -/
def fingerprint (payload : Bytes) : UInt32 :=
  payload.foldl (fun hash byte => (hash ^^^ byte.toUInt32) * 0x01000193) 0x811c9dc5

structure Entry where
  id : Option UInt64
  packetNumber : UInt32
  fingerprint : UInt32
  /-- The first `response_len` bytes of the array. -/
  response : Bytes

inductive DedupResult where
  | New
  | Replay (len : Nat)
  | Conflict
  deriving DecidableEq

structure ConnectionlessDedup where
  entries : List (Option Entry)
  next : Nat

/-- What a request calls with. -/
structure Request where
  packetNumber : UInt32
  payload : Bytes

section Dedup

variable (recordId : Bytes → Option UInt64)

def new (size : Nat) : ConnectionlessDedup := ⟨.replicate size none, 0⟩

variable (request : Request)

def sameKey (entry : Entry) : Bool :=
  match recordId request.payload, entry.id with
  | some id, some existing => id == existing
  | none, none => request.packetNumber == entry.packetNumber
  | _, _ => false

/-- The result, and the output buffer after it. -/
def check (dedup : ConnectionlessDedup) (request : Request) (output : Bytes) :
    DedupResult × Bytes :=
  match dedup.entries.reduceOption.find? (sameKey recordId request) with
  | none => (.New, output)
  | some entry =>
    if entry.fingerprint ≠ fingerprint request.payload ∨ output.length < entry.response.length then
      (.Conflict, output)
    else (.Replay entry.response.length, entry.response ++ output.drop entry.response.length)

def entryOf (response : Bytes) : Entry :=
  ⟨recordId request.payload, request.packetNumber, fingerprint request.payload, response⟩

def store (capacity : Nat) (dedup : ConnectionlessDedup) (request : Request) (response : Bytes) :
    ConnectionlessDedup × Bool :=
  if dedup.entries.length = 0 ∨ capacity < response.length then (dedup, false)
  else (⟨dedup.entries.set dedup.next (some (entryOf recordId request response)),
    (dedup.next + 1) % dedup.entries.length⟩, true)

/-! ## Keys -/

/-- The record id, or the packet number where there is none. -/
def key (id : Option UInt64) (packetNumber : UInt32) : UInt64 ⊕ UInt32 :=
  match id with
  | some id => .inl id
  | none => .inr packetNumber

def Entry.key (entry : Entry) : UInt64 ⊕ UInt32 := Connectionless.key entry.id entry.packetNumber

def Request.key : UInt64 ⊕ UInt32 :=
  Connectionless.key (recordId request.payload) request.packetNumber

theorem sameKey_iff (entry : Entry) : sameKey recordId request entry = true ↔
    entry.key = request.key recordId := by
  unfold sameKey Entry.key Request.key Connectionless.key
  cases recordId request.payload <;> cases entry.id <;> simp
  all_goals exact eq_comm

/-! ## The ring -/

/-- The slots from the oldest entry to the newest. -/
def ConnectionlessDedup.ordered (dedup : ConnectionlessDedup) : List (Option Entry) :=
  dedup.entries.drop dedup.next ++ dedup.entries.take dedup.next

/-- What is left of the stores. -/
def retained (size : Nat) (stored : List Entry) : List Entry :=
  stored.drop (stored.length - size)

/-- The tables reached by stores of requests that a check finds new, and these stores. A check
changes no table. -/
inductive Reached (size capacity : Nat) : ConnectionlessDedup → List Entry → Prop
  | new : Reached size capacity (new size) []
  | store {dedup stored request response} (hdedup : Reached size capacity dedup stored)
    (hnew : (check recordId dedup request []).1 = .New) (hfits : response.length ≤ capacity) :
    Reached size capacity (store recordId capacity dedup request response).1
      (stored ++ [entryOf recordId request response])

structure Ring (size capacity : Nat) (dedup : ConnectionlessDedup)
    (stored : List Entry) : Prop where
  length : dedup.entries.length = size
  next : dedup.next < size
  ordered : dedup.ordered = (List.replicate size none ++ stored.map some).drop stored.length
  keys : ((retained size stored).map Entry.key).Nodup
  fits : ∀ entry ∈ retained size stored, entry.response.length ≤ capacity

variable {recordId} {size capacity : Nat} {dedup : ConnectionlessDedup} {stored : List Entry}

theorem Ring.mem_iff (h : Ring size capacity dedup stored) (entry : Entry) :
    some entry ∈ dedup.entries ↔ entry ∈ retained size stored := by
  have hordered : some entry ∈ dedup.entries ↔ some entry ∈ dedup.ordered := by
    rw [ConnectionlessDedup.ordered, mem_append, or_comm, ← mem_append, take_append_drop]
  rw [hordered, h.ordered, drop_append, ← map_drop, mem_append, mem_map]
  simp [retained]

theorem ordered_set {entry : Option Entry} (hnext : dedup.next < dedup.entries.length) :
    ConnectionlessDedup.ordered
      ⟨dedup.entries.set dedup.next entry, (dedup.next + 1) % dedup.entries.length⟩ =
      dedup.ordered.tail ++ [entry] := by
  have hset : dedup.entries.set dedup.next entry =
      dedup.entries.take dedup.next ++ entry :: dedup.entries.drop (dedup.next + 1) :=
    set_eq_take_append_cons_drop .. |>.trans (if_pos hnext)
  have htail : dedup.ordered.tail = dedup.entries.drop (dedup.next + 1) ++
      dedup.entries.take dedup.next := by
    rw [ConnectionlessDedup.ordered, drop_eq_getElem_cons hnext]
    rfl
  rw [htail, ConnectionlessDedup.ordered]
  rcases lt_or_ge (dedup.next + 1) dedup.entries.length with hlt | hge
  · rw [mod_eq_of_lt hlt, hset]
    have htake : (dedup.entries.take dedup.next).length = dedup.next := length_take_of_le hnext.le
    simp [drop_append, take_append, htake, take_of_length_le]
  have hlast : dedup.next + 1 = dedup.entries.length := by omega
  rw [hlast, hset, drop_of_length_le hge]
  simp

theorem ring_new (hsize : 0 < size) : Ring size capacity (new size) [] :=
  ⟨length_replicate, hsize, by simp [new, ConnectionlessDedup.ordered], by simp [retained],
    by simp [retained]⟩

section

variable (h : Ring size capacity dedup stored)
include h

theorem find_eq_none {request : Request} :
    dedup.entries.reduceOption.find? (sameKey recordId request) = none ↔
      ∀ entry ∈ retained size stored, entry.key ≠ request.key recordId := by
  simp [reduceOption_mem_iff, h.mem_iff, sameKey_iff]

theorem find_eq (request : Request) {entry : Entry}
    (hentry : entry ∈ retained size stored) (hkey : entry.key = request.key recordId) :
    dedup.entries.reduceOption.find? (sameKey recordId request) = some entry := by
  cases hfind : dedup.entries.reduceOption.find? (sameKey recordId request) with
  | none => exact absurd hkey ((find_eq_none h).mp hfind entry hentry)
  | some found =>
    have hfound : found ∈ retained size stored :=
      (h.mem_iff found).mp (reduceOption_mem_iff.mp (mem_of_find?_eq_some hfind))
    have hsame := (sameKey_iff recordId request found).mp (find?_some hfind)
    rw [inj_on_of_nodup_map h.keys hfound hentry (hsame.trans hkey.symm)]

theorem Ring.store {request : Request} {response : Bytes}
    (hnew : (check recordId dedup request []).1 = .New) (hfits : response.length ≤ capacity) :
    Ring size capacity (store recordId capacity dedup request response).1
      (stored ++ [entryOf recordId request response]) := by
  have hnone : dedup.entries.reduceOption.find? (sameKey recordId request) = none := by
    unfold check at hnew
    split at hnew
    · assumption
    · split at hnew <;> cases hnew
  rw [find_eq_none h] at hnone
  have hlength := h.length
  have hnext := h.next
  have hstore : (Connectionless.store recordId capacity dedup request response).1 =
      ⟨dedup.entries.set dedup.next (some (entryOf recordId request response)),
        (dedup.next + 1) % dedup.entries.length⟩ := by
    have hroom : ¬ (dedup.entries.length = 0 ∨ capacity < response.length) := by omega
    rw [Connectionless.store, if_neg hroom]
  have hsub : (retained size (stored ++ [entryOf recordId request response])).Sublist
      (retained size stored ++ [entryOf recordId request response]) := by
    unfold retained
    rw [drop_append, length_append, length_singleton]
    exact (drop_sublist_drop_left _ (by omega)).append (drop_sublist _ _)
  rw [hstore]
  refine ⟨?_, ?_, ?_, ?_, ?_⟩
  · rw [length_set, hlength]
  · rw [hlength]
    exact mod_lt _ (by omega)
  · rw [ordered_set (by omega), h.ordered, tail_drop, map_append, ← append_assoc, length_append]
    exact (drop_append_of_le_length (by simp; omega)).symm
  · refine (hsub.map _).nodup ?_
    rw [map_append, map_singleton, ← concat_eq_append, nodup_concat]
    refine ⟨fun hmem => ?_, h.keys⟩
    obtain ⟨entry, hentry, hkey⟩ := mem_map.mp hmem
    exact hnone entry hentry hkey
  · intro entry hentry
    rcases mem_append.mp (hsub.subset hentry) with hold | hmem
    · exact h.fits entry hold
    · rw [mem_singleton.mp hmem]
      exact hfits

end

theorem Reached.ring (h : Reached recordId size capacity dedup stored) (hsize : 0 < size) :
    Ring size capacity dedup stored := by
  induction h with
  | new => exact ring_new hsize
  | store _ hnew hfits ih => exact ih.store hnew hfits

/-- While each stored request is new when it is stored, a check replays the answer to the request
with its key and fingerprint among the last `size` stores, refuses another fingerprint, and calls
everything else new. -/
theorem check_exact (hsize : 0 < size) (h : Reached recordId size capacity dedup stored)
    (request : Request) (output : Bytes) (houtput : capacity ≤ output.length) :
    (∀ entry ∈ retained size stored, entry.key = request.key recordId →
      check recordId dedup request output = if entry.fingerprint = fingerprint request.payload then
          (.Replay entry.response.length, entry.response ++ output.drop entry.response.length)
        else (.Conflict, output)) ∧
    ((∀ entry ∈ retained size stored, entry.key ≠ request.key recordId) →
      check recordId dedup request output = (.New, output)) := by
  have hring := h.ring hsize
  refine ⟨?_, ?_⟩
  · intro entry hentry hkey
    have hfits := hring.fits entry hentry
    simp only [check, find_eq hring request hentry hkey]
    split <;> split <;> grind
  · intro hnone
    simp only [check, (find_eq_none hring).mpr hnone]

/-- The answer to a packet comes back to the same packet. -/
theorem answer_replayed : check (fun _ => none)
    (store (fun _ => none) 1 (new 1) ⟨1, [7]⟩ [9]).1 ⟨1, [7]⟩ [0] =
    (.Replay 1, [9]) :=
  (check_exact one_pos (.store .new rfl (by decide)) ⟨1, [7]⟩ [0] (by decide)).1 _ mem_cons_self rfl

/-- Two payloads with one fingerprint share an answer; and of two requests that share a key and were
both new before either was stored, the second is refused after it was. -/
theorem answers_crossed : check (fun _ => none)
    (store (fun _ => none) 1 (new 1) ⟨1, [103, 108, 98, 118, 98]⟩ [9]).1
      ⟨1, [121, 97, 99, 120, 112]⟩ [0] = (.Replay 1, [9]) ∧
    check (fun _ => none) (new 2) ⟨1, [1]⟩ [0] = (.New, [0]) ∧ check (fun _ => none)
    (new 2) ⟨1, [2]⟩ [0] = (.New, [0]) ∧
    check (fun _ => none) (store (fun _ => none) 1 (store (fun _ => none) 1 (new 2) ⟨1, [1]⟩ [8]).1
      ⟨1, [2]⟩ [9]).1
      ⟨1, [2]⟩ [0] = (.Conflict, [0]) := by
  decide +kernel

end Dedup

end QuicLite.Connectionless
