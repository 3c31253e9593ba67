import Mathlib.Data.List.Induction
import Mathlib.Data.List.Nodup
import QuicLite.Wire.Varint

/-!
# The frame store

A frame is not stored again when a row with its hash and source carries its sequence number, or none
at all. SQL compares NULL with nothing, so the clause is not symmetric: an unnumbered row absorbs a
numbered frame, and not the other way round.

* `selects` — the clause of the query, in three-valued logic; `insertFrame` is the call around it.
* `keys_nodup` — whatever the frames, no key is stored twice: a row with the frame's own key always
  selects it.
* `SeqUniform` — keeps numbered and unnumbered frames apart. Under it a row selects exactly the
  frames with its key
  (`selects_iff`), so the rows are the frames' keys (`Rows`) in whatever order they come.
* `frames_deduplicated` — both together.
-/

namespace QuicLite.Store

open List

def fnv1a32 (bytes : Bytes) : UInt32 :=
  bytes.foldl (fun acc byte => (acc * 16777619) ^^^ byte.toUInt32) 0x811c9dc5

structure FrameRecord where
  protocol : String
  payloadHash : UInt32
  srcDevice : String
  targetDevice : Option String
  seq : Option UInt16
  msgType : Option String
  payload : Bytes
  rssi : Option Int32
  timestamp : Int64

/-! ## The query -/

/-- `a = b` of SQL, unknown when a side is NULL. -/
def sqlEq {α : Type} [DecidableEq α] : Option α → Option α → Option Bool
  | some a, some b => some (decide (a = b))
  | _, _ => none

/-- `a OR b` of SQL. -/
def sqlOr : Option Bool → Option Bool → Option Bool
  | some true, _ => some true
  | _, some true => some true
  | some false, b => b
  | none, _ => none

/-- `payload_hash = ? AND src_device = ? AND (seq = ? OR seq IS NULL)` -/
def selects (frame row : FrameRecord) : Bool :=
  row.payloadHash == frame.payloadHash && row.srcDevice == frame.srcDevice &&
    sqlOr (sqlEq row.seq frame.seq) (some row.seq.isNone) == some true

/-- The rows after the call, and the id it returns. Ids count from one. -/
def insertFrame (rows : List FrameRecord) (frame : FrameRecord) : List FrameRecord × Nat :=
  match rows.findIdx? (selects frame) with
  | some index => (rows, index + 1)
  | none => (rows ++ [frame], rows.length + 1)

def insertFrames (rows frames : List FrameRecord) : List FrameRecord :=
  frames.foldl (fun rows frame => (insertFrame rows frame).1) rows

theorem insertFrame_rows (rows : List FrameRecord) (frame : FrameRecord) :
    (insertFrame rows frame).1 = if rows.any (selects frame) then rows else rows ++ [frame] := by
  unfold insertFrame
  cases hfind : rows.findIdx? (selects frame) with
  | none =>
    simpa [findIdx?_eq_none_iff] using hfind
  | some index =>
    rw [if_pos]
    obtain ⟨hlt, hselects, -⟩ := findIdx?_eq_some_iff_getElem.mp hfind
    exact any_eq_true.mpr ⟨_, getElem_mem hlt, hselects⟩

/-! ## Deduplication -/

/-- What a store that identifies frames by `key` does with a sequence of them. -/
structure Deduplicated {κ : Type} (key : FrameRecord → κ) (frames : List FrameRecord) : Prop where
  dropped : ∀ before frame after, frames = before ++ frame :: after →
    (insertFrame (insertFrames [] before) frame).1 = insertFrames [] before →
      key frame ∈ (insertFrames [] before).map key
  once : ((insertFrames [] frames).map key).Nodup
  stored : ∀ frame ∈ frames, key frame ∈ (insertFrames [] frames).map key
  order : ∀ frames', frames'.Perm frames →
    ∀ k, k ∈ (insertFrames [] frames').map key ↔ k ∈ (insertFrames [] frames).map key

def payloadKey (frame : FrameRecord) : String × Option UInt16 × Bytes :=
  (frame.srcDevice, frame.seq, frame.payload)

def hashKey (frame : FrameRecord) : String × Option UInt16 × UInt32 :=
  (frame.srcDevice, frame.seq, frame.payloadHash)

/-- Frames of one source with one hash either all have a sequence number, or none has. -/
def SeqUniform (frames : List FrameRecord) : Prop :=
  ∀ f ∈ frames, ∀ g ∈ frames, f.srcDevice = g.srcDevice → f.payloadHash = g.payloadHash →
    f.seq.isSome = g.seq.isSome

instance (frames : List FrameRecord) : Decidable (SeqUniform frames) :=
  inferInstanceAs (Decidable (∀ f ∈ frames, ∀ g ∈ frames, _))

section Uniform

variable {frames : List FrameRecord} {frame : FrameRecord} {rows : List FrameRecord}

/-- A row with the frame's key selects it, numbered or not. -/
theorem selects_of_key {row : FrameRecord} (h : hashKey row = hashKey frame) :
    selects frame row = true := by
  simp only [hashKey, Prod.mk.injEq] at h
  obtain ⟨hsource, hseq, hhash⟩ := h
  unfold selects
  rw [hsource, hseq, hhash]
  cases frame.seq <;> simp [sqlOr, sqlEq]

theorem insertFrame_nodup (h : (rows.map hashKey).Nodup) :
    ((insertFrame rows frame).1.map hashKey).Nodup := by
  rw [insertFrame_rows]
  split_ifs with hfound
  · exact h
  rw [map_append]
  refine nodup_append.mpr ⟨h, nodup_singleton _, ?_⟩
  rintro a ha b hb rfl
  obtain ⟨row, hrow, hkey⟩ := mem_map.mp ha
  exact hfound (any_eq_true.mpr ⟨row, hrow, selects_of_key (hkey.trans (mem_singleton.mp hb))⟩)

/-- No key is stored twice, whatever the frames. -/
theorem keys_nodup (frames : List FrameRecord) : ((insertFrames [] frames).map hashKey).Nodup := by
  induction frames using reverseRecOn with
  | nil => exact nodup_nil
  | append_singleton frames frame ih =>
    rw [insertFrames, foldl_append]
    exact insertFrame_nodup ih

theorem selects_iff {row : FrameRecord}
    (h : row.srcDevice = frame.srcDevice → row.payloadHash = frame.payloadHash →
    row.seq.isSome = frame.seq.isSome) :
    selects frame row = true ↔ hashKey row = hashKey frame := by
  unfold selects hashKey
  cases hseq : frame.seq with
  | none =>
    cases hrow : row.seq with
    | none => simp [sqlOr, sqlEq, and_comm]
    | some => simp [sqlOr, sqlEq]
  | some a =>
    cases hrow : row.seq with
    | none => simpa [hseq, hrow, sqlOr, sqlEq, and_comm] using h
    | some b => by_cases hne : b = a <;> simp [hne, sqlOr, sqlEq, and_comm]

/-- The rows are some of the frames, and every key has a row. -/
structure Rows (frames rows : List FrameRecord) : Prop where
  mem : ∀ row ∈ rows, row ∈ frames
  keys : ∀ frame ∈ frames, hashKey frame ∈ rows.map hashKey

theorem any_selects (h : SeqUniform frames) (hframe : frame ∈ frames)
    (hrows : ∀ row ∈ rows, row ∈ frames) : rows.any (selects frame) = true ↔
      hashKey frame ∈ rows.map hashKey := by
  rw [any_eq_true, mem_map]
  refine exists_congr fun row => and_congr_right fun hrow => ?_
  exact selects_iff (h row (hrows row hrow) frame hframe)

theorem Rows.insert (h : Rows frames rows)
    (huniform : SeqUniform (frames ++ [frame])) : Rows (frames ++ [frame])
    (insertFrame rows frame).1 := by
  have hmem : ∀ row ∈ rows, row ∈ frames ++ [frame] :=
    fun row hrow => mem_append_left _ (h.mem row hrow)
  have hany := any_selects huniform (by simp : frame ∈ frames ++ [frame]) hmem
  rw [insertFrame_rows]
  split_ifs with hfound
  · refine ⟨hmem, ?_⟩
    intro f hf
    rcases mem_append.mp hf with hf | hf
    · exact h.keys f hf
    · obtain rfl := mem_singleton.mp hf
      exact hany.mp hfound
  refine ⟨?_, ?_⟩
  · intro row hrow
    rcases mem_append.mp hrow with hrow | hrow
    · exact hmem row hrow
    · exact mem_append_right _ hrow
  intro f hf
  rw [map_append]
  rcases mem_append.mp hf with hf | hf
  · exact mem_append_left _ (h.keys f hf)
  · exact mem_append_right _ (mem_map_of_mem hf)

theorem rows_insertFrames (h : SeqUniform frames) : Rows frames (insertFrames [] frames) := by
  induction frames using reverseRecOn with
  | nil => exact ⟨by simp [insertFrames], by simp⟩
  | append_singleton frames frame ih =>
    have hfirst : SeqUniform frames :=
      fun f hf g hg => h f (mem_append_left _ hf) g (mem_append_left _ hg)
    rw [insertFrames, foldl_append]
    exact (ih hfirst).insert h

theorem Rows.mem_keys_iff (h : Rows frames rows) (k : String × Option UInt16 × UInt32) :
    k ∈ rows.map hashKey ↔ k ∈ frames.map hashKey := by
  simp only [mem_map]
  constructor
  · rintro ⟨row, hrow, rfl⟩
    exact ⟨row, h.mem row hrow, rfl⟩
  · rintro ⟨frame, hframe, rfl⟩
    exact mem_map.mp (h.keys frame hframe)

/-- The hash identifies a frame. No key is stored twice; and where numbered and unnumbered frames do
not meet under one hash, what has a row is dropped and everything else gets one, in whatever
order. -/
theorem frames_deduplicated (frames : List FrameRecord) :
    ((insertFrames [] frames).map hashKey).Nodup ∧
      (SeqUniform frames → Deduplicated hashKey frames) := by
  refine ⟨keys_nodup frames, fun h => ⟨?_, keys_nodup frames, (rows_insertFrames h).keys, ?_⟩⟩
  · rintro before frame after rfl hsame
    have hbefore : SeqUniform before :=
      fun f hf g hg => h f (mem_append_left _ hf) g (mem_append_left _ hg)
    have hrows := rows_insertFrames hbefore
    rw [insertFrame_rows] at hsame
    split_ifs at hsame with hfound
    · exact (any_selects h (by simp) fun row hrow =>
        mem_append_left _ (hrows.mem row hrow)).mp hfound
    · simp at hsame
  · intro frames' hperm k
    have h' : SeqUniform frames' :=
      fun f hf g hg => h f (hperm.mem_iff.mp hf) g (hperm.mem_iff.mp hg)
    rw [(rows_insertFrames h').mem_keys_iff, (rows_insertFrames h).mem_keys_iff]
    exact (hperm.map hashKey).mem_iff

end Uniform

/-- A frame as the receivers build it. -/
def frameOf (seq : Option UInt16) (payload : Bytes) : FrameRecord :=
  ⟨"dmesh_nan_followup", fnv1a32 payload, "010203040506", none, seq, none, payload, none, 0⟩

theorem numbered_deduplicated :
    Deduplicated hashKey [frameOf (some 1) [7], frameOf (some 2) [7], frameOf (some 1) [7]] :=
  (frames_deduplicated _).2 (by decide +kernel)

/-- Two payloads with one hash are one frame to the store; and whether a numbered frame is stored
beside an unnumbered one depends on which comes first. -/
theorem payloads_confused : ¬ Deduplicated payloadKey [frameOf (some 1) [119, 97, 106, 98, 97, 113],
      frameOf (some 1) [98, 104, 101, 97, 115, 111]] ∧
    ¬ Deduplicated payloadKey [frameOf (some 1) [7], frameOf none [7]] := by
  refine ⟨fun h => ?_, fun h => ?_⟩
  · have hmem := h.stored (frameOf (some 1) [98, 104, 101, 97, 115, 111]) (by simp)
    revert hmem
    decide +kernel
  have hmem := (h.order _ (.swap _ _ [])) ("010203040506", some 1, [7])
  revert hmem
  decide +kernel

end QuicLite.Store
