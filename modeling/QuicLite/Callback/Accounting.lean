import QuicLite.Callback.Streams
import Mathlib.Data.List.Nodup

/-!
# Byte accounting of ordered delivery

`retained_bytes` is a running counter. It is meant to equal the bytes really held (`Exact`), with
every stream's retained ranges sorted, disjoint and at or above its cursor.

The counter is maintained incrementally, and three kinds of input break it:
* a frame borrowed at the cursor whose accepted part reaches into a retained range;
* a duplicate of the chunk the application holds a lease on;
* a FIN below data that is already retained or leased.

`Clean` excludes them, step by step, and `exec_exact` shows that nothing else goes wrong.

* `Tidy` — the invariant of one stream that carries the induction: retained ranges start behind the
  leased chunk, end by the final size, and only a FIN is empty.
* `insert_tidy`, `nextChunk_tidy`, `done_tidy`, `drainLoop_tracks` — each operation on one stream
  keeps
  it tidy and accounts for the bytes it takes or gives back.
* `Inv` — every stream is tidy, and the counter is the sum; one lemma per call (`receiveLeased_inv`,
  `tryReceiveCopyingRange_inv`, `done_inv`, `reset_inv`), gathered in `step_inv`.
* `exec_exact` — exact after any run of clean calls.
-/

namespace QuicLite.Callback

open FirstMatch List Nat Retained CallbackStreams OrderedStream

variable {n stop start id stream : Nat} {fin : Bool} {st' : OrderedStream} {packet : Bytes}
    {item : Retained}
variable {r : Retained} {l rest : List Retained} {s' : CallbackStreams}

namespace OrderedStream

/-- Bytes of the chunk the application holds. -/
def outLen (st : OrderedStream) : Nat := (st.outstanding.map Outstanding.len).getD 0

/-- Bytes a stream keeps alive. -/
def held (st : OrderedStream) : Nat := (st.retained.map Retained.len).sum + st.outLen

end OrderedStream

/-- Offset just past a retained range. -/
def Retained.endOffset (r : Retained) : Nat := r.offset + r.len

def CallbackStreams.held (s : CallbackStreams) : Nat := (s.streams.map OrderedStream.held).sum

/-- The counter is right, and every stream's ranges are sorted, disjoint and not below the cursor.
In particular a stream that has been removed no longer counts. -/
structure Exact (s : CallbackStreams) : Prop where
  counter : s.retainedBytes = s.held
  sorted : ∀ st ∈ s.streams, st.retained.Pairwise (fun a b => a.endOffset ≤ b.offset)
  ahead : ∀ st ∈ s.streams, ∀ r ∈ st.retained, st.consumed ≤ r.offset

/-! ## The inputs that keep the accounting exact

A call that the checks of the code refuse changes nothing, so it is always allowed. `admits`
collects the checks of `insert`; the conditions below are about calls that pass them.
-/

namespace OrderedStream

variable (self : OrderedStream)

/-- The checks of `insertTrimmed`: no conflict with a retained range, and room for bytes that are
new. -/
def admitsTrimmed (packet : Bytes) (offset start stop : Nat) (maxNewBytes : Nat)
    (heap : Heap) : Bool :=
  !self.retained.any (fun existing => conflicts existing packet offset start stop) &&
    (self.retained.any (fun existing => sameRange existing packet offset start stop) ||
      (decide (stop - start ≤ maxNewBytes) && heap.retained))

/-- The checks of `insert`: the range and the final size, then those of the part above the
cursor. -/
def admits (packet : Bytes) (offset start stop : Nat) (fin : Bool) (maxNewBytes : Nat)
    (heap : Heap) : Bool :=
  let len := stop - start
  let trim := self.consumed - offset
  decide (start ≤ stop ∧ stop ≤ packet.length) && decide (offset + len < usizeBound) &&
    !self.finConflict fin (offset + len) &&
    (decide (offset + len ≤ self.consumed ∧ ¬(len = 0 ∧ fin ∧ offset = self.consumed)) ||
      decide (start + trim = stop ∧ ¬fin) ||
      self.admitsTrimmed packet (satAdd offset trim) (start + trim) stop maxNewBytes heap)

/-- A frame `[offset, offset + len)` that does not run into the leased chunk, and whose FIN is not
below data the stream still holds. -/
def Clear (st : OrderedStream) (offset len : Nat) (fin : Bool) : Prop :=
  (len = 0 ∨ st.outLen = 0 ∨ offset + len ≤ st.consumed ∨ st.consumed + st.outLen ≤ offset) ∧
  (fin = true → st.finalSize = none → offset + len < st.consumed ∨
    (st.consumed + st.outLen ≤ offset + len ∧ ∀ r ∈ st.retained, r.endOffset ≤ offset + len))

end OrderedStream

namespace CallbackStreams

variable (s : CallbackStreams) (st : OrderedStream)

/-- A range that is retained is clear of what the stream holds. -/
def RetainClear (packet : Bytes) (offset start stop : Nat) (fin : Bool) (heap : Heap) : Prop :=
  st.admits packet offset start stop fin (s.maxRetainedBytes - s.retainedBytes) heap = true →
    st.Clear offset (stop - start) fin

/-- After the first `n` bytes of a frame at the cursor, the rest of it is retained. -/
def keepsRest (bytes : Bytes) (offset n : Nat) (fin : Bool) (storageOffset : Nat)
    (retain : Except CallbackError Bytes) (heap : Heap) : Bool :=
  decide (satAdd s.retainedBytes (bytes.length - n) ≤ s.maxRetainedBytes) &&
    match retain with
    | .error _ => false
    | .ok packet =>
      admits { st with
        consumed := offset + n } packet (offset + n) (storageOffset + n)
        (storageOffset + bytes.length) fin (s.maxRetainedBytes - s.retainedBytes) heap

/-- What the application accepts of a frame at the cursor ends before the first retained range, and
a first FIN that takes effect is not below any of them. -/
def CursorClear (bytes : Bytes) (offset : Nat) (fin : Bool) (storageOffset : Nat)
    (retain : Except CallbackError Bytes) (heap : Heap) (consumer : Consumer) : Prop :=
  offset + bytes.length < usizeBound → st.finConflict fin (offset + bytes.length) = false →
    match consumer st.id offset fin bytes with
    | none => True
    | some n => n ≤ bytes.length → (∀ r ∈ st.retained, offset + n ≤ r.offset) ∧
        (fin = true → st.finalSize = none →
          n = bytes.length ∨ s.keepsRest st bytes offset n fin storageOffset retain heap = true →
            ∀ r ∈ st.retained, r.endOffset ≤ offset + bytes.length)

/-- The condition on a frame offered for copying: at the cursor the consumer gets it, elsewhere it
is retained first. -/
def CopyClear (bytes : Bytes) (offset : Nat) (fin : Bool) (storageOffset : Nat)
    (retain : Except CallbackError Bytes) (heap : Heap) (consumer : Consumer) : Prop :=
  if st.atCursor offset then s.CursorClear st bytes offset fin storageOffset retain heap consumer
  else
    match retain with
    | .error _ => True
    | .ok packet =>
      s.RetainClear st packet offset storageOffset (storageOffset + bytes.length) fin heap

end CallbackStreams

/-- The condition on one call: it is about the frame, the consumer's answer and the state before. -/
def Clean (s : CallbackStreams) : Op → Prop
  | .receiveLeased stream packet offset start stop fin heap =>
    ∀ st ∈ s.streams, st.id = stream → s.RetainClear st packet offset start stop fin heap
  | .receiveCopying stream packet offset start stop fin heap consumer =>
    start ≤ stop ∧ stop ≤ packet.length → ∀ st ∈ s.streams, st.id = stream →
      s.CopyClear st (slice packet start stop) offset fin start (.ok packet) heap consumer
  | .receiveBorrowed stream bytes offset fin retain heap consumer =>
    ∀ st ∈ s.streams, st.id = stream → s.CopyClear st bytes offset fin 0 retain heap consumer
  | _ => True

instance (st : OrderedStream) (offset len : Nat) (fin : Bool) :
    Decidable (st.Clear offset len fin) :=
  inferInstanceAs (Decidable (_ ∧ _))

section

variable (s : CallbackStreams) (st : OrderedStream)

instance (packet : Bytes) (offset start stop : Nat) (fin : Bool) (heap : Heap) :
    Decidable (s.RetainClear st packet offset start stop fin heap) :=
  inferInstanceAs (Decidable (_ → _))

variable (bytes : Bytes) (offset : Nat) (fin : Bool) (storageOffset : Nat)
  (retain : Except CallbackError Bytes) (heap : Heap) (consumer : Consumer)

instance : Decidable (s.CursorClear st bytes offset fin storageOffset retain heap consumer) :=
  match h : consumer st.id offset fin bytes with
  | none => isTrue (by simp [CursorClear, h])
  | some n => decidable_of_iff (offset + bytes.length < usizeBound →
      st.finConflict fin (offset + bytes.length) = false → n ≤ bytes.length →
        (∀ r ∈ st.retained, offset + n ≤ r.offset) ∧ (fin = true → st.finalSize = none →
          n = bytes.length ∨ s.keepsRest st bytes offset n fin storageOffset retain heap = true →
            ∀ r ∈ st.retained, r.endOffset ≤ offset + bytes.length)) (by simp only [CursorClear, h])

instance : Decidable (s.CopyClear st bytes offset fin storageOffset retain heap consumer) :=
  if h : st.atCursor offset = true then
    decidable_of_iff (s.CursorClear st bytes offset fin storageOffset retain heap consumer)
      (by simp [CopyClear, h])
  else
    match retain with
    | .error _ => isTrue (by simp [CopyClear, h])
    | .ok packet => decidable_of_iff
        (s.RetainClear st packet offset storageOffset (storageOffset + bytes.length) fin heap)
          (by simp [CopyClear, h])

end

/-- A fresh stream holds nothing a frame could run into. -/
theorem OrderedStream.Clear.new (id offset len : Nat) (fin : Bool) :
    (OrderedStream.new id).Clear offset len fin := by
  simp [OrderedStream.Clear, OrderedStream.new, OrderedStream.outLen]

theorem CallbackStreams.CopyClear.new (s : CallbackStreams) (id : Nat) {bytes : Bytes}
    {offset : Nat} {fin : Bool} {storageOffset : Nat} {retain : Except CallbackError Bytes}
    {heap : Heap} {consumer : Consumer} :
    s.CopyClear (OrderedStream.new id) bytes offset fin storageOffset retain heap consumer := by
  unfold CopyClear
  split_ifs
  · intro _ _
    split
    · trivial
    · simp [OrderedStream.new]
  · split
    · trivial
    · exact fun _ => .new ..

instance (s : CallbackStreams) (op : Op) : Decidable (Clean s op) :=
  match op with
  | .receiveLeased .. => inferInstanceAs (Decidable (∀ _ ∈ _, _))
  | .receiveCopying .. => inferInstanceAs (Decidable (_ → ∀ _ ∈ _, _))
  | .receiveBorrowed .. => inferInstanceAs (Decidable (∀ _ ∈ _, _))
  | .resumeCopying .. => isTrue trivial
  | .done _ => isTrue trivial
  | .reset .. => isTrue trivial
  | .setLimits .. => isTrue trivial

/-! ## One stream -/

/-- The invariant of a stored stream. -/
structure Tidy (st : OrderedStream) : Prop where
  live : st.finished = false
  sorted : st.retained.Pairwise (fun a b => a.endOffset ≤ b.offset)
  ahead : ∀ r ∈ st.retained, st.consumed + st.outLen ≤ r.offset
  shape : ∀ r ∈ st.retained, r.start ≤ r.stop ∧ r.stop ≤ r.packet.length ∧ r.endOffset < usizeBound
  final : ∀ f, st.finalSize = some f → f < st.consumed ∨
    (st.consumed + st.outLen ≤ f ∧ ∀ r ∈ st.retained, r.endOffset ≤ f)
  ends : ∀ r ∈ st.retained, r.isEnd = true → st.finalSize = some r.endOffset
  zero : ∀ r ∈ st.retained, r.len = 0 → r.isEnd = true
  bounded : st.consumed + st.outLen < usizeBound

theorem length_slice (h : start ≤ stop ∧ stop ≤ packet.length) :
    (slice packet start stop).length = stop - start := by
  simp only [slice, length_take, length_drop]
  omega

namespace Tidy

variable {st : OrderedStream}

theorem length_bytes (h : Tidy st) (hr : r ∈ st.retained) : r.bytes.length = r.len := by
  obtain ⟨h₁, h₂, -⟩ := h.shape r hr
  exact length_slice ⟨h₁, h₂⟩

theorem new (id : Nat) : Tidy (new id) where
  live := rfl
  sorted := .nil
  ahead := by simp [OrderedStream.new]
  shape := by simp [OrderedStream.new]
  final := by simp [OrderedStream.new]
  ends := by simp [OrderedStream.new]
  zero := by simp [OrderedStream.new]
  bounded := by simp [OrderedStream.new, OrderedStream.outLen, usizeBound]

/-- The range at the cursor is the first one: everything else lies behind its end. -/
theorem split_cursor (h : Tidy st)
    (hfind : st.retained.find? (fun r => r.offset == st.consumed) = some item) :
    ∃ rest, st.retained = item :: rest ∧ item.offset = st.consumed ∧ st.outLen = 0 ∧
      (∀ r ∈ rest, item.endOffset ≤ r.offset) ∧
      st.retained.eraseP (fun r => r.offset == st.consumed) = rest ∧
      ∀ f, modifyFirst (fun r => r.offset == st.consumed) f st.retained = f item :: rest := by
  obtain ⟨l₁, l₂, hl, hbefore, hat, herase, hmodify⟩ := find?_split hfind
  have hoffset : item.offset = st.consumed := by simpa using hat
  have hahead := h.ahead item (by simp [hl])
  have hsorted := h.sorted
  rw [hl, pairwise_append] at hsorted
  obtain ⟨-, hsorted₂, hcross⟩ := hsorted
  have hnil : l₁ = [] := by
    cases l₁ with
    | nil => rfl
    | cons r l₁ =>
      -- An earlier range would have to end at the cursor and start at or above it.
      have h₁ := hcross r (by simp) item (by simp)
      have h₂ := h.ahead r (by simp [hl])
      have h₃ : r.offset ≠ st.consumed := by simpa using hbefore r (by simp)
      unfold endOffset at h₁
      omega
  subst hnil
  refine ⟨l₂, by simpa using hl, hoffset, by omega, ?_, by simpa using herase,
    fun f => by simpa using hmodify f⟩
  exact (pairwise_cons.mp hsorted₂).1

/-- Recording a FIN the frame is allowed to carry. -/
theorem noteFin (h : Tidy st) (hknown : fin = true → ∀ f, st.finalSize = some f → f = stop)
    (hnew : fin = true → st.finalSize = none → stop < st.consumed ∨
      (st.consumed + st.outLen ≤ stop ∧ ∀ r ∈ st.retained, r.endOffset ≤ stop)) :
    Tidy (st.noteFin fin stop) := by
  cases fin with
  | false => exact h
  | true =>
  cases hf : st.finalSize with
  | some f =>
    have : st.noteFin true stop = st := by
      rw [noteFin, if_pos rfl, ← hknown rfl f hf, ← hf]
    rw [this]
    exact h
  | none =>
    refine ⟨h.live, h.sorted, h.ahead, h.shape, ?_, ?_, h.zero, h.bounded⟩
    · intro f hf'
      obtain rfl : stop = f := by simpa [noteFin] using hf'
      exact hnew rfl hf
    intro r hr hend
    have := h.ends r hr hend
    rw [hf] at this
    simp at this

end Tidy

@[simp] theorem noteFin_id (st : OrderedStream) (fin : Bool) (stop : Nat) :
    (st.noteFin fin stop).id = st.id := by
  cases fin <;> rfl

@[simp] theorem noteFin_held (st : OrderedStream) (fin : Bool) (stop : Nat) :
    (st.noteFin fin stop).held = st.held := by
  cases fin <;> rfl

variable {offset : Nat}

/-- A range that neither conflicts with a retained one nor repeats it is disjoint from it. -/
theorem disjoint_of_not_conflicts {existing : Retained} (packet : Bytes)
    (hshape : existing.start ≤ existing.stop) (hrange : start ≤ stop)
    (hconflict : conflicts existing packet offset start stop = false)
    (hsame : sameRange existing packet offset start stop = false)
    (hlen : existing.len ≠ 0) (hnew : stop - start ≠ 0) :
    existing.endOffset ≤ offset ∨ offset + (stop - start) ≤ existing.offset := by
  by_contra hoverlap
  unfold endOffset at hoverlap
  simp only [conflicts] at hconflict
  rw [if_pos (by omega)] at hconflict
  simp only [Bool.or_eq_false_iff, decide_eq_false_iff_not, ne_eq, not_not] at hconflict
  obtain ⟨⟨hbytes, hoffset⟩, hlength⟩ := hconflict
  -- An overlap that passed the check is the very same range.
  have hsameBytes : existing.bytes = slice packet start stop := by
    rw [hoffset, hlength] at hbytes
    simp only [Nat.max_self, Nat.min_self, Nat.sub_self, Nat.add_zero,
      Nat.add_sub_cancel_left] at hbytes
    unfold bytes
    unfold len at hlength
    rwa [show start + (stop - start) = stop by omega,
      show existing.start + (stop - start) = existing.stop by omega] at hbytes
  simp [sameRange, hoffset, hlength, hsameBytes] at hsame

variable {st : OrderedStream}

theorem finConflict_eq_false : st.finConflict fin stop = false ↔
      ∀ f, st.finalSize = some f → stop ≤ f ∧ (fin = true → stop = f) := by
  unfold finConflict
  cases st.finalSize with
  | none => simp
  | some f =>
    cases fin <;> simp

section Insert

variable {st : OrderedStream} {packet : Bytes} {offset start stop : Nat} {fin : Bool}
variable {maxNewBytes : Nat} {heap : Heap}

theorem admitsTrimmed_iff (fin : Bool) :
    st.admitsTrimmed packet offset start stop maxNewBytes heap = true ↔
    ∃ result, st.insertTrimmed packet offset start stop fin maxNewBytes heap = .ok result := by
  unfold insertTrimmed admitsTrimmed
  generalize st.retained.any (fun existing => conflicts existing packet offset start stop) = clash
  generalize st.retained.any (fun existing => sameRange existing packet offset start stop) = again
  by_cases hroom : stop - start > maxNewBytes
  · have : ¬(stop - start ≤ maxNewBytes) := by omega
    cases clash <;> cases again <;> simp [hroom, this]
  · have : stop - start ≤ maxNewBytes := by omega
    cases clash <;> cases again <;> cases heap.retained <;> simp [hroom, this]

/-- `admits` says exactly which frames `insert` takes. -/
theorem admits_iff : st.admits packet offset start stop fin maxNewBytes heap = true ↔
    ∃ result, st.insert packet offset start stop fin maxNewBytes heap = .ok result := by
  unfold OrderedStream.insert admits
  simp only
  by_cases hbad : start > stop ∨ stop > packet.length
  · rw [if_pos hbad]
    simp [show ¬(start ≤ stop ∧ stop ≤ packet.length) by omega]
  by_cases hover : usizeBound ≤ offset + (stop - start)
  · rw [if_neg hbad, if_pos hover]
    simp [show ¬(offset + (stop - start) < usizeBound) by omega]
  cases hconflict : st.finConflict fin (offset + (stop - start)) with
  | true =>
    rw [if_neg hbad, if_neg hover]
    simp
  | false =>
  rw [if_neg hbad, if_neg hover,
    decide_eq_true (show start ≤ stop ∧ stop ≤ packet.length by omega),
    decide_eq_true (show offset + (stop - start) < usizeBound by omega)]
  simp only [Bool.false_eq_true, if_false, Bool.not_false, Bool.true_and, Bool.or_eq_true,
    decide_eq_true_eq, admitsTrimmed_iff fin]
  split_ifs with hold hempty
  · simp [hold]
  · simp [hempty]
  · exact or_iff_right (not_or.mpr ⟨hold, hempty⟩)

/-- Where `partition_point` puts a range that is disjoint from all the others. -/
theorem insertSorted_sorted (h : Tidy st) (packet : Bytes) (fin : Bool)
    (hdisjoint : ∀ r ∈ st.retained, r.len ≠ 0 → stop - start ≠ 0 →
      r.endOffset ≤ offset ∨ offset + (stop - start) ≤ r.offset)
    (hzero : ∀ r ∈ st.retained, r.len = 0 → offset + (stop - start) ≤ r.offset)
    (hfin : stop - start = 0 → ∀ r ∈ st.retained, r.endOffset ≤ offset) :
    (insertSorted ⟨offset, packet, start, stop, fin⟩ st.retained).Pairwise
      (fun a b => a.endOffset ≤ b.offset) := by
  have hsorted := h.sorted
  rw [← takeWhile_append_dropWhile (p := fun r => decide (r.offset ≤ offset)) (l := st.retained),
    pairwise_append] at hsorted
  obtain ⟨hleft, hright, hcross⟩ := hsorted
  have hbefore : ∀ r ∈ st.retained.takeWhile (fun r => decide (r.offset ≤ offset)),
      r.endOffset ≤ offset := by
    intro r hr
    have hmem : r ∈ st.retained := takeWhile_subset _ hr
    have hle : r.offset ≤ offset := by
      simpa using all_eq_true.mp all_takeWhile r hr
    by_cases hlen : r.len = 0
    · unfold endOffset
      omega
    by_cases hnew : stop - start = 0
    · exact hfin hnew r hmem
    rcases hdisjoint r hmem hlen hnew with hd | hd
    · exact hd
    · omega
  have hafter : ∀ r ∈ st.retained.dropWhile (fun r => decide (r.offset ≤ offset)),
      offset + (stop - start) ≤ r.offset := by
    intro r hr
    have hmem : r ∈ st.retained := (dropWhile_sublist _).subset hr
    -- The first range behind the partition point starts later, and so do all that follow it.
    have hgt : offset < r.offset := by
      cases hdrop : st.retained.dropWhile (fun r => decide (r.offset ≤ offset)) with
      | nil => rw [hdrop] at hr; simp at hr
      | cons x rest =>
      have hx : offset < x.offset := by
        have := head?_dropWhile_not (fun r : Retained => decide (r.offset ≤ offset)) st.retained
        simpa [hdrop] using this
      rw [hdrop] at hr hright
      rcases mem_cons.mp hr with rfl | hr
      · exact hx
      have := (pairwise_cons.mp hright).1 r hr
      unfold endOffset at this
      omega
    by_cases hlen : r.len = 0
    · exact hzero r hmem hlen
    by_cases hnew : stop - start = 0
    · omega
    rcases hdisjoint r hmem hlen hnew with hd | hd
    · unfold endOffset at hd
      omega
    · exact hd
  refine pairwise_append.mpr ⟨hleft, pairwise_cons.mpr ⟨hafter, hright⟩, ?_⟩
  intro a ha b hb
  rcases mem_cons.mp hb with rfl | hb
  · exact hbefore a ha
  · exact hcross a ha b hb

/-- Sorting a range in changes only the order. -/
theorem insertSorted_perm (item : Retained) (l : List Retained) :
    insertSorted item l ~ item :: l := by
  have := takeWhile_append_dropWhile (p := fun r : Retained => decide (r.offset ≤ item.offset))
    (l := l)
  unfold insertSorted
  conv_rhs => rw [← this]
  exact perm_middle

theorem mem_insertSorted : r ∈ insertSorted item l ↔ r = item ∨ r ∈ l := by
  rw [(insertSorted_perm item l).mem_iff, mem_cons]

theorem sum_insertSorted (item : Retained) (l : List Retained) :
    ((insertSorted item l).map len).sum = (l.map len).sum + item.len := by
  rw [((insertSorted_perm item l).map len).sum_nat, map_cons, sum_cons, add_comm]

/-- Retaining a range that lies behind the cursor and the leased chunk. -/
theorem insertTrimmed_tidy (h : Tidy st)
    (hrange : start ≤ stop ∧ stop ≤ packet.length) (hahead : st.consumed + st.outLen ≤ offset)
    (hbound : offset + (stop - start) < usizeBound) (hempty : stop - start = 0 → fin = true)
    (hconflict : st.finConflict fin (offset + (stop - start)) = false)
    (hfin : fin = true → st.finalSize = none → ∀ r ∈ st.retained,
      r.endOffset ≤ offset + (stop - start))
    (hinsert : st.insertTrimmed packet offset start stop fin maxNewBytes heap = .ok (st', n)) :
    Tidy st' ∧ st'.id = st.id ∧ st'.held = st.held + n ∧ n ≤ maxNewBytes := by
  rw [finConflict_eq_false] at hconflict
  -- A FIN, known before or carried now, is not below anything retained.
  have hfinal : fin = true → ∀ r ∈ st.retained, r.endOffset ≤ offset + (stop - start) := by
    intro hf r hr
    cases hsize : st.finalSize with
    | none => exact hfin hf hsize r hr
    | some f =>
      have heq := (hconflict f hsize).2 hf
      rcases h.final f hsize with hlow | ⟨-, hall⟩
      · omega
      · rw [heq]
        exact hall r hr
  have hknown : fin = true → ∀ f, st.finalSize = some f → f = offset + (stop - start) := by
    intro hf f hsize
    exact ((hconflict f hsize).2 hf).symm
  unfold insertTrimmed at hinsert
  split_ifs at hinsert with h₁ h₂ h₃ h₄
  · -- An exact retransmission: only its FIN is news.
    cases hinsert
    refine ⟨h.noteFin hknown ?_, by simp, by simp, zero_le _⟩
    intro hf _
    exact .inr ⟨by omega, hfinal hf⟩
  cases hinsert
  have hdisjoint : ∀ r ∈ st.retained, r.len ≠ 0 → stop - start ≠ 0 →
      r.endOffset ≤ offset ∨ offset + (stop - start) ≤ r.offset := by
    intro r hr hlen hnew
    refine disjoint_of_not_conflicts packet (h.shape r hr).1 hrange.1 ?_ ?_ hlen hnew
    · simp only [any_eq_true, not_exists, not_and] at h₁
      simpa using h₁ r hr
    · simp only [any_eq_true, not_exists, not_and] at h₂
      simpa using h₂ r hr
  have hzero : ∀ r ∈ st.retained, r.len = 0 → offset + (stop - start) ≤ r.offset := by
    intro r hr hlen
    have hsize := h.ends r hr (h.zero r hr hlen)
    have := (hconflict _ hsize).1
    unfold endOffset at this
    omega
  have hsorted := insertSorted_sorted h packet fin hdisjoint hzero (by
    intro hnew r hr
    have := hfinal (hempty hnew) r hr
    omega)
  have hstate : { st with
      retained := insertSorted ⟨offset, packet, start, stop, fin⟩ st.retained
        }.noteFin
      fin (offset + (stop - start)) = { st with
        retained := insertSorted ⟨offset, packet, start, stop, fin⟩ st.retained
        finalSize := if fin then some (offset + (stop - start)) else st.finalSize } := by
    cases fin <;> rfl
  have hmem : ∀ r ∈ insertSorted ⟨offset, packet, start, stop, fin⟩ st.retained,
      r = ⟨offset, packet, start, stop, fin⟩ ∨ r ∈ st.retained := fun r hr => mem_insertSorted.mp hr
  rw [hstate]
  refine ⟨⟨h.live, hsorted, ?_, ?_, ?_, ?_, ?_, h.bounded⟩, rfl, ?_, by omega⟩
  · intro r hr
    rcases hmem r hr with rfl | hr
    · exact hahead
    · exact h.ahead r hr
  · intro r hr
    rcases hmem r hr with rfl | hr
    · exact ⟨hrange.1, hrange.2, hbound⟩
    · exact h.shape r hr
  · intro f hf
    cases hfin' : fin with
    | true =>
      obtain rfl : offset + (stop - start) = f := by simpa [hfin'] using hf
      refine .inr ⟨by simp only [outLen] at hahead ⊢; omega, ?_⟩
      intro r hr
      rcases mem_insertSorted.mp hr with rfl | hr
      · exact le_refl _
      · exact hfinal hfin' r hr
    | false =>
      have hf : st.finalSize = some f := by simpa [hfin'] using hf
      rcases h.final f hf with hlow | ⟨hc, hall⟩
      · exact .inl hlow
      refine .inr ⟨hc, ?_⟩
      intro r hr
      rcases mem_insertSorted.mp hr with rfl | hr
      · exact (hconflict f hf).1
      · exact hall r hr
  · intro r hr hend
    rcases hmem r hr with rfl | hr
    · simp only at hend
      simp only [hend]
      rfl
    cases hfin' : fin with
    | true => rw [if_pos rfl, hknown hfin' _ (h.ends r hr hend)]
    | false => simpa using h.ends r hr hend
  · intro r hr hlen
    rcases hmem r hr with rfl | hr
    · exact hempty hlen
    · exact h.zero r hr hlen
  · simp only [OrderedStream.held, sum_insertSorted, OrderedStream.outLen, len]
    omega

/-- What `insert` does to a tidy stream, given a frame that is clear of what it holds. -/
theorem insert_tidy (h : Tidy st) (hclear : st.Clear offset (stop - start) fin)
    (hinsert : st.insert packet offset start stop fin maxNewBytes heap = .ok (st', n)) :
    Tidy st' ∧ st'.id = st.id ∧ st'.held = st.held + n ∧ n ≤ maxNewBytes := by
  obtain ⟨hlease, hfin⟩ := hclear
  unfold OrderedStream.insert at hinsert
  simp only at hinsert
  split_ifs at hinsert with hbad hover hconflict hold hempty
  · -- Delivered before.
    cases hinsert
    rw [Bool.not_eq_true, finConflict_eq_false] at hconflict
    refine ⟨h.noteFin ?_ hfin, by simp, by simp, zero_le _⟩
    intro hf f hsize
    exact ((hconflict f hsize).2 hf).symm
  · cases hinsert
    exact ⟨h, rfl, rfl, zero_le _⟩
  rw [Bool.not_eq_true] at hconflict
  have hexception : offset + (stop - start) ≤ st.consumed →
      stop - start = 0 ∧ fin = true ∧ offset = st.consumed := by
    intro hle
    by_contra hne
    exact hold ⟨hle, hne⟩
  have hfinOfEmpty : stop - (start + (st.consumed - offset)) = 0 → fin = true := by
    intro hz
    by_contra hne
    exact hempty ⟨by omega, hne⟩
  have htrim : satAdd offset (st.consumed - offset) = max offset st.consumed := by
    unfold satAdd
    omega
  have hend : max offset st.consumed + (stop - (start + (st.consumed - offset))) = offset +
      (stop - start) := by
    by_cases hle : offset + (stop - start) ≤ st.consumed
    · have := hexception hle
      omega
    · omega
  rw [htrim] at hinsert
  refine insertTrimmed_tidy h ⟨?_, by omega⟩ ?_ (by omega) hfinOfEmpty
    (by rw [hend]; exact hconflict) ?_
    hinsert
  · omega
  · -- Behind the leased chunk: there is none, or the frame starts after it, or it is an empty FIN,
    -- whose offset is the final size.
    have hemptyFin : stop - start = 0 → st.consumed + st.outLen ≤ max offset st.consumed := by
      intro hz
      have hf : fin = true := hfinOfEmpty (by omega)
      rw [finConflict_eq_false] at hconflict
      have hnotBelow : ¬offset + (stop - start) < st.consumed := by
        intro hlt
        omega
      cases hsize : st.finalSize with
      | none =>
        rcases hfin hf hsize with hlow | ⟨hc, -⟩
        · exact absurd hlow hnotBelow
        · omega
      | some f =>
        have := (hconflict f hsize).2 hf
        rcases h.final f hsize with hlow | ⟨hc, -⟩
        · omega
        · omega
    rcases hlease with hz | hz | hz | hz
    · exact hemptyFin hz
    · omega
    · exact hemptyFin (hexception hz).1
    · omega
  · intro hf hnone r hr
    rw [hend]
    rcases hfin hf hnone with hlow | ⟨-, hall⟩
    · have := hexception (by omega)
      omega
    · exact hall r hr

end Insert

/-- Leasing the range at the cursor moves its bytes from the retained list to the outstanding
chunk. -/
theorem nextChunk_tidy {chunk : StreamChunk} (h : Tidy st)
    (hnext : st.nextChunk = some (st', chunk)) :
    Tidy st' ∧ st'.id = st.id ∧ st'.held = st.held := by
  unfold nextChunk at hnext
  split_ifs at hnext with hbusy
  split at hnext
  · simp at hnext
  rename_i item hfind
  obtain ⟨rest, hretained, hoffset, hout, hrest, herase, -⟩ := h.split_cursor hfind
  obtain ⟨rfl, -⟩ := hnext
  have hmem : ∀ r ∈ rest, r ∈ st.retained := fun r hr => by simp [hretained, hr]
  have hitem : item ∈ st.retained := by simp [hretained]
  rw [herase]
  have hsorted := h.sorted
  rw [hretained] at hsorted
  refine ⟨⟨h.live, (pairwise_cons.mp hsorted).2, ?_, fun r hr => h.shape r (hmem r hr), ?_,
    fun r hr => h.ends r (hmem r hr), fun r hr => h.zero r (hmem r hr), ?_⟩, rfl, ?_⟩
  · intro r hr
    have := hrest r hr
    simpa [outLen, endOffset, ← hoffset] using this
  · intro f hf
    rcases h.final f hf with hlow | ⟨-, hall⟩
    · exact .inl hlow
    refine .inr ⟨?_, fun r hr => hall r (hmem r hr)⟩
    have := hall item hitem
    simpa [outLen, endOffset, ← hoffset] using this
  · have := (h.shape item hitem).2.2
    simpa [OrderedStream.outLen, endOffset, ← hoffset] using this
  · unfold OrderedStream.held
    rw [hout, hretained]
    simp [OrderedStream.outLen]
    omega

/-- A stream that reaches its final size holds nothing but empty ranges. -/
theorem held_eq_zero {f : Nat} (hlow : ∀ r ∈ l, f ≤ r.offset)
    (hhigh : ∀ r ∈ l, r.endOffset ≤ f) : (l.map len).sum = 0 := by
  rw [List.sum_eq_zero_iff_forall_eq_nat]
  intro n hn
  obtain ⟨r, hr, rfl⟩ := List.mem_map.mp hn
  have h₁ := hlow r hr
  have h₂ := hhigh r hr
  unfold endOffset at h₂
  omega

/-- Completing a chunk releases exactly its bytes; a completed final chunk leaves nothing behind. -/
theorem done_tidy {completion : StreamDone} {finished : Bool} (h : Tidy st)
    (hdone : st.done completion = .ok (st', finished)) :
    st'.id = st.id ∧ st'.held + st.outLen = st.held ∧ (finished = true → st'.held = 0) ∧
      (finished = false → Tidy st') := by
  unfold OrderedStream.done at hdone
  split at hdone
  · simp at hdone
  rename_i out hout
  have hlen : st.outLen = out.len := by simp [outLen, hout]
  split_ifs at hdone with hid hend
  cases hdone
  have hbounded := h.bounded
  have hsat : satAdd st.consumed out.len = st.consumed + out.len := by
    unfold satAdd
    omega
  have hheld : ∀ st'' : OrderedStream, st''.retained = st.retained → st''.outstanding = none →
      st''.held + out.len = st.held := by
    intro st'' hr ho
    simp [OrderedStream.held, OrderedStream.outLen, hr, ho, hout]
  refine ⟨rfl, by rw [hlen]; exact hheld _ rfl rfl, ?_, ?_⟩
  · intro hfinished
    have hsize : st.finalSize = some (st.consumed + out.len) := by
      by_contra hne
      exact hend ⟨hfinished, by rwa [hsat]⟩
    have hzero : (st.retained.map len).sum = 0 := by
      refine held_eq_zero (f := st.consumed + out.len) ?_ ?_
      · intro r hr
        have := h.ahead r hr
        omega
      rcases h.final _ hsize with hlow | ⟨-, hall⟩
      · omega
      · exact hall
    simp [OrderedStream.held, OrderedStream.outLen, hzero]
  · intro hnot
    refine ⟨by simp [h.live, hnot], h.sorted, ?_, h.shape, ?_, h.ends, h.zero, ?_⟩
    · intro r hr
      have := h.ahead r hr
      simp only [outLen, Option.map_none, Option.getD_none]
      omega
    · intro f hf
      simp only [outLen, Option.map_none, Option.getD_none]
      rcases h.final f hf with hlow | ⟨hc, hall⟩
      · exact .inl (by omega)
      · exact .inr ⟨by omega, hall⟩
    · simp only [outLen, Option.map_none, Option.getD_none]
      omega

/-! ## The draining loop -/

/-- While draining, the counter stands for the other streams' bytes and what this stream still
holds. -/
structure Tracks (rest id : Nat) (d : Drain) : Prop where
  counter : d.retainedBytes = rest + if d.removed then 0 else d.stream.held
  id_eq : d.stream.id = id
  tidy : d.removed = false → Tidy d.stream
  bounded : d.retainedBytes < usizeBound

/-- Accepting a proper part of the range at the cursor. -/
theorem tidy_advance (h : Tidy st)
    (hretained : st.retained = item :: rest) (hoffset : item.offset = st.consumed)
    (hout : st.outLen = 0) (hrest : ∀ r ∈ rest, item.endOffset ≤ r.offset) (hn : n < item.len) :
    Tidy { st with
      consumed := satAdd st.consumed n
      retained := { item with offset := satAdd item.offset n, start := item.start + n } :: rest } ∧
    held { st with
      consumed := satAdd st.consumed n
      retained := { item with offset := satAdd item.offset n, start := item.start + n } :: rest } +
        n = st.held := by
  have hitem : item ∈ st.retained := by simp [hretained]
  have hmem : ∀ r ∈ rest, r ∈ st.retained := fun r hr => by simp [hretained, hr]
  obtain ⟨hstart, hstop, hbound⟩ := h.shape item hitem
  have hlen : item.len = item.stop - item.start := rfl
  unfold endOffset at hbound
  have hsat : satAdd st.consumed n = st.consumed + n := by unfold satAdd; omega
  have hsat' : satAdd item.offset n = item.offset + n := by unfold satAdd; omega
  have hend : ({ item with offset := item.offset + n, start := item.start + n } :
    Retained).endOffset =
      item.endOffset := by
    simp only [endOffset, len]
    omega
  have hsorted := h.sorted
  rw [hretained, pairwise_cons] at hsorted
  rw [hsat, hsat']
  refine ⟨⟨h.live, pairwise_cons.mpr ⟨by rw [hend]; exact hrest, hsorted.2⟩, ?_, ?_, ?_, ?_, ?_,
    ?_⟩, ?_⟩
  · intro r hr
    show st.consumed + n + st.outLen ≤ r.offset
    rcases mem_cons.mp hr with rfl | hr
    · simp only
      omega
    have := hrest r hr
    unfold endOffset at this
    omega
  · intro r hr
    rcases mem_cons.mp hr with rfl | hr
    · refine ⟨by simp only; omega, hstop, ?_⟩
      rw [hend]
      exact hbound
    · exact h.shape r (hmem r hr)
  · intro f hf
    show f < st.consumed + n ∨ (st.consumed + n + st.outLen ≤ f ∧ _)
    rcases h.final f hf with hlow | ⟨-, hall⟩
    · exact .inl (by omega)
    have := hall item hitem
    unfold endOffset at this
    refine .inr ⟨by omega, ?_⟩
    intro r hr
    rcases mem_cons.mp hr with rfl | hr
    · rw [hend]
      exact hall item hitem
    · exact hall r (hmem r hr)
  · intro r hr hisEnd
    rcases mem_cons.mp hr with rfl | hr
    · rw [hend]
      exact h.ends item hitem hisEnd
    · exact h.ends r (hmem r hr) hisEnd
  · intro r hr hz
    rcases mem_cons.mp hr with rfl | hr
    · simp only [len] at hz
      omega
    · exact h.zero r (hmem r hr) hz
  · show st.consumed + n + st.outLen < usizeBound
    omega
  · unfold OrderedStream.held
    rw [hretained]
    simp only [map_cons, sum_cons, OrderedStream.outLen, len]
    omega

theorem tidy_consume (h : Tidy st)
    (hretained : st.retained = item :: rest) (hoffset : item.offset = st.consumed)
    (hout : st.outLen = 0) (hrest : ∀ r ∈ rest, item.endOffset ≤ r.offset) :
    Tidy { st with consumed := satAdd st.consumed item.len, retained := rest } ∧
    held { st with consumed := satAdd st.consumed item.len, retained := rest } +
      item.len =
        st.held ∧ (item.isEnd = true → (rest.map len).sum = 0) := by
  have hitem : item ∈ st.retained := by simp [hretained]
  have hmem : ∀ r ∈ rest, r ∈ st.retained := fun r hr => by simp [hretained, hr]
  obtain ⟨hstart, hstop, hbound⟩ := h.shape item hitem
  unfold endOffset at hbound
  have hsat : satAdd st.consumed item.len = st.consumed + item.len := by unfold satAdd; omega
  have hsorted := h.sorted
  rw [hretained, pairwise_cons] at hsorted
  rw [hsat]
  refine ⟨⟨h.live, hsorted.2, ?_, fun r hr => h.shape r (hmem r hr), ?_,
    fun r hr => h.ends r (hmem r hr), fun r hr => h.zero r (hmem r hr), ?_⟩, ?_, ?_⟩
  · intro r hr
    show st.consumed + item.len + st.outLen ≤ r.offset
    have := hrest r hr
    unfold endOffset at this
    omega
  · intro f hf
    show f < st.consumed + item.len ∨ (st.consumed + item.len + st.outLen ≤ f ∧ _)
    rcases h.final f hf with hlow | ⟨-, hall⟩
    · exact .inl (by omega)
    have := hall item hitem
    unfold endOffset at this
    exact .inr ⟨by omega, fun r hr => hall r (hmem r hr)⟩
  · show st.consumed + item.len + st.outLen < usizeBound
    omega
  · unfold OrderedStream.held
    rw [hretained]
    simp only [map_cons, sum_cons, OrderedStream.outLen]
    omega
  · intro hisEnd
    have hsize := h.ends item hitem hisEnd
    refine held_eq_zero hrest ?_
    rcases h.final _ hsize with hlow | ⟨-, hall⟩
    · unfold endOffset at hlow
      omega
    · exact fun r hr => hall r (hmem r hr)

theorem drainLoop_tracks (consumer : Consumer) (rest id : Nat) (fuel : Nat) (d : Drain)
    (h : Tracks rest id d) (hlive : d.removed = false) :
    Tracks rest id (drainLoop consumer fuel d) := by
  induction fuel generalizing d with
  | zero => exact h
  | succ fuel ih =>
    have htidy := h.tidy hlive
    have hcounter := h.counter
    have hbounded := h.bounded
    rw [hlive] at hcounter
    simp only [Bool.false_eq_true, if_false] at hcounter
    unfold drainLoop
    simp only
    split_ifs with hbusy
    · exact h
    split
    · exact h
    rename_i item hfind
    obtain ⟨tail, hretained, hoffset, hout, htail, herase, hmodify⟩ := htidy.split_cursor hfind
    have hbytes : item.bytes.length = item.len := htidy.length_bytes (by simp [hretained])
    split
    · exact ⟨h.counter, h.id_eq, h.tidy, h.bounded⟩
    rename_i n _
    split_ifs with hover hrefused hpart hend
    · exact ⟨h.counter, h.id_eq, h.tidy, h.bounded⟩
    · exact h
    · obtain ⟨htidy', hheld⟩ := tidy_advance (n := n) htidy hretained hoffset hout htail (by omega)
      rw [hmodify]
      refine ⟨?_, h.id_eq, fun _ => htidy', by simp only; omega⟩
      simp only [hlive, Bool.false_eq_true, if_false]
      omega
    · -- The final range: nothing is left to count.
      obtain ⟨-, hheld, hzero⟩ := tidy_consume htidy hretained hoffset hout htail
      refine ⟨?_, h.id_eq, by simp, by simp only; omega⟩
      have hfull : d.stream.held = item.len := by
        unfold OrderedStream.held
        rw [hretained, map_cons, sum_cons, hzero hend]
        omega
      simp only [if_true]
      omega
    · obtain ⟨htidy', hheld, -⟩ := tidy_consume htidy hretained hoffset hout htail
      rw [herase]
      refine ih _ ⟨?_, h.id_eq, fun _ => ?_, by simp only; omega⟩ hlive
      · simp only [hlive, Bool.false_eq_true, if_false]
        have : n = item.len := by omega
        subst this
        omega
      have : n = item.len := by omega
      subst this
      exact htidy'

/-! ## The table of streams -/

/-- The invariant of the whole table. -/
structure Inv (s : CallbackStreams) : Prop where
  counter : s.retainedBytes = s.held
  tidy : ∀ st ∈ s.streams, Tidy st
  ids : (s.streams.map OrderedStream.id).Nodup
  limit : s.maxRetainedBytes < usizeBound
  bounded : s.retainedBytes < usizeBound

namespace Inv

variable {s : CallbackStreams} {id : Nat} {st st' : OrderedStream}

theorem exact (h : Inv s) : Exact s where
  counter := h.counter
  sorted st hst := (h.tidy st hst).sorted
  ahead st hst r hr := by
    have := (h.tidy st hst).ahead r hr
    omega

theorem new (maxStreams maxRetainedBytes : Fin usizeBound) :
    Inv (CallbackStreams.new maxStreams maxRetainedBytes) :=
  ⟨rfl, by simp [CallbackStreams.new], by simp [CallbackStreams.new], maxRetainedBytes.isLt, by
    simp [CallbackStreams.new, usizeBound]⟩

/-- No stored stream is finished, so the purge removes nothing. -/
theorem purge_eq (h : Inv s) : s.purge = s := by
  have : s.streams.filter (fun state => !state.finished) = s.streams := by
    rw [filter_eq_self]
    intro st hst
    simp [(h.tidy st hst).live]
  rw [purge, this]

theorem mem_of_find (h : s.find id = some st) : st ∈ s.streams ∧ st.id = id := by
  refine ⟨mem_of_find?_eq_some h, ?_⟩
  have := find?_some h
  simpa using this

theorem find_of_mem (h : Inv s) (hmem : st ∈ s.streams) (hid : st.id = id) :
    s.find id = some st := by
  cases hfind : s.find id with
  | none => exact absurd hid (by simpa using find?_eq_none.mp hfind st hmem)
  | some x =>
    obtain ⟨hx, hxid⟩ := mem_of_find hfind
    rw [inj_on_of_nodup_map h.ids hx hmem (by rw [hxid, hid])]

theorem held_le (h : Inv s) (hfind : s.find id = some st) : st.held ≤ s.retainedBytes := by
  have := sum_eraseP hfind OrderedStream.held
  rw [h.counter, CallbackStreams.held]
  omega

theorem put (h : Inv s) (hfind : s.find id = some st) (htidy : Tidy st') (hid : st'.id = id)
    (hn : n + st.held = s.retainedBytes + st'.held) (hbound : n < usizeBound) :
    Inv { s.put id st' with retainedBytes := n } := by
  obtain ⟨hmem, hst⟩ := mem_of_find hfind
  refine ⟨?_, ?_, ?_, h.limit, hbound⟩
  · have hsum := sum_modifyFirst hfind (fun _ => st') OrderedStream.held
    have := h.counter
    simp only [CallbackStreams.held, CallbackStreams.put] at *
    omega
  · intro x hx
    rcases mem_modifyFirst hfind hx with rfl | hx
    · exact htidy
    · exact h.tidy x hx
  obtain ⟨l₁, l₂, hl, -, -, -, hmodify⟩ := find?_split hfind
  have hids := h.ids
  rw [hl] at hids
  show ((modifyFirst _ _ s.streams).map OrderedStream.id).Nodup
  rw [hmodify]
  simpa [hid, hst] using hids

theorem drop (h : Inv s) (hfind : s.find id = some st) (hn : n + st.held = s.retainedBytes) :
    Inv { s.drop id with retainedBytes := n } := by
  have hsub : (s.streams.eraseP (fun state => state.id == id)).Sublist s.streams := eraseP_sublist
  refine ⟨?_, fun x hx => h.tidy x (hsub.subset hx), h.ids.sublist (hsub.map _), h.limit, ?_⟩
  · have hsum := sum_eraseP hfind OrderedStream.held
    have := h.counter
    simp only [CallbackStreams.held, CallbackStreams.drop] at *
    omega
  have := h.bounded
  simp only
  omega

theorem push (h : Inv s) (hfind : s.find st.id = none) (htidy : Tidy st)
    (hn : n = s.retainedBytes + st.held) (hbound : n < usizeBound) :
    Inv { s with streams := s.streams ++ [st], retainedBytes := n } := by
  refine ⟨?_, ?_, ?_, h.limit, hbound⟩
  · have := h.counter
    simp only [CallbackStreams.held, map_append, sum_append_nat, map_cons, map_nil, sum_cons,
      sum_nil] at *
    omega
  · intro x hx
    rcases mem_append.mp hx with hx | hx
    · exact h.tidy x hx
    · rw [mem_singleton.mp hx]
      exact htidy
  · rw [map_append, nodup_append]
    refine ⟨h.ids, by simp, ?_⟩
    intro a ha b hb
    obtain ⟨x, hx, rfl⟩ := mem_map.mp ha
    simp only [map_cons, map_nil, mem_singleton] at hb
    subst hb
    have := find?_eq_none.mp hfind x hx
    simpa using this

end Inv

variable {s : CallbackStreams}

theorem find_put (hfind : s.find id = some st) (hid : st'.id = id) :
    (s.put id st').find id = some st' := by
  obtain ⟨l₁, l₂, -, hbefore, -, -, hmodify⟩ := find?_split hfind
  unfold CallbackStreams.find CallbackStreams.put
  rw [hmodify, find?_append, find?_eq_none.mpr (by simpa using hbefore), Option.none_or,
    find?_cons_of_pos (by simp [hid])]

/-- Adding what the limit had room for does not saturate. -/
theorem satAdd_of_available (h : Inv s) (hn : n ≤ s.maxRetainedBytes - s.retainedBytes) :
    satAdd s.retainedBytes n = s.retainedBytes + n ∧ s.retainedBytes + n < usizeBound := by
  have h₁ := h.limit
  have h₂ := h.bounded
  unfold satAdd
  omega

variable {heap : Heap}

theorem streamMut_inv {result : Except CallbackError OrderedStream}
    (h : Inv s) (hmut : s.streamMut id heap = (s', result)) :
    Inv s' ∧ s'.retainedBytes = s.retainedBytes ∧ s'.maxRetainedBytes = s.maxRetainedBytes ∧
      ∀ st, result = .ok st → s'.find id = some st ∧
        (s.find id = some st ∨ st = OrderedStream.new id) := by
  unfold streamMut at hmut
  simp only [h.purge_eq] at hmut
  split at hmut
  · rename_i st hfind
    cases hmut
    exact ⟨h, rfl, rfl, fun st' hst => by cases hst; exact ⟨hfind, .inl hfind⟩⟩
  rename_i hfind
  split_ifs at hmut with hfull hheap <;> simp only [Prod.mk.injEq] at hmut <;>
    obtain ⟨rfl, rfl⟩ := hmut
  · exact ⟨h, rfl, rfl, by simp⟩
  · exact ⟨h, rfl, rfl, by simp⟩
  have hpush := h.push hfind (.new id)
    (by simp [OrderedStream.held, OrderedStream.new, OrderedStream.outLen]) h.bounded
  refine ⟨hpush, rfl, rfl, ?_⟩
  intro st hst
  cases hst
  unfold find at *
  rw [find?_append, hfind]
  simp [OrderedStream.new]

/-- Retaining a range: the table stays in order and grows by the bytes reported. -/
theorem insertRange_inv {result : Except CallbackError Nat} (h : Inv s)
    (hclear : ∀ st ∈ s.streams, st.id = stream → s.RetainClear st packet offset start stop fin heap)
    (hinsert : s.insertRange stream packet offset start stop fin
      (s.maxRetainedBytes - s.retainedBytes) heap = (s', result)) :
    (∀ e, result = .error e → s' = s) ∧ ∀ n, result = .ok n → Inv { s' with
      retainedBytes := satAdd s'.retainedBytes n } ∧
        ∃ st, s'.find stream = some st := by
  unfold insertRange at hinsert
  simp only [h.purge_eq] at hinsert
  split at hinsert
  · rename_i st hfind
    obtain ⟨hmem, hid⟩ := Inv.mem_of_find hfind
    split at hinsert <;> simp only [Prod.mk.injEq] at hinsert <;> obtain ⟨rfl, rfl⟩ := hinsert
    · exact ⟨fun _ _ => rfl, by simp⟩
    rename_i st' n hok
    refine ⟨by simp, ?_⟩
    intro m hm
    cases hm
    obtain ⟨htidy, hid', hheld, hle⟩ :=
      insert_tidy (h.tidy st hmem) (hclear st hmem hid (admits_iff.mpr ⟨_, hok⟩)) hok
    obtain ⟨hsat, hlt⟩ := satAdd_of_available h hle
    have hid'' : st'.id = stream := by rw [hid', hid]
    refine ⟨?_, st', find_put hfind hid''⟩
    show Inv { s.put stream st' with retainedBytes := satAdd s.retainedBytes n }
    rw [hsat]
    exact h.put hfind htidy hid'' (by omega) hlt
  · rename_i hfind
    by_cases hfull : s.streams.length ≥ s.maxStreams
    · rw [if_pos hfull] at hinsert
      obtain ⟨rfl, rfl⟩ := hinsert
      exact ⟨fun _ _ => rfl, by simp⟩
    rw [if_neg hfull] at hinsert
    split at hinsert
    · cases hinsert
      exact ⟨fun _ _ => rfl, by simp⟩
    rename_i st' n hok
    split_ifs at hinsert with hheap <;> simp only [Prod.mk.injEq] at hinsert <;>
      obtain ⟨rfl, rfl⟩ := hinsert
    · exact ⟨fun _ _ => rfl, by simp⟩
    refine ⟨by simp, ?_⟩
    intro m hm
    cases hm
    obtain ⟨htidy, hid', hheld, hle⟩ := insert_tidy (.new stream) (.new ..) hok
    obtain ⟨hsat, hlt⟩ := satAdd_of_available h hle
    have hid'' : st'.id = stream := hid'
    constructor
    · show Inv { s with streams := s.streams ++ [st'], retainedBytes := satAdd s.retainedBytes n }
      rw [hsat]
      refine h.push (by rw [hid'']; exact hfind) htidy ?_ hlt
      rw [hheld]
      simp [OrderedStream.held, OrderedStream.new, OrderedStream.outLen]
    refine ⟨st', ?_⟩
    unfold find at *
    rw [find?_append, hfind]
    simp [hid'']

theorem resumeCopying_inv (h : Inv s) (stream : Nat) (consumer : Consumer) :
    Inv (s.resumeCopying stream consumer).state := by
  unfold resumeCopying
  split
  · exact h
  rename_i st hfind
  obtain ⟨hmem, hid⟩ := Inv.mem_of_find hfind
  have hle := h.held_le hfind
  have htracks := drainLoop_tracks consumer (s.retainedBytes - st.held) stream
    (st.retained.length + 1)
    ⟨st, s.retainedBytes, 0, false, none, []⟩
    ⟨by simp only [Bool.false_eq_true, if_false]; omega, hid, fun _ =>
      h.tidy st hmem, h.bounded⟩ rfl
  generalize drainLoop consumer (st.retained.length + 1)
    ⟨st, s.retainedBytes, 0, false, none, []⟩ = d at htracks
  obtain ⟨hcounter, hdid, htidy, hbounded⟩ := htracks
  cases hremoved : d.removed with
  | true =>
    simp only [hremoved, if_true] at hcounter ⊢
    exact h.drop hfind (by omega)
  | false =>
    simp only [hremoved, Bool.false_eq_true, if_false] at hcounter ⊢
    exact h.put hfind (htidy hremoved) hdid (by omega) hbounded

theorem receiveRetained_inv (h : Inv s) {consumer : Consumer}
    (hclear : ∀ st ∈ s.streams, st.id = stream →
      s.RetainClear st packet offset start stop fin heap) :
    Inv (s.receiveRetained stream packet offset start stop fin heap consumer).state := by
  unfold receiveRetained
  split_ifs with hbad
  · exact h
  simp only
  split
  · rename_i s' e hinsert
    rw [(insertRange_inv h hclear hinsert).1 e rfl]
    exact h
  · rename_i s' n hinsert
    exact resumeCopying_inv ((insertRange_inv h hclear hinsert).2 n rfl).1 stream consumer

/-- Moving the cursor of a stream with nothing leased, as far as its retained ranges allow. -/
theorem tidy_cursor (h : Tidy st) (hout : st.outstanding = none)
    (hle : st.consumed ≤ n) (hn : n < usizeBound) (hclear : ∀ r ∈ st.retained, n ≤ r.offset)
    (hfinal : ∀ f, st.finalSize = some f → n ≤ f) : Tidy { st with consumed := n } := by
  refine ⟨h.live, h.sorted, ?_, h.shape, ?_, h.ends, h.zero, ?_⟩
  · intro r hr
    simpa [outLen, hout] using hclear r hr
  · intro f hf
    have hnf := hfinal f hf
    rcases h.final f hf with hlow | ⟨-, hall⟩
    · omega
    · exact .inr ⟨by simpa [outLen, hout] using hnf, hall⟩
  · simpa [outLen, hout] using hn

theorem atCursor_iff : st.atCursor offset = true ↔
    st.finished = false ∧ st.outstanding = none ∧ offset = st.consumed ∧
      ∀ r ∈ st.retained, r.offset ≠ st.consumed := by
  simp only [atCursor, Bool.and_eq_true, Bool.not_eq_true', Option.isNone_iff_eq_none,
    beq_iff_eq, any_eq_false, and_assoc]

/-- With distinct ids, filtering one out removes its only entry. -/
theorem filter_eq_eraseP {l : List OrderedStream} (h : (l.map OrderedStream.id).Nodup) (id : Nat) :
    l.filter (fun state => state.id != id) = l.eraseP (fun state => state.id == id) := by
  induction l with
  | nil => rfl
  | cons x l ih =>
    rw [map_cons, nodup_cons] at h
    by_cases hx : x.id = id
    · rw [eraseP_cons_of_pos (by simp [hx]), filter_cons_of_neg (by simp [hx]), filter_eq_self]
      intro y hy
      have : y.id ≠ x.id := fun heq => h.1 (heq ▸ mem_map_of_mem hy)
      simpa [← hx] using this
    · rw [eraseP_cons_of_neg (by simp [hx]), filter_cons_of_pos (by simp [hx]), ih h.2]

section

variable (h : Inv s) {stream : Nat} {bytes : Bytes} {fin : Bool} {storageOffset : Nat}
  {retain : Except CallbackError Bytes} {consumer : Consumer}
include h

theorem deliverBorrowed_inv (hfind : s.find stream = some st)
    (hcursor : st.atCursor offset = true) (hbound : offset + bytes.length < usizeBound)
    (hclear : s.CursorClear st bytes offset fin storageOffset retain heap consumer) :
    Inv (s.deliverBorrowed st stream bytes offset fin storageOffset retain heap
      consumer).state := by
  obtain ⟨hmem, hid⟩ := Inv.mem_of_find hfind
  have htidy := h.tidy st hmem
  obtain ⟨-, hout, hoffset, -⟩ := atCursor_iff.mp hcursor
  have houtLen : st.outLen = 0 := by simp [OrderedStream.outLen, hout]
  unfold deliverBorrowed
  simp only
  by_cases hconflict : st.finConflict fin (offset + bytes.length) = true
  · rw [if_pos hconflict]
    exact h
  rw [if_neg hconflict]
  rw [Bool.not_eq_true] at hconflict
  replace hclear := hclear hbound hconflict
  rw [hid] at hclear
  split
  · exact h
  rename_i n hn
  rw [hn] at hclear
  rw [finConflict_eq_false] at hconflict
  by_cases hover : n > bytes.length
  · rw [if_pos hover]
    exact h
  rw [if_neg hover]
  obtain ⟨haccept, hfirst⟩ := hclear (by omega)
  -- The cursor moves over what was accepted.
  have hmoved : Tidy { st with consumed := offset + n } := by
    refine tidy_cursor htidy hout (by omega) (by omega) haccept ?_
    intro f hf
    have := (hconflict f hf).1
    omega
  have hheld : OrderedStream.held { st with consumed := offset + n } = st.held := rfl
  have hput : Inv (s.put stream { st with consumed := offset + n }) :=
    h.put hfind hmoved hid (by rw [hheld]) h.bounded
  have hfindPut : (s.put stream { st with consumed := offset + n }).find stream =
      some { st with consumed := offset + n } := find_put hfind hid
  by_cases hpart : n ≠ bytes.length
  · rw [if_pos hpart]
    split_ifs with hcap
    · exact hput
    split
    · exact hput
    rename_i packet
    split
    · exact hput
    rename_i st' m hinsert
    -- The rest of the frame is retained, so its FIN counts.
    have hkeeps : s.keepsRest st bytes offset n fin storageOffset (.ok packet) heap = true := by
      simp only [keepsRest, Bool.and_eq_true, decide_eq_true_eq]
      exact ⟨Nat.le_of_not_lt hcap, admits_iff.mpr ⟨_, hinsert⟩⟩
    have hclear' : OrderedStream.Clear { st with consumed := offset + n } (offset + n)
        (storageOffset + bytes.length - (storageOffset + n)) fin := by
      refine ⟨.inr (.inl houtLen), ?_⟩
      intro hf hnone
      refine .inr ⟨?_, ?_⟩
      · show offset + n + st.outLen ≤ _
        omega
      intro r hr
      have := hfirst hf hnone (.inr hkeeps) r hr
      omega
    obtain ⟨htidy', hid', hheld', hle⟩ := insert_tidy hmoved hclear' hinsert
    obtain ⟨hsat, hlt⟩ := satAdd_of_available hput hle
    rw [hsat]
    have hid'' : st'.id = stream := by rw [hid']; exact hid
    refine hput.put hfindPut htidy' hid'' ?_ hlt
    omega
  · rw [if_neg hpart]
    have hn : n = bytes.length := by omega
    split_ifs with hfin hempty
    · -- The last frame: every retained range is empty, so the stream held nothing.
      have hzero : st.held = 0 := by
        unfold OrderedStream.held
        rw [houtLen, held_eq_zero (f := offset + n) haccept]
        intro r hr
        rw [hn]
        cases hsize : st.finalSize with
        | none => exact hfirst hfin hsize (.inl hn) r hr
        | some f =>
          have heq := (hconflict f hsize).2 hfin
          rcases htidy.final f hsize with hlow | ⟨-, hall⟩
          · omega
          · rw [heq]
            exact hall r hr
      rw [filter_eq_eraseP h.ids]
      exact h.drop hfind (by omega)
    · rw [← hn]
      exact hput
    · rw [← hn]
      exact resumeCopying_inv hput stream consumer

theorem tryReceiveCopyingRange_inv (hclean : ∀ st ∈ s.streams, st.id = stream →
      s.CopyClear st bytes offset fin storageOffset retain heap consumer) :
    Inv (s.tryReceiveCopyingRange stream bytes offset fin storageOffset retain heap
      consumer).state := by
  unfold tryReceiveCopyingRange
  by_cases hbound : usizeBound ≤ offset + bytes.length
  · rw [if_pos hbound]
    exact h
  rw [if_neg hbound]
  split
  · rename_i s' e hmut
    exact (streamMut_inv h hmut).1
  rename_i s' st hmut
  obtain ⟨hinv, hcounter, hlimit, hfound⟩ := streamMut_inv h hmut
  obtain ⟨hfind, horigin⟩ := hfound st rfl
  -- Either the stream was there before, or it is fresh and there is nothing to run into.
  have hclean' : s'.CopyClear st bytes offset fin storageOffset retain heap consumer := by
    rcases horigin with hold | rfl
    · obtain ⟨hmem, hid⟩ := Inv.mem_of_find hold
      have := hclean st hmem hid
      unfold CopyClear RetainClear CursorClear keepsRest at this ⊢
      rwa [hcounter, hlimit]
    · exact .new s' stream
  unfold CopyClear at hclean'
  by_cases hcursor : st.atCursor offset = true
  · rw [if_pos hcursor] at hclean' ⊢
    exact deliverBorrowed_inv hinv hfind hcursor (by omega) hclean'
  rw [if_neg hcursor] at hclean' ⊢
  split
  · exact hinv
  refine receiveRetained_inv hinv ?_
  intro x hx hid
  obtain rfl : st = x := by simpa [hfind] using hinv.find_of_mem hx hid
  exact hclean'

end

theorem receiveLeased_inv (h : Inv s) (hclear : ∀ st ∈ s.streams, st.id = stream →
      s.RetainClear st packet offset start stop fin heap) :
    Inv (s.receiveLeased stream packet offset start stop fin heap).state := by
  unfold receiveLeased
  simp only
  split
  · rename_i s' e hinsert
    rw [(insertRange_inv h hclear hinsert).1 e rfl]
    exact h
  rename_i s' n hinsert
  obtain ⟨hinv, st, hfind⟩ := (insertRange_inv h hclear hinsert).2 n rfl
  -- `stream_mut` only finds the stream again; the counter is written afterwards.
  have hmut : s'.streamMut stream heap = (s', .ok st) := by
    have hpurge : s'.purge = s' := by
      have := congrArg streams hinv.purge_eq
      exact congrArg (fun l => { s' with streams := l }) this
    unfold streamMut
    simp only [hpurge, hfind]
  rw [hmut]
  simp only
  split
  · exact hinv
  rename_i st' chunk hnext
  have hfind' : find { s' with retainedBytes := satAdd s'.retainedBytes n } stream =
    some st := hfind
  obtain ⟨hmem, hid⟩ := Inv.mem_of_find hfind'
  obtain ⟨htidy, hid', hheld⟩ := nextChunk_tidy (hinv.tidy st hmem) hnext
  exact hinv.put hfind' htidy (by rw [hid', hid]) (by rw [hheld]) hinv.bounded

theorem eraseP_modifyFirst (hid : st.id = id) {l : List OrderedStream} :
    (modifyFirst (fun state => state.id == id) (fun _ => st) l).eraseP
      (fun state => state.id == id) =
      l.eraseP (fun state => state.id == id) := by
  induction l with
  | nil => rfl
  | cons x l ih =>
    by_cases hx : x.id = id
    · simp [modifyFirst, hx, hid]
    · simp [modifyFirst, hx, ih]

theorem done_inv (h : Inv s) (completion : StreamDone) : Inv (s.done completion).state := by
  unfold CallbackStreams.done
  split
  · exact h
  rename_i st hfind
  obtain ⟨hmem, hid⟩ := Inv.mem_of_find hfind
  simp only
  split
  · exact h
  rename_i st' finished hdone
  obtain ⟨hid', hheld, hzero, htidy⟩ := done_tidy (h.tidy st hmem) hdone
  have hle := h.held_le hfind
  have hbounded := h.bounded
  have hlen : (st.outstanding.map Outstanding.len).getD 0 = st.outLen := rfl
  rw [hlen]
  have hid'' : st'.id = completion.stream := by rw [hid', hid]
  cases finished with
  | true =>
    have hdrop : drop { s.put completion.stream st' with
        retainedBytes := s.retainedBytes - st.outLen } completion.stream =
        { s.drop completion.stream with retainedBytes := s.retainedBytes - st.outLen } := by
      rw [CallbackStreams.drop]
      simp only [CallbackStreams.put, eraseP_modifyFirst hid'']
      rfl
    rw [hdrop]
    refine h.drop hfind ?_
    have := hzero rfl
    omega
  | false =>
    have hinv : Inv { s.put completion.stream st' with
        retainedBytes := s.retainedBytes - st.outLen } :=
      h.put hfind (htidy rfl) hid'' (by omega) (by omega)
    rw [if_neg (by simp)]
    split
    · exact hinv
    rename_i st'' chunk hnext
    obtain ⟨htidy'', hid₃, hheld'⟩ := nextChunk_tidy (htidy rfl) hnext
    exact hinv.put (find_put hfind hid'') htidy'' (by rw [hid₃, hid'']) (by rw [hheld'])
      hinv.bounded

theorem reset_inv (h : Inv s) (stream code : Nat) : Inv (s.reset stream code).state := by
  unfold reset
  split
  · exact h
  rename_i st hfind
  have hle := h.held_le hfind
  refine h.drop hfind ?_
  show s.retainedBytes - st.held + st.held = s.retainedBytes
  omega

/-! ## Runs -/

theorem step_inv (s : CallbackStreams) (op : Op) (h : Inv s) (hclean : Clean s op) :
    Inv (step s op) := by
  cases op with
  | receiveLeased stream packet offset start stop fin heap => exact receiveLeased_inv h hclean
  | receiveCopying stream packet offset start stop fin heap consumer =>
    show Inv (s.receiveCopying stream packet offset start stop fin heap consumer).state
    unfold receiveCopying
    by_cases hbad : start > stop ∨ stop > packet.length
    · rw [if_pos hbad]
      exact h
    rw [if_neg hbad]
    have hclean := hclean (by omega)
    have hlen : (slice packet start stop).length = stop - start := length_slice (by omega)
    simp only
    split_ifs with hdirect
    · exact tryReceiveCopyingRange_inv h hclean
    · refine receiveRetained_inv h ?_
      intro st hst hid
      have hcopy := hclean st hst hid
      rw [h.find_of_mem hst hid] at hdirect
      unfold CopyClear at hcopy
      rw [if_neg (by simpa using hdirect), hlen,
        show start + (stop - start) = stop by omega] at hcopy
      exact hcopy
  | receiveBorrowed stream bytes offset fin retain heap consumer =>
    exact tryReceiveCopyingRange_inv h hclean
  | resumeCopying => exact resumeCopying_inv h ..
  | done => exact done_inv h ..
  | reset => exact reset_inv h ..
  | setLimits maxStreams maxRetainedBytes =>
    exact ⟨h.counter, h.tidy, h.ids, maxRetainedBytes.isLt, h.bounded⟩

/-- After any run of clean calls, whether they succeed or fail, the counter equals the bytes held
and every stream's ranges are sorted, disjoint and not below its cursor. -/
theorem exec_exact (maxStreams maxRetainedBytes : Fin usizeBound) (ops : List Op)
    (hclean : Runs.Along step Clean (new maxStreams maxRetainedBytes) ops) :
    Exact (Runs.exec step (new maxStreams maxRetainedBytes) ops) :=
  (Runs.Along.invariant step_inv (Inv.new maxStreams maxRetainedBytes) hclean).exact

/-- A consumer that takes everything it is offered. -/
def acceptAll : Consumer := fun _ _ _ bytes => some bytes.length

/-- A gap, an overlapping FIN that is refused, the tail again with its FIN, the chunk that closes
the gap partly consumed, a lease and its completion. -/
def cleanOps : List Op :=
  [.receiveCopying 0 [4, 5, 6] 3 0 3 false ⟨true, true⟩ acceptAll,
   .receiveCopying 0 [9, 9] 2 0 2 true ⟨true, true⟩ acceptAll,
   .receiveCopying 0 [4, 5, 6] 3 0 3 true ⟨true, true⟩ acceptAll,
   .receiveBorrowed 0 [1, 2, 3] 0 false (.ok [1, 2, 3]) ⟨true, true⟩ (fun _ _ _ _ => some 1),
   .resumeCopying 0 acceptAll,
   .receiveLeased 4 [7, 8] 0 0 2 false ⟨true, true⟩,
   .done ⟨4, 1⟩]

theorem exec_exact_cleanOps : Exact (Runs.exec step (new 4 100) cleanOps) :=
  exec_exact ⟨4, by decide⟩ ⟨100, by decide⟩ cleanOps (by decide +kernel)

/-- Bytes 1 and 2 are retained behind a gap; a frame at the cursor with the same bytes finishes the
stream, which is removed while the counter still holds the two bytes. -/
def leakingOps : List Op :=
  [.receiveCopying 0 [2, 3] 1 0 2 true ⟨true, true⟩ acceptAll,
   .receiveBorrowed 0 [1, 2, 3] 0 true (.ok [1, 2, 3]) ⟨true, true⟩ acceptAll]

theorem leakingOps_not_exact : ¬ Exact (Runs.exec step (new 4 100) leakingOps) := by
  intro h
  have : (Runs.exec step (.new 4 100) leakingOps).retainedBytes = 0 := h.counter
  revert this
  decide

end QuicLite.Callback
