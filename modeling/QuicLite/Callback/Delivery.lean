import QuicLite.Callback.Accounting

/-!
# Ordered delivery hands over the stream's bytes

Fix the bytes `S` of a stream. Frames are slices of `S`, in any order, repeated and overlapping at
will, with FIN exactly on the ones that reach the end; the consumer accepts any prefix of what it is
offered. As long as no call fails, the bytes accepted so far are the prefix of `S` up to the cursor,
and the stream is reported finished once, after all of `S`.

The ledger forgets a finished stream (the endpoint suppresses its late frames), so frames are fed
only until then. A frame borrowed at the cursor whose accepted part ends inside a retained range
strands the rest of that range: no turn of the draining loop looks below the cursor. Where that does
not happen, everything inside a covered prefix is delivered.

* `Good` and `Open` — what a stored stream of slices looks like, and what the consumer has of it.
* `Parted` — no retained range reaches across the cursor. The step lemmas carry it along `Extends`;
  only the move of the cursor in `deliverBorrowed_delivers` needs the condition `KeepsRanges`.
* `drainLoop_delivers`, `tryReceiveCopyingRange_delivers`, `receiveRetained_delivers` — one lemma
  for
  each of the paths a frame can take, all with the same conclusion `Took`.
* `step_phase` and `exec_phase` — a call, and then a run, keeps the phase of the feed and everything
  fed so far.
* `ordered_delivery` — the four parts together.
-/

namespace QuicLite.Callback

open FirstMatch List Nat CallbackStreams

variable {stop start : Nat} {log : Log} {ops : List Op}
variable {fin : Bool} {offset n : Nat} {st' : OrderedStream} {packet bytes : Bytes}
    {events : List Event}

/-- The bytes the consumer of `stream` accepted, in order. -/
def accepted (stream : Nat) (events : List Event) : Bytes :=
  events.flatMap fun
    | .chunk id _ bytes => if id = stream then bytes else []
    | _ => []

variable (stream : Nat)

@[simp] theorem accepted_append (a b : List Event) :
    accepted stream (a ++ b) = accepted stream a ++ accepted stream b := by
  simp [accepted]

@[simp] theorem accepted_chunk (offset : Nat) (bytes : Bytes) :
    accepted stream [.chunk stream offset bytes] = bytes := by
  simp [accepted]

@[simp] theorem accepted_finished (id : Nat) : accepted stream [.finished id] = [] := rfl

@[simp] theorem accepted_reset (id code : Nat) : accepted stream [.reset id code] = [] := rfl

/-! ## Feeding one stream -/

/-- `bytes` is the slice of `S` at `offset`, and `fin` says whether it is the last one. -/
structure IsSliceOf (S : Bytes) (offset : Nat) (bytes : Bytes) (fin : Bool) : Prop where
  inside : offset + bytes.length ≤ S.length
  bytes_eq : bytes = slice S offset (offset + bytes.length)
  fin_iff : fin = true ↔ offset + bytes.length = S.length

/-- The frame an operation carries: its offset, bytes and FIN. -/
def Op.frame : Op → Option (Nat × Bytes × Bool)
  | .receiveCopying _ packet offset start stop fin _ _ =>
    some (offset, slice packet start stop, fin)
  | .receiveBorrowed _ bytes offset fin _ _ _ => some (offset, bytes, fin)
  | _ => none

/-- A call that feeds a slice of `S` to `stream`, or resumes it. What `retain` keeps starts with the
frame's bytes. -/
def Feeds (S : Bytes) (stream : Nat) : Op → Prop
  | .receiveCopying id packet offset start stop fin _ _ =>
    id = stream ∧ start ≤ stop ∧ stop ≤ packet.length ∧
      IsSliceOf S offset (slice packet start stop) fin
  | .receiveBorrowed id bytes offset fin retain _ _ =>
    id = stream ∧ IsSliceOf S offset bytes fin ∧ ∀ packet, retain = .ok packet → bytes <+: packet
  | .resumeCopying id _ => id = stream
  | _ => False

/-- The delivery state together with everything the application has seen. -/
structure Log where
  state : CallbackStreams
  events : List Event

def Log.step (log : Log) (op : Op) : Log :=
  ⟨(apply log.state op).state, log.events ++ (apply log.state op).events⟩

def Log.new (maxStreams maxRetainedBytes : Nat) : Log :=
  ⟨CallbackStreams.new maxStreams maxRetainedBytes, []⟩

/-- One call of a feed: it succeeds, and no frame follows the end of the stream. -/
def Feeding (S : Bytes) (stream : Nat) (log : Log) (op : Op) : Prop :=
  Feeds S stream op ∧ (apply log.state op).result = .ok () ∧
    (op.frame ≠ none → Event.finished stream ∉ log.events)

/-- Nothing waits at the cursor: all that was offered has been accepted. -/
def Drained (stream : Nat) (s : CallbackStreams) : Prop :=
  ∀ st ∈ s.streams, st.id = stream → ∀ r ∈ st.retained, r.offset ≠ st.consumed

/-- What the application accepts of a frame at the cursor does not end strictly inside a retained
range. Taking a retained range whole, or ending where one starts, is fine. -/
def OrderedStream.CursorSpares (st : OrderedStream) (offset : Nat) (fin : Bool) (bytes : Bytes)
    (consumer : Consumer) : Prop :=
  st.atCursor offset = true → st.finConflict fin (offset + bytes.length) = false →
    match consumer st.id offset fin bytes with
    | none => True
    | some n => n ≤ bytes.length →
        ∀ r ∈ st.retained, ¬(r.offset < offset + n ∧ offset + n < r.endOffset)

/-- A fresh stream has no range to cut. -/
theorem OrderedStream.CursorSpares.new (id : Nat) {offset : Nat} {fin : Bool} {bytes : Bytes}
    {consumer : Consumer} :
    (OrderedStream.new id).CursorSpares offset fin bytes consumer := by
  intro _ _
  split
  · trivial
  · simp [OrderedStream.new]

/-- No frame handed over at the cursor leaves it inside a retained range. -/
def KeepsRanges (stream : Nat) (log : Log) (op : Op) : Prop :=
  match op with
  | .receiveCopying _ packet offset start stop fin _ consumer =>
    ∀ st ∈ log.state.streams, st.id = stream →
      st.CursorSpares offset fin (slice packet start stop) consumer
  | .receiveBorrowed _ bytes offset fin _ _ consumer =>
    ∀ st ∈ log.state.streams, st.id = stream → st.CursorSpares offset fin bytes consumer
  | _ => True

/-- The frames of a run contain stream position `k`. -/
def Covers (ops : List Op) (k : Nat) : Prop :=
  ∃ op ∈ ops, ∃ offset bytes fin, op.frame = some (offset, bytes, fin) ∧ offset ≤ k ∧
    k < offset + bytes.length

/-! ## One stream of slices -/

/-- A stored stream whose ranges are slices of `S`. -/
structure Good (S : Bytes) (st : OrderedStream) : Prop where
  live : st.finished = false
  unleased : st.outstanding = none
  shape : ∀ r ∈ st.retained, r.start ≤ r.stop ∧ r.stop ≤ r.packet.length
  slices : ∀ r ∈ st.retained, IsSliceOf S r.offset r.bytes r.isEnd
  final : ∀ f, st.finalSize = some f → f = S.length
  inside : st.consumed ≤ S.length
  bounded : st.consumed < usizeBound ∧ ∀ r ∈ st.retained, r.endOffset < usizeBound

/-- Position `k` is delivered or retained. -/
def Holds (st : OrderedStream) (k : Nat) : Prop :=
  k < st.consumed ∨ ∃ r ∈ st.retained, r.offset ≤ k ∧ k < r.endOffset

/-- One of two ranges ends before the other starts. -/
def Retained.Apart (a b : Retained) : Prop := a.endOffset ≤ b.offset ∨ b.endOffset ≤ a.offset

theorem Retained.Apart.symm {a b : Retained} (h : a.Apart b) : b.Apart a := Or.symm h

/-- No retained range reaches across the cursor, no two of them overlap, and only a FIN is empty. A
range that lies below the cursor as a whole is dead: nothing delivers it, and nothing is missing. -/
structure Parted (st : OrderedStream) : Prop where
  cut : ∀ r ∈ st.retained, r.endOffset ≤ st.consumed ∨ st.consumed ≤ r.offset
  apart : st.retained.Pairwise Retained.Apart
  zero : ∀ r ∈ st.retained, r.len = 0 → r.isEnd = true

section Slices

variable {S bytes : Bytes} {offset n : Nat} {fin : Bool}

theorem slice_drop (packet : Bytes) (start stop t : Nat) :
    slice packet (start + t) stop = (slice packet start stop).drop t := by
  unfold slice
  rw [drop_take, drop_drop]
  congr 1
  omega

/-- What remains of a slice after its first `n` bytes. -/
theorem IsSliceOf.drop (h : IsSliceOf S offset bytes fin) (hn : n ≤ bytes.length) :
    IsSliceOf S (offset + n) (bytes.drop n) fin := by
  have hlen : (bytes.drop n).length = bytes.length - n := length_drop
  refine ⟨?_, ?_, ?_⟩
  · have := h.inside
    omega
  · rw [hlen, show offset + n + (bytes.length - n) = offset + bytes.length by omega, slice_drop,
      ← h.bytes_eq]
  · rw [h.fin_iff]
    omega

/-- Appending the first `n` bytes of the slice at the cursor moves the cursor by `n`. -/
theorem IsSliceOf.take_append (h : IsSliceOf S offset bytes fin) (hn : n ≤ bytes.length) :
    S.take offset ++ bytes.take n = S.take (offset + n) := by
  have hb := h.bytes_eq
  rw [hb, slice, Nat.add_sub_cancel_left, List.take_take, Nat.min_eq_left hn, List.take_add]

end Slices

theorem Good.new (S : Bytes) (id : Nat) : Good S (OrderedStream.new id) where
  live := rfl
  unleased := rfl
  shape := by simp [OrderedStream.new]
  slices := by simp [OrderedStream.new]
  final := by simp [OrderedStream.new]
  inside := zero_le _
  bounded := by simp [OrderedStream.new, usizeBound]

variable {S : Bytes} {st : OrderedStream}

theorem Good.length_bytes (h : Good S st) {r : Retained} (hr : r ∈ st.retained) :
    r.bytes.length = r.len :=
  length_slice (h.shape r hr)

theorem Good.noteFin (h : Good S st) (hstop : fin = true → stop = S.length) :
    Good S (st.noteFin fin stop) := by
  cases fin with
  | false => exact h
  | true =>
    refine ⟨h.live, h.unleased, h.shape, h.slices, ?_, h.inside, h.bounded⟩
    intro f hf
    obtain rfl : stop = f := by simpa [OrderedStream.noteFin] using hf
    exact hstop rfl

@[simp] theorem noteFin_consumed (st : OrderedStream) (fin : Bool) (stop : Nat) :
    (st.noteFin fin stop).consumed = st.consumed := by
  cases fin <;> rfl

@[simp] theorem noteFin_retained (st : OrderedStream) (fin : Bool) (stop : Nat) :
    (st.noteFin fin stop).retained = st.retained := by
  cases fin <;> rfl

theorem Parted.new (id : Nat) : Parted (OrderedStream.new id) := by
  refine ⟨?_, ?_, ?_⟩ <;> simp [OrderedStream.new]

theorem Parted.noteFin (h : Parted st) (fin : Bool) (stop : Nat) :
    Parted (st.noteFin fin stop) := by
  refine ⟨?_, ?_, ?_⟩
  · simpa only [noteFin_retained, noteFin_consumed] using h.cut
  · simpa only [noteFin_retained] using h.apart
  · simpa only [noteFin_retained] using h.zero

/-- What one step of delivery may do to a stream: nothing delivered or retained is lost, and where
the step is `spared` the cursor cuts through no range. -/
structure Extends (spared : Prop) (st st' : OrderedStream) : Prop where
  id_eq : st'.id = st.id
  holds : ∀ k, Holds st k → Holds st' k
  parted : spared → Parted st → Parted st'

variable {spared : Prop}

open Retained

/-- A slice of `S` that `insert` neither refuses nor finds again touches no other range. -/
theorem Parted.insertSorted {item : Retained} (h : Parted st) (hgood : Good S st)
    (hslice : IsSliceOf S item.offset item.bytes item.isEnd)
    (hshape : item.start ≤ item.stop ∧ item.stop ≤ item.packet.length)
    (hahead : st.consumed ≤ item.offset) (hempty : item.len = 0 → item.isEnd = true)
    (hconflict : ∀ r ∈ st.retained,
      OrderedStream.conflicts r item.packet item.offset item.start item.stop = false)
    (hsame : ∀ r ∈ st.retained,
      OrderedStream.sameRange r item.packet item.offset item.start item.stop = false) :
    Parted { st with retained := OrderedStream.insertSorted item st.retained } := by
  have hlen : item.bytes.length = item.len := length_slice hshape
  have hapart : ∀ r ∈ st.retained, item.Apart r := by
    intro r hr
    have hrLen := hgood.length_bytes hr
    have hrSlice := hgood.slices r hr
    have hinside := hslice.inside
    have hrInside := hrSlice.inside
    -- An empty range is the FIN, behind everything else.
    by_cases hz : item.len = 0
    · have := hslice.fin_iff.mp (hempty hz)
      exact .inr (by unfold endOffset; omega)
    by_cases hrz : r.len = 0
    · have := hrSlice.fin_iff.mp (h.zero r hr hrz)
      exact .inl (by unfold endOffset; omega)
    have := disjoint_of_not_conflicts item.packet (hgood.shape r hr).1 hshape.1 (hconflict r hr)
      (hsame r hr) hrz hz
    exact this.symm
  refine ⟨?_, ?_, ?_⟩
  · intro r hr
    rcases mem_insertSorted.mp hr with rfl | hr
    · exact .inr hahead
    · exact h.cut r hr
  · rw [(insertSorted_perm item st.retained).pairwise_iff Apart.symm]
    exact pairwise_cons.mpr ⟨hapart, h.apart⟩
  · intro r hr hz
    rcases mem_insertSorted.mp hr with rfl | hr
    · exact hempty hz
    · exact h.zero r hr hz

variable (spared) in
/-- Retaining a slice of `S` keeps the stream good, and the slice is held afterwards. -/
theorem insert_good {maxNewBytes : Nat} {heap : Heap} (h : Good S st)
    (hframe : IsSliceOf S offset (slice packet start stop) fin)
    (hinsert : st.insert packet offset start stop fin maxNewBytes heap = .ok (st', n)) :
    Good S st' ∧ st'.consumed = st.consumed ∧ Extends spared st st' ∧
      ∀ k, offset ≤ k → k < offset + (stop - start) → Holds st' k := by
  unfold OrderedStream.insert at hinsert
  simp only at hinsert
  split_ifs at hinsert with hbad hover hconflict hold hempty
  · -- All of it was delivered before.
    cases hinsert
    have hlen : (slice packet start stop).length = stop - start := length_slice (by omega)
    refine ⟨h.noteFin ?_, by simp,
      ⟨by simp, fun k hk => by simpa [Holds] using hk, fun _ hparted => hparted.noteFin ..⟩, ?_⟩
    · intro hf
      have := hframe.fin_iff.mp hf
      omega
    · intro k _ hk
      exact .inl (by simp only [noteFin_consumed]; omega)
  · cases hinsert
    refine ⟨h, rfl, ⟨rfl, fun k hk => hk, fun _ hparted => hparted⟩, ?_⟩
    intro k _ hk
    exact .inl (by omega)
  · have hlen : (slice packet start stop).length = stop - start := length_slice (by omega)
    have hbounded := h.bounded.1
    have hexception : offset + (stop - start) ≤ st.consumed →
        stop - start = 0 ∧ fin = true ∧ offset = st.consumed := by
      intro hle
      by_contra hne
      exact hold ⟨hle, hne⟩
    have htrim : satAdd offset (st.consumed - offset) = offset + (st.consumed - offset) := by
      unfold satAdd
      omega
    have hrest := hframe.drop (n := st.consumed - offset) (by omega)
    rw [← slice_drop, ← htrim] at hrest
    have hend : satAdd offset (st.consumed - offset) + (stop - (start + (st.consumed - offset))) =
        offset + (stop - start) := by
      omega
    have hstop : fin = true → offset + (stop - start) = S.length := by
      intro hf
      have := hframe.fin_iff.mp hf
      omega
    unfold OrderedStream.insertTrimmed at hinsert
    split_ifs at hinsert with h₁ h₂ h₃ h₄
    · cases hinsert
      rw [hend]
      refine ⟨h.noteFin hstop, by simp,
        ⟨by simp, fun k hk => by simpa [Holds] using hk, fun _ hparted => hparted.noteFin ..⟩, ?_⟩
      -- The retained copy holds the same positions.
      obtain ⟨r, hr, hsame⟩ := any_eq_true.mp h₂
      simp only [OrderedStream.sameRange, Bool.and_eq_true, decide_eq_true_eq] at hsame
      intro k hk₁ hk₂
      by_cases hk : k < st.consumed
      · exact .inl (by simpa using hk)
      refine .inr ⟨r, by simpa using hr, by omega, ?_⟩
      unfold endOffset
      omega
    · cases hinsert
      rw [hend]
      obtain ⟨item, hitem⟩ : ∃ item : Retained,
          item = ⟨satAdd offset (st.consumed - offset), packet, start + (st.consumed - offset),
          stop, fin⟩ := ⟨_, rfl⟩
      have hstart : item.offset = offset + (st.consumed - offset) := by rw [hitem, htrim]
      have hstopItem : item.endOffset = offset + (stop - start) := by
        rw [← hend, hitem]
        rfl
      rw [← hitem]
      have hgood : Good S { st with retained := OrderedStream.insertSorted item st.retained } := by
        refine ⟨h.live, h.unleased, ?_, ?_, h.final, h.inside, hbounded, ?_⟩
        · intro r hr
          rcases mem_insertSorted.mp hr with rfl | hr
          · rw [hitem]
            exact ⟨by simp only; omega, by simp only; omega⟩
          · exact h.shape r hr
        · intro r hr
          rcases mem_insertSorted.mp hr with rfl | hr
          · rw [hitem]
            exact hrest
          · exact h.slices r hr
        · intro r hr
          rcases mem_insertSorted.mp hr with rfl | hr
          · omega
          · exact h.bounded.2 r hr
      refine ⟨hgood.noteFin hstop, by simp, ⟨by simp, ?_, ?_⟩, ?_⟩
      · intro k hk
        rcases hk with hk | ⟨r, hr, hk⟩
        · exact .inl (by simpa using hk)
        · exact .inr ⟨r, by simpa using mem_insertSorted.mpr (.inr hr), hk⟩
      · intro _ hparted
        refine Parted.noteFin (hparted.insertSorted h ?_ ?_ (by omega) ?_ ?_ ?_) ..
        · rw [hitem]
          exact hrest
        · rw [hitem]
          exact ⟨by simp only; omega, by simp only; omega⟩
        · rw [hitem]
          intro hz
          simp only [len] at hz
          by_contra hne
          exact hempty ⟨by omega, hne⟩
        · rw [hitem]
          simpa using h₁
        · rw [hitem]
          simpa using h₂
      intro k hk₁ hk₂
      by_cases hk : k < st.consumed
      · exact .inl (by simpa using hk)
      · exact .inr ⟨item, by simpa using mem_insertSorted.mpr (.inl rfl), by omega, by omega⟩

/-! ## Draining -/

/-- The stream is still open: the consumer has the prefix up to the cursor, and no end was
reported. -/
structure Open (S : Bytes) (stream : Nat) (st : OrderedStream) (events : List Event) : Prop where
  id_eq : st.id = stream
  good : Good S st
  accepted_eq : accepted stream events = S.take st.consumed
  unfinished : Event.finished stream ∉ events

/-- The end was just reported, after all of `S`. -/
def Ended (S : Bytes) (stream : Nat) (events : List Event) : Prop :=
  ∃ before, events = before ++ [Event.finished stream] ∧ accepted stream before = S ∧
    Event.finished stream ∉ before

/-- Handing over a prefix of the slice at the cursor. -/
theorem Open.accept {stream : Nat} (h : Open S stream st events)
    (hslice : IsSliceOf S st.consumed bytes fin) (hgood : Good S st') (hid : st'.id = st.id)
    (hconsumed : st'.consumed = st.consumed + n) (hn : n ≤ bytes.length) (offset : Nat) :
    Open S stream st' (events ++ [.chunk stream offset (bytes.take n)]) := by
  refine ⟨by rw [hid, h.id_eq], hgood, ?_, ?_⟩
  · rw [accepted_append, accepted_chunk, h.accepted_eq, hslice.take_append hn, hconsumed]
  · simp [h.unfinished]

/-- After the last slice the cursor is at the end, so the report is due. -/
theorem Open.finish {stream : Nat} (h : Open S stream st events) (hend : st.consumed = S.length) :
    Ended S stream (events ++ [.finished stream]) :=
  ⟨events, rfl, by rw [h.accepted_eq, hend, take_length], h.unfinished⟩

section Drain

variable {S : Bytes} {st : OrderedStream} {item : Retained} {n : Nat}

/-- Other ranges keep clear of the one at the cursor, so they stay parted while the cursor moves
over it. -/
theorem Parted.around {l₁ l₂ : List Retained} (h : Parted st) (hl : st.retained = l₁ ++ item :: l₂)
    (hoffset : item.offset = st.consumed) (hn : n ≤ item.len) :
    (∀ r ∈ l₁ ++ l₂, item.Apart r) ∧ Parted { st with
      consumed := st.consumed + n, retained := l₁ ++ l₂ } := by
  have hpairs := h.apart
  rw [hl, pairwise_middle Apart.symm, pairwise_cons] at hpairs
  obtain ⟨hapart, hpairs⟩ := hpairs
  refine ⟨hapart, ?_, hpairs, ?_⟩
  · intro r hr
    rcases hapart r hr with hafter | hbefore
    · refine .inr (show st.consumed + n ≤ r.offset from ?_)
      unfold endOffset at hafter
      omega
    · exact .inl (show r.endOffset ≤ st.consumed + n by omega)
  · intro r hr
    refine h.zero r ?_
    rw [hl]
    rcases mem_append.mp hr with hr | hr <;> simp [hr]

/-- A proper part of the range at the cursor is taken; the rest stays retained. -/
theorem advance_good (h : Good S st)
    (hfind : st.retained.find? (fun r => r.offset == st.consumed) = some item) (hn : n < item.len) :
    Good S { st with
      consumed := st.consumed + n
      retained := modifyFirst (fun r => r.offset == st.consumed)
        (fun r => { r with offset := satAdd r.offset n, start := r.start + n }) st.retained } ∧
    Extends spared st { st with
      consumed := st.consumed + n
      retained := modifyFirst (fun r => r.offset == st.consumed)
        (fun r => { r with offset := satAdd r.offset n, start := r.start + n }) st.retained } := by
  obtain ⟨l₁, l₂, hl, -, hat, -, hmodify⟩ := find?_split hfind
  have hmem : item ∈ st.retained := by simp [hl]
  have hoffset : item.offset = st.consumed := by simpa using hat
  have hbound := h.bounded.2 item hmem
  have hlen := h.length_bytes hmem
  have hslice := h.slices item hmem
  have hinside := hslice.inside
  obtain ⟨hstart, hstop⟩ := h.shape item hmem
  have hitemLen : item.len = item.stop - item.start := rfl
  unfold endOffset at hbound
  have hsat : satAdd item.offset n = item.offset + n := by unfold satAdd; omega
  rw [hmodify, hsat]
  constructor
  · refine ⟨h.live, h.unleased, ?_, ?_, h.final, ?_, ?_, ?_⟩
    · intro r hr
      rcases mem_append.mp hr with hr | hr
      · exact h.shape r (by simp [hl, hr])
      rcases mem_cons.mp hr with rfl | hr
      · exact ⟨by simp only; omega, hstop⟩
      · exact h.shape r (by simp [hl, hr])
    · intro r hr
      rcases mem_append.mp hr with hr | hr
      · exact h.slices r (by simp [hl, hr])
      rcases mem_cons.mp hr with rfl | hr
      · have := hslice.drop (n := n) (by omega)
        rwa [bytes, ← slice_drop] at this
      · exact h.slices r (by simp [hl, hr])
    · show st.consumed + n ≤ S.length
      omega
    · show st.consumed + n < usizeBound
      omega
    · intro r hr
      rcases mem_append.mp hr with hr | hr
      · exact h.bounded.2 r (by simp [hl, hr])
      rcases mem_cons.mp hr with rfl | hr
      · simp only [endOffset, len]
        omega
      · exact h.bounded.2 r (by simp [hl, hr])
  · refine ⟨rfl, ?_, ?_⟩
    · intro k hk
      rcases hk with hk | ⟨r, hr, hk₁, hk₂⟩
      · exact .inl (show k < st.consumed + n by omega)
      rw [hl, mem_append, mem_cons] at hr
      rcases hr with hr | rfl | hr
      · exact .inr ⟨r, by simp [hr], hk₁, hk₂⟩
      · by_cases hkn : k < st.consumed + n
        · exact .inl hkn
        refine .inr ⟨_, mem_append_right _ (mem_cons_self ..), by simp only; omega, ?_⟩
        simp only [endOffset, len] at hk₂ ⊢
        omega
      · exact .inr ⟨r, by simp [hr], hk₁, hk₂⟩
    intro _ hparted
    obtain ⟨hapart, hothers⟩ := hparted.around (n := n) hl hoffset hn.le
    refine ⟨?_, ?_, ?_⟩
    · intro r hr
      rcases mem_cons.mp (perm_middle.mem_iff.mp hr) with rfl | hr
      · exact .inr (show st.consumed + n ≤ item.offset + n by omega)
      · exact hothers.cut r hr
    · refine (pairwise_middle Apart.symm).mpr (pairwise_cons.mpr ⟨?_, hothers.apart⟩)
      intro r hr
      -- What is left of the range ends where the range did.
      refine (hapart r hr).imp (fun hafter => ?_) (fun hbefore => ?_)
      · simp only [endOffset, len] at hafter ⊢
        omega
      · simp only
        omega
    · intro r hr hz
      rcases mem_cons.mp (perm_middle.mem_iff.mp hr) with rfl | hr
      · simp only [len] at hz
        omega
      · exact hothers.zero r hr hz

theorem consume_good (h : Good S st)
    (hfind : st.retained.find? (fun r => r.offset == st.consumed) = some item) : Good S { st with
      consumed := st.consumed + item.len
      retained := st.retained.eraseP (fun r => r.offset == st.consumed) } ∧
    Extends spared st { st with
      consumed := st.consumed + item.len
      retained := st.retained.eraseP (fun r => r.offset == st.consumed) } := by
  obtain ⟨l₁, l₂, hl, -, hat, herase, -⟩ := find?_split hfind
  have hmem : item ∈ st.retained := by simp [hl]
  have hoffset : item.offset = st.consumed := by simpa using hat
  have hbound := h.bounded.2 item hmem
  have hlen := h.length_bytes hmem
  have hinside := (h.slices item hmem).inside
  unfold endOffset at hbound
  have hsub : ∀ r ∈ st.retained.eraseP (fun r => r.offset == st.consumed), r ∈ st.retained :=
    fun r hr => eraseP_subset hr
  constructor
  · refine ⟨h.live, h.unleased, fun r hr => h.shape r (hsub r hr), fun r hr =>
      h.slices r (hsub r hr), h.final, ?_, ?_, fun r hr => h.bounded.2 r (hsub r hr)⟩
    · show st.consumed + item.len ≤ S.length
      omega
    · show st.consumed + item.len < usizeBound
      omega
  refine ⟨rfl, ?_, ?_⟩
  rotate_left
  · intro _ hparted
    rw [herase]
    exact (hparted.around hl hoffset le_rfl).2
  intro k hk
  rcases hk with hk | ⟨r, hr, hk₁, hk₂⟩
  · exact .inl (show k < st.consumed + item.len by omega)
  rw [hl, mem_append, mem_cons] at hr
  rcases hr with hr | rfl | hr
  · exact .inr ⟨r, by rw [herase]; simp [hr], hk₁, hk₂⟩
  · refine .inl (show k < st.consumed + r.len from ?_)
    unfold endOffset at hk₂
    omega
  · exact .inr ⟨r, by rw [herase]; simp [hr], hk₁, hk₂⟩

end Drain

theorem Extends.refl (st : OrderedStream) : Extends spared st st :=
  ⟨rfl, fun _ hk => hk, fun _ h => h⟩

theorem Extends.trans {a b c : OrderedStream} (h₁ : Extends spared a b) (h₂ : Extends spared b c) :
    Extends spared a c :=
  ⟨by rw [h₂.id_eq, h₁.id_eq], fun k hk => h₂.holds k (h₁.holds k hk),
    fun hspared h => h₂.parted hspared (h₁.parted hspared h)⟩

variable (spared) in
theorem drainLoop_delivers (S : Bytes) (stream : Nat) (consumer : Consumer) (base : List Event)
    (fuel : Nat) (d : Drain) (hlive : d.removed = false)
    (h : Open S stream d.stream (base ++ d.events)) : ((drainLoop consumer fuel d).removed = false ∧
      Open S stream (drainLoop consumer fuel d).stream
        (base ++ (drainLoop consumer fuel d).events) ∧
      Extends spared d.stream (drainLoop consumer fuel d).stream) ∨
    ((drainLoop consumer fuel d).removed = true ∧
      Ended S stream (base ++ (drainLoop consumer fuel d).events)) := by
  induction fuel generalizing d with
  | zero => exact .inl ⟨hlive, h, .refl _⟩
  | succ fuel ih =>
    unfold drainLoop
    by_cases hbusy : (d.stream.finished || d.stream.outstanding.isSome) = true
    · rw [if_pos hbusy]
      exact .inl ⟨hlive, h, .refl _⟩
    rw [if_neg hbusy]
    split
    · exact .inl ⟨hlive, h, .refl _⟩
    rename_i item hfind
    have hmem : item ∈ d.stream.retained := mem_of_find?_eq_some hfind
    have hoffset : item.offset = d.stream.consumed := by simpa using find?_some hfind
    have hlen := h.good.length_bytes hmem
    have hslice := h.good.slices item hmem
    have hbound := h.good.bounded.2 item hmem
    unfold endOffset at hbound
    rw [hoffset] at hslice
    split
    · refine .inl ⟨hlive, ⟨h.id_eq, h.good, ?_, ?_⟩, .refl _⟩
      · rw [← append_assoc, accepted_append, accepted_reset, append_nil, h.accepted_eq]
      · simpa using h.unfinished
    rename_i n _
    by_cases hover : n > item.bytes.length
    · rw [if_pos hover]
      exact .inl ⟨hlive, h, .refl _⟩
    rw [if_neg hover]
    by_cases hrefused : n = 0 ∧ item.bytes ≠ []
    · rw [if_pos hrefused]
      exact .inl ⟨hlive, h, .refl _⟩
    have hsat : satAdd d.stream.consumed n = d.stream.consumed + n := by unfold satAdd; omega
    rw [if_neg hrefused, hsat]
    by_cases hpart : n ≠ item.bytes.length
    · obtain ⟨hgood, hext⟩ := advance_good (n := n) h.good hfind (by omega)
      have hopen := h.accept hslice hgood rfl rfl (by omega) item.offset
      rw [if_pos hpart]
      refine .inl ⟨hlive, ?_, hext⟩
      simpa only [h.id_eq, append_assoc] using hopen
    obtain rfl : n = item.len := by omega
    obtain ⟨hgood, hext⟩ := consume_good h.good hfind
    have hopen := h.accept hslice hgood rfl rfl (by omega) item.offset
    split_ifs with hend
    · refine .inr ⟨rfl, ?_⟩
      have hended := hopen.finish (by
        have := hslice.fin_iff.mp hend
        simp only
        omega)
      simpa only [h.id_eq, append_assoc] using hended
    refine Or.imp ?_ id (ih _ ?_ ?_)
    · rintro ⟨hremoved, hopen', hext'⟩
      exact ⟨hremoved, hopen', hext.trans hext'⟩
    · exact hlive
    · simpa only [h.id_eq, append_assoc] using hopen

/-! ## The calls -/

/-- Where a feed stands: nothing received, the stream open, or the stream finished and forgotten. -/
inductive Phase (S : Bytes) (stream : Nat) (s : CallbackStreams) (events : List Event) : Prop where
  | idle (hstreams : s.streams = []) (haccepted : accepted stream events = [])
      (hunfinished : Event.finished stream ∉ events)
  | opened (st : OrderedStream) (hstreams : s.streams = [st]) (hopen : Open S stream st events)
  | ended (hstreams : s.streams = []) (hended : Ended S stream events)

section Calls

variable {S : Bytes} {stream : Nat} {s : CallbackStreams} {events : List Event} {st : OrderedStream}

section

variable (hstreams : s.streams = [st])
include hstreams

theorem find_singleton (hid : st.id = stream) : s.find stream = some st := by
  simp [find, hstreams, hid]

theorem put_singleton (hid : st.id = stream) : (s.put stream st').streams = [st'] := by
  simp [CallbackStreams.put, hstreams, modifyFirst, hid]

variable (spared) in
theorem resumeCopying_delivers (hopen : Open S stream st events) (consumer : Consumer) :
    (∃ st', (s.resumeCopying stream consumer).state.streams = [st'] ∧
        Open S stream st' (events ++ (s.resumeCopying stream consumer).events) ∧
          Extends spared st st') ∨
      ((s.resumeCopying stream consumer).state.streams = [] ∧
        Ended S stream (events ++ (s.resumeCopying stream consumer).events)) := by
  have hfind := find_singleton hstreams hopen.id_eq
  unfold resumeCopying
  rw [hfind]
  simp only
  have hdrain := drainLoop_delivers spared S stream consumer events
    (st.retained.length + 1)
    ⟨st, s.retainedBytes, 0, false, none, []⟩ rfl (by simpa using hopen)
  generalize drainLoop consumer (st.retained.length + 1)
    ⟨st, s.retainedBytes, 0, false, none, []⟩ = d at hdrain
  rcases hdrain with ⟨hremoved, hopen', hext⟩ | ⟨hremoved, hended⟩
  · refine .inl ⟨d.stream, ?_, hopen', hext⟩
    simp only [hremoved]
    exact put_singleton hstreams hopen.id_eq
  · refine .inr ⟨?_, hended⟩
    simp [hremoved, CallbackStreams.drop, hstreams, hopen.id_eq]

theorem purge_singleton (hgood : Good S st) : s.purge = s := by
  obtain ⟨streams, _, _, _⟩ := s
  subst hstreams
  simp [purge, hgood.live]

end

/-- What a frame's call leaves: the stream open with the frame held, or ended. -/
def Took (S : Bytes) (stream : Nat) (spared : Prop) (st : OrderedStream) (offset len : Nat)
    (s' : CallbackStreams) (events : List Event) : Prop :=
  (∃ st', s'.streams = [st'] ∧ Open S stream st' events ∧ Extends spared st st' ∧
      ∀ k, offset ≤ k → k < offset + len → Holds st' k) ∨
    (s'.streams = [] ∧ Ended S stream events)

/-- The table holds `st`, or nothing yet and `st` is the fresh stream. -/
def Table (stream : Nat) (s : CallbackStreams) (st : OrderedStream) : Prop :=
  s.streams = [st] ∨ (s.streams = [] ∧ st = OrderedStream.new stream)

section

variable (htable : Table stream s st)
include htable

theorem purge_table (hgood : Good S st) : s.purge = s := by
  rcases htable with hstreams | ⟨hstreams, -⟩
  · exact purge_singleton hstreams hgood
  obtain ⟨streams, _, _, _⟩ := s
  subst hstreams
  rfl

/-- Retaining a range goes through the stream's own `insert`, also when it has to be created. -/
theorem insertRange_table {s' : CallbackStreams} {heap : Heap} {available : Nat}
    (hopen : Open S stream st events)
    (hinsert : s.insertRange stream packet offset start stop fin available heap = (s', .ok n)) :
    ∃ st', st.insert packet offset start stop fin available heap = .ok (st', n) ∧
      s'.streams = [st'] := by
  simp only [insertRange, purge_table htable hopen.good] at hinsert
  rcases htable with hstreams | ⟨hstreams, rfl⟩
  · rw [find_singleton hstreams hopen.id_eq] at hinsert
    simp only at hinsert
    split at hinsert
    · simp at hinsert
    rename_i st' m hinsert'
    cases hinsert
    exact ⟨st', hinsert', put_singleton hstreams hopen.id_eq⟩
  have hfind : s.find stream = none := by simp [find, hstreams]
  rw [hfind] at hinsert
  simp only at hinsert
  by_cases hfull : s.streams.length ≥ s.maxStreams
  · rw [if_pos hfull] at hinsert
    simp at hinsert
  rw [if_neg hfull] at hinsert
  split at hinsert
  · simp at hinsert
  rename_i st' m hinsert'
  split_ifs at hinsert with hheap
  · simp at hinsert
  · cases hinsert
    exact ⟨st', hinsert', by simp [hstreams]⟩

variable (spared) in
/-- Retain and drain. -/
theorem receiveRetained_delivers {heap : Heap} {consumer : Consumer}
    (hopen : Open S stream st events) (hframe : IsSliceOf S offset (slice packet start stop) fin)
    (hok : (s.receiveRetained stream packet offset start stop fin heap consumer).result = .ok ()) :
    Took S stream spared st offset (stop - start)
      (s.receiveRetained stream packet offset start stop fin heap consumer).state
      (events ++ (s.receiveRetained stream packet offset start stop fin heap consumer).events) := by
  unfold receiveRetained at hok ⊢
  split_ifs at hok ⊢ with hbad
  simp only at hok ⊢
  split at hok
  · simp at hok
  rename_i s₁ n hinsert
  obtain ⟨st₁, hinsert', hstreams₁⟩ := insertRange_table htable hopen hinsert
  obtain ⟨hgood, hconsumed, hext, hheld⟩ :=
    insert_good spared hopen.good hframe hinsert'
  have hopen₁ : Open S stream st₁ events :=
    ⟨by rw [hext.id_eq, hopen.id_eq], hgood, by rw [hopen.accepted_eq, hconsumed], hopen.unfinished⟩
  rcases resumeCopying_delivers (s := { s₁ with retainedBytes := satAdd s₁.retainedBytes n })
    spared hstreams₁ hopen₁
    consumer with ⟨st', hst', hopen', hext'⟩ | ⟨hst', hended⟩
  · exact .inl ⟨st', hst', hopen', hext.trans hext', fun k h₁ h₂ => hext'.holds k (hheld k h₁ h₂)⟩
  · exact .inr ⟨hst', hended⟩

end

section

variable {bytes : Bytes} {offset : Nat} {fin : Bool} {storageOffset : Nat}
    {retain : Except CallbackError Bytes} {heap : Heap} {consumer : Consumer}
include heap

/-- Hand over at the cursor. -/
theorem deliverBorrowed_delivers
    (hstreams : s.streams = [st]) (hopen : Open S stream st events)
    (hcursor : st.atCursor offset = true) (hbound : offset + bytes.length < usizeBound)
    (hframe : IsSliceOf S offset bytes fin) (hretain : ∀ packet, retain = .ok packet →
      slice packet storageOffset (storageOffset + bytes.length) = bytes)
    (hok : (s.deliverBorrowed st stream bytes offset fin storageOffset retain heap
      consumer).result = .ok ()) :
    Took S stream (st.CursorSpares offset fin bytes consumer) st offset bytes.length
      (s.deliverBorrowed st stream bytes offset fin storageOffset retain heap consumer).state
      (events ++ (s.deliverBorrowed st stream bytes offset fin storageOffset retain heap
        consumer).events) := by
  obtain ⟨-, -, hoffset, -⟩ := atCursor_iff.mp hcursor
  subst hoffset
  unfold deliverBorrowed at hok ⊢
  by_cases hconflict : st.finConflict fin (st.consumed + bytes.length) = true
  · rw [if_pos hconflict] at hok
    simp at hok
  rw [if_neg hconflict] at hok ⊢
  cases hconsumer : consumer stream st.consumed fin bytes with
  | none => simp [hconsumer] at hok
  | some n =>
  simp only [hconsumer] at hok ⊢
  by_cases hover : n > bytes.length
  · rw [if_pos hover] at hok
    simp at hok
  rw [if_neg hover] at hok ⊢
  have hinside := hframe.inside
  -- The cursor moves over what was accepted.
  have hgood₁ : Good S { st with consumed := st.consumed + n } :=
    ⟨hopen.good.live, hopen.good.unleased, hopen.good.shape, hopen.good.slices, hopen.good.final,
      by simp only; omega, by simp only; omega, hopen.good.bounded.2⟩
  have hopen₁ := hopen.accept hframe hgood₁ rfl rfl (by omega) st.consumed
  have hext₁ : Extends (st.CursorSpares st.consumed fin bytes consumer) st
      { st with consumed := st.consumed + n } := by
    refine ⟨rfl, ?_, ?_⟩
    · intro k hk
      rcases hk with hk | hk
      · exact .inl (by simp only; omega)
      · exact .inr hk
    intro hspares hparted
    have hnotInside := hspares hcursor (by simpa using hconflict)
    rw [hopen.id_eq, hconsumer] at hnotInside
    refine ⟨?_, hparted.apart, hparted.zero⟩
    intro r hr
    have := hnotInside (by omega) r hr
    show r.endOffset ≤ st.consumed + n ∨ st.consumed + n ≤ r.offset
    omega
  have hput : (s.put stream { st with consumed := st.consumed + n }).streams =
      [{ st with consumed := st.consumed + n }] := put_singleton hstreams hopen.id_eq
  by_cases hpart : n ≠ bytes.length
  · rw [if_pos hpart] at hok ⊢
    split_ifs at hok ⊢ with hcap
    cases hr : retain with
    | error e => simp [hr] at hok
    | ok packet =>
    simp only [hr] at hok ⊢
    split at hok
    · simp at hok
    rename_i st₂ m hinsert
    have hslice₂ : IsSliceOf S (st.consumed + n)
        (slice packet (storageOffset + n) (storageOffset + bytes.length)) fin := by
      rw [slice_drop, hretain packet hr]
      exact hframe.drop (by omega)
    obtain ⟨hgood₂, hconsumed₂, hext₂, hheld⟩ := insert_good _ hgood₁ hslice₂ hinsert
    refine .inl ⟨st₂, put_singleton hput hopen.id_eq, ?_, hext₁.trans hext₂, ?_⟩
    · exact ⟨by rw [hext₂.id_eq, hopen₁.id_eq], hgood₂, by
        rw [hopen₁.accepted_eq, hconsumed₂], hopen₁.unfinished⟩
    intro k h₁ h₂
    by_cases hk : k < st.consumed + n
    · exact hext₂.holds k (.inl hk)
    · exact hheld k (by omega) (by omega)
  · obtain rfl : n = bytes.length := by omega
    have hheld : ∀ k, st.consumed ≤ k → k < st.consumed + bytes.length →
        Holds { st with consumed := st.consumed + bytes.length } k := fun k _ hk => .inl hk
    split_ifs at hok ⊢ with hfin hempty
    · refine .inr ⟨by simp [hstreams, hopen.id_eq], ?_⟩
      rw [← append_assoc]
      exact hopen₁.finish (hframe.fin_iff.mp hfin)
    · exact .inl ⟨_, hput, hopen₁, hext₁, hheld⟩
    rw [← append_assoc]
    rcases resumeCopying_delivers _ hput hopen₁ consumer with ⟨st', hst', hopen', hext'⟩ |
      ⟨hst', hended⟩
    · exact .inl ⟨st', hst', hopen', hext₁.trans hext', fun k h₁ h₂ =>
        hext'.holds k (hheld k h₁ h₂)⟩
    · exact .inr ⟨hst', hended⟩

theorem tryReceiveCopyingRange_delivers
    (htable : Table stream s st) (hopen : Open S stream st events)
    (hframe : IsSliceOf S offset bytes fin) (hretain : ∀ packet, retain = .ok packet →
      slice packet storageOffset (storageOffset + bytes.length) = bytes)
    (hok : (s.tryReceiveCopyingRange stream bytes offset fin storageOffset retain heap
      consumer).result = .ok ()) :
    Took S stream (st.CursorSpares offset fin bytes consumer) st offset bytes.length
      (s.tryReceiveCopyingRange stream bytes offset fin storageOffset retain heap consumer).state
      (events ++ (s.tryReceiveCopyingRange stream bytes offset fin storageOffset retain heap
        consumer).events) := by
  unfold tryReceiveCopyingRange at hok ⊢
  by_cases hbound : usizeBound ≤ offset + bytes.length
  · rw [if_pos hbound] at hok
    simp at hok
  rw [if_neg hbound] at hok ⊢
  -- `stream_mut` finds the stream, or creates the fresh one.
  have hmut : ∀ s' st', s.streamMut stream heap = (s', .ok st') → s'.streams = [st] ∧ st' = st := by
    intro s' st' hmut
    simp only [streamMut, purge_table htable hopen.good] at hmut
    rcases htable with hstreams | ⟨hstreams, rfl⟩
    · rw [find_singleton hstreams hopen.id_eq] at hmut
      cases hmut
      exact ⟨hstreams, rfl⟩
    have hfind : s.find stream = none := by simp [find, hstreams]
    rw [hfind] at hmut
    split_ifs at hmut with h₁ h₂
    · simp at hmut
    · simp at hmut
    · cases hmut
      exact ⟨by simp [hstreams], rfl⟩
  split at hok
  · simp at hok
  rename_i s' st' heq
  obtain ⟨hstreams, rfl⟩ := hmut s' st' heq
  by_cases hcursor : st'.atCursor offset = true
  · rw [if_pos hcursor] at hok ⊢
    exact deliverBorrowed_delivers hstreams hopen hcursor (by omega) hframe hretain hok
  rw [if_neg hcursor] at hok ⊢
  cases hr : retain with
  | error e => simp [hr] at hok
  | ok packet =>
    simp only [hr] at hok ⊢
    have := receiveRetained_delivers (st'.CursorSpares offset fin bytes consumer)
      (.inl hstreams) hopen (by
      rw [hretain packet hr]
      exact hframe) hok
    rwa [Nat.add_sub_cancel_left] at this

end

end Calls

/-! ## Runs -/

/-- Position `k` is inside the frame of `op`. -/
def Op.Contains (op : Op) (k : Nat) : Prop :=
  ∃ offset bytes fin, op.frame = some (offset, bytes, fin) ∧ offset ≤ k ∧ k < offset + bytes.length

/-- All positions of `fed` are held by the open stream (or the stream has ended). -/
def Kept (fed : Nat → Prop) (stream : Nat) (log : Log) : Prop :=
  ∀ k, fed k → Event.finished stream ∈ log.events ∨ ∃ st ∈ log.state.streams, Holds st k

/-- No stored stream has a range across its cursor. -/
def AllParted (log : Log) : Prop := ∀ st ∈ log.state.streams, Parted st

section Step

variable {S : Bytes} {stream : Nat} {log : Log} {fed : Nat → Prop} {op : Op}

theorem Ended.mem (h : Ended S stream events) : Event.finished stream ∈ events := by
  obtain ⟨before, rfl, -⟩ := h
  simp

/-- Before the end, the table holds one open stream, possibly not created yet. -/
theorem Phase.table (h : Phase S stream log.state log.events)
    (hun : Event.finished stream ∉ log.events) :
    ∃ st, Table stream log.state st ∧ Open S stream st log.events := by
  cases h with
  | idle hstreams haccepted hunfinished =>
    exact ⟨.new stream, .inr ⟨hstreams, rfl⟩, rfl, .new S stream, by
      simp [haccepted, OrderedStream.new], hunfinished⟩
  | opened st hstreams hopen => exact ⟨st, .inl hstreams, hopen⟩
  | ended hstreams hended => exact absurd hended.mem hun

/-- The stream a feed works on is the only one stored, if it is stored at all. -/
theorem Table.eq_of_mem {st x : OrderedStream} (h : Table stream log.state st)
    (hx : x ∈ log.state.streams) : x = st := by
  rcases h with hstreams | ⟨hstreams, -⟩
  · simpa [hstreams] using hx
  · simp [hstreams] at hx

/-- A call on one frame, from the outcome of the copying path it takes. -/
theorem step_of_took {st : OrderedStream} (consumer : Consumer)
    (hkept : Kept fed stream log) (htable : Table stream log.state st)
    (hopen : Open S stream st log.events) (hframe : op.frame = some (offset, bytes, fin))
    (htook : Took S stream (st.CursorSpares offset fin bytes consumer) st offset bytes.length
      (apply log.state op).state (log.events ++ (apply log.state op).events))
    (hspared : KeepsRanges stream log op → st ∈ log.state.streams →
      st.CursorSpares offset fin bytes consumer) :
    Phase S stream (log.step op).state (log.step op).events ∧
      Kept (fun k => fed k ∨ op.Contains k) stream (log.step op) ∧
      (KeepsRanges stream log op → AllParted log → AllParted (log.step op)) := by
  rcases htook with ⟨st', hst', hopen', hext, hheld⟩ | ⟨hst', hended⟩
  · refine ⟨.opened st' hst' hopen', ?_, ?_⟩
    · intro k hk
      refine .inr ⟨st', by simp [Log.step, hst'], ?_⟩
      rcases hk with hk | ⟨offset', bytes', fin', hframe', hk₁, hk₂⟩
      · rcases hkept k hk with hfinished | ⟨x, hx, hholds⟩
        · exact absurd hfinished hopen.unfinished
        exact hext.holds k (htable.eq_of_mem hx ▸ hholds)
      rw [hframe] at hframe'
      cases hframe'
      exact hheld k hk₁ hk₂
    intro hkeeps hparted x hx
    obtain rfl : x = st' := by simpa [Log.step, hst'] using hx
    rcases htable with hstreams | ⟨-, rfl⟩
    · have hmem : st ∈ log.state.streams := by simp [hstreams]
      exact hext.parted (hspared hkeeps hmem) (hparted st hmem)
    · exact hext.parted (.new stream) (.new stream)
  · refine ⟨.ended hst' hended, fun k _ => .inl hended.mem, ?_⟩
    intro _ _ x hx
    simp [Log.step, hst'] at hx

theorem step_phase (hphase : Phase S stream log.state log.events) (hkept : Kept fed stream log)
    (hfeed : Feeding S stream log op) : Phase S stream (log.step op).state (log.step op).events ∧
      Kept (fun k => fed k ∨ op.Contains k) stream (log.step op) ∧
      (KeepsRanges stream log op → AllParted log → AllParted (log.step op)) := by
  obtain ⟨hfeeds, hok, hbefore⟩ := hfeed
  cases op with
  | receiveCopying id packet offset start stop fin heap consumer =>
    obtain ⟨rfl, hrange, hstop, hframe⟩ := hfeeds
    obtain ⟨st, htable, hopen⟩ := hphase.table (hbefore (by simp [Op.frame]))
    have hlen : (slice packet start stop).length = stop - start := length_slice ⟨hrange, hstop⟩
    refine step_of_took consumer hkept htable hopen rfl ?_ ?_
    · simp only [apply] at hok ⊢
      unfold receiveCopying at hok ⊢
      simp only at hok ⊢
      split_ifs at hok ⊢ with hdirect
      · refine tryReceiveCopyingRange_delivers htable hopen hframe ?_ hok
        intro packet' hpacket
        obtain rfl : packet = packet' := by simpa using hpacket
        rw [hlen, show start + (stop - start) = stop by omega]
      · have := receiveRetained_delivers
          (st.CursorSpares offset fin (slice packet start stop) consumer)
          htable hopen hframe hok
        rwa [← hlen] at this
    · intro hkeeps hmem
      exact hkeeps st hmem hopen.id_eq
  | receiveBorrowed id bytes offset fin retain heap consumer =>
    obtain ⟨rfl, hframe, hretain⟩ := hfeeds
    obtain ⟨st, htable, hopen⟩ := hphase.table (hbefore (by simp [Op.frame]))
    refine step_of_took consumer hkept htable hopen rfl ?_ ?_
    · refine tryReceiveCopyingRange_delivers htable hopen hframe ?_ hok
      intro packet hpacket
      obtain ⟨rest, rfl⟩ := hretain packet hpacket
      simp [slice]
    · intro hkeeps hmem
      exact hkeeps st hmem hopen.id_eq
  | resumeCopying id consumer =>
    obtain rfl : id = stream := hfeeds
    have hnone : ∀ k, ¬(Op.resumeCopying id consumer).Contains k := by
      rintro k ⟨_, _, _, hframe, -⟩
      simp [Op.frame] at hframe
    have hempty : log.state.streams = [] → log.step (.resumeCopying id consumer) = log := by
      intro hstreams
      have hfind : log.state.find id = none := by simp [find, hstreams]
      simp [Log.step, apply, resumeCopying, hfind]
    cases hphase with
    | opened st hstreams hopen =>
      rcases resumeCopying_delivers True hstreams hopen consumer with
        ⟨st', hst', hopen', hext⟩ | ⟨hst', hended⟩
      · refine ⟨.opened st' hst' hopen', ?_, ?_⟩
        · intro k hk
          rcases hk with hk | hk
          · rcases hkept k hk with hfinished | ⟨x, hx, hholds⟩
            · exact absurd hfinished hopen.unfinished
            · have : x = st := by simpa [hstreams] using hx
              exact .inr ⟨st', by simp [Log.step, apply, hst'], hext.holds k (this ▸ hholds)⟩
          · exact absurd hk (hnone k)
        intro _ hparted x hx
        obtain rfl : x = st' := by simpa [Log.step, apply, hst'] using hx
        exact hext.parted trivial (hparted st (by simp [hstreams]))
      · refine ⟨.ended hst' hended, fun k _ => .inl hended.mem, ?_⟩
        intro _ _ x hx
        simp [Log.step, apply, hst'] at hx
    | idle hstreams haccepted hunfinished =>
      rw [hempty hstreams]
      exact ⟨.idle hstreams haccepted hunfinished, fun k hk => hkept k (hk.resolve_right (hnone k)),
        fun _ h => h⟩
    | ended hstreams hended =>
      rw [hempty hstreams]
      exact ⟨.ended hstreams hended, fun k _ => .inl hended.mem, fun _ h => h⟩
  | receiveLeased | done | reset | setLimits => exact hfeeds.elim

end Step

theorem exec_phase {stream : Nat} {fed : Nat → Prop}
    (hphase : Phase S stream log.state log.events) (hkept : Kept fed stream log)
    (hrun : Runs.Along Log.step (Feeding S stream) log ops) :
    Phase S stream (Runs.exec Log.step log ops).state (Runs.exec Log.step log ops).events ∧
      Kept (fun k => fed k ∨ Covers ops k) stream (Runs.exec Log.step log ops) ∧
      (Runs.Along Log.step (KeepsRanges stream) log ops → AllParted log →
        AllParted (Runs.exec Log.step log ops)) := by
  induction ops generalizing log fed with
  | nil => exact ⟨hphase, fun k hk => hkept k (by simpa [Covers] using hk), fun _ h => h⟩
  | cons op ops ih =>
    obtain ⟨hphase', hkept', hparted'⟩ := step_phase hphase hkept hrun.1
    obtain ⟨hfinal, hkeptFinal, hpartedFinal⟩ := ih hphase' hkept' hrun.2
    refine ⟨hfinal, ?_, fun hkeeps hparted => hpartedFinal hkeeps.2 (hparted' hkeeps.1 hparted)⟩
    intro k hk
    refine hkeptFinal k ?_
    rcases hk with hk | ⟨op', hop', hcontains⟩
    · exact .inl (.inl hk)
    rcases mem_cons.mp hop' with rfl | hop'
    · exact .inl (.inr hcontains)
    · exact .inr ⟨op', hop', hcontains⟩

/-- What a feed covers lies inside `S`. -/
theorem Covers.lt_length {stream : Nat} {k : Nat}
    (h : Covers ops k) (hrun : Runs.Along Log.step (Feeding S stream) log ops) : k < S.length := by
  obtain ⟨op, hop, offset, bytes, fin, hframe, -, hlt⟩ := h
  have hfeeds : Feeds S stream op := hrun.of_mem (fun _ _ h => h.1) hop
  have hslice : IsSliceOf S offset bytes fin := by
    cases op <;> simp only [Op.frame, reduceCtorEq] at hframe
    · obtain ⟨rfl, rfl, rfl⟩ := hframe
      exact hfeeds.2.2.2
    · obtain ⟨rfl, rfl, rfl⟩ := hframe
      exact hfeeds.2.1
  have := hslice.inside
  omega

/-- Delivery is in order and complete. Over any run of successful calls that feed slices of `S`
until the stream is reported finished: the accepted bytes are a prefix of `S` as long as the cursor;
the stream is reported finished at most once, after all of `S`; and if no frame handed over at the
cursor left it strictly inside a retained range, then once everything offered has been accepted the
whole covered prefix has been delivered. -/
theorem ordered_delivery (S : Bytes) (stream : Nat) (maxStreams maxRetainedBytes : Fin usizeBound)
    (ops : List Op) (hrun : Runs.Along Log.step (Feeding S stream)
      (Log.new maxStreams maxRetainedBytes) ops) :
    let log := Runs.exec Log.step (Log.new maxStreams maxRetainedBytes) ops
    accepted stream log.events <+: S ∧
    (∀ st, log.state.find stream = some st → (accepted stream log.events).length = st.consumed) ∧
    log.events.count (.finished stream) ≤ 1 ∧
    (∀ before after, log.events = before ++ .finished stream :: after →
      accepted stream before = S) ∧
    (Runs.Along Log.step (KeepsRanges stream) (Log.new maxStreams maxRetainedBytes) ops →
      Drained stream log.state → ∀ n, (∀ k < n, Covers ops k) →
        n ≤ (accepted stream log.events).length) := by
  intro log
  have hstart : Phase S stream (Log.new maxStreams maxRetainedBytes).state
      (Log.new maxStreams maxRetainedBytes).events := .idle rfl rfl (by simp [Log.new])
  have hnone : Kept (fun _ => False) stream (Log.new maxStreams maxRetainedBytes) :=
    fun _ hk => hk.elim
  obtain ⟨hphase, hkept, hparted⟩ := exec_phase hstart hnone hrun
  cases hphase with
  | idle hstreams haccepted hunfinished =>
    have hempty : accepted stream log.events = [] := haccepted
    refine ⟨by rw [hempty]; exact nil_prefix, ?_, ?_, ?_, ?_⟩
    · intro st hst
      have : log.state.streams = [] := hstreams
      simp [CallbackStreams.find, this] at hst
    · rw [count_eq_zero.mpr hunfinished]
      omega
    · intro before after hsplit
      exact absurd (show Event.finished stream ∈ log.events by rw [hsplit]; simp) hunfinished
    intro _ _ n hn
    by_contra hlt
    rcases hkept 0 (.inr (hn 0 (by omega))) with hfinished | ⟨st, hst, -⟩
    · exact hunfinished hfinished
    · rw [hstreams] at hst
      simp at hst
  | opened st hstreams hopen =>
    have hlen : (accepted stream log.events).length = st.consumed := by
      have hin := hopen.good.inside
      show (accepted stream (Runs.exec Log.step _ ops).events).length = st.consumed
      rw [hopen.accepted_eq, length_take]
      omega
    refine ⟨by show accepted stream (Runs.exec Log.step _ ops).events <+: S; rw [hopen.accepted_eq];
               exact take_prefix _ _, ?_, ?_, ?_, ?_⟩
    · intro x hx
      have hfind := find_singleton hstreams hopen.id_eq
      have : some st = some x := hfind.symm.trans hx
      rw [hlen, Option.some.inj this]
    · rw [count_eq_zero.mpr hopen.unfinished]
      omega
    · intro before after hsplit
      exact absurd (show Event.finished stream ∈ log.events by rw [hsplit]; simp) hopen.unfinished
    intro hkeep hdrained n hn
    by_contra hlt
    have hmem : st ∈ log.state.streams := by
      show st ∈ (Runs.exec Log.step _ ops).state.streams
      simp [hstreams]
    -- The byte at the cursor is covered, so it sits in a range that starts at the cursor.
    rcases hkept st.consumed (.inr (hn _ (by omega))) with hfinished | ⟨x, hx, hholds⟩
    · exact hopen.unfinished hfinished
    obtain rfl : x = st := by simpa [hstreams] using hx
    rcases hholds with hlt' | ⟨r, hr, hle, hin⟩
    · omega
    · rcases (hparted hkeep (by simp [AllParted, Log.new, CallbackStreams.new]) x hmem).cut r
        hr with hbelow | habove
      · omega
      · exact hdrained x hmem hopen.id_eq r hr (by omega)
  | ended hstreams hended =>
    obtain ⟨before, hevents, haccepted, hbefore⟩ := hended
    have hall : accepted stream log.events = S := by
      show accepted stream (Runs.exec Log.step _ ops).events = S
      rw [hevents, accepted_append, haccepted, accepted_finished, append_nil]
    refine ⟨hall ▸ prefix_rfl, ?_, ?_, ?_, ?_⟩
    · intro st hst
      have : log.state.streams = [] := hstreams
      simp [CallbackStreams.find, this] at hst
    · show (Runs.exec Log.step _ ops).events.count _ ≤ 1
      rw [hevents, count_append, count_eq_zero.mpr hbefore]
      simp
    · intro before' after hsplit
      have hsplit : before ++ [Event.finished stream] = before' ++ .finished stream :: after :=
        hevents.symm.trans hsplit
      rcases eq_nil_or_concat after with rfl | ⟨rest, last, rfl⟩
      · rw [← (append_inj_left' hsplit rfl), haccepted]
      -- A report before the last event would be a report in `before`.
      have hsplit : before ++ [Event.finished stream] =
          (before' ++ .finished stream :: rest) ++ [last] := by
        simpa using hsplit
      have hinit := append_inj_left' hsplit rfl
      exact absurd (by rw [hinit]; simp) hbefore
    · intro _ _ n hn
      rw [hall]
      by_contra hlt
      exact absurd ((hn S.length (by omega)).lt_length hrun) (lt_irrefl _)

/-! ## Runs on fixed input -/

instance (S : Bytes) (offset : Nat) (bytes : Bytes) (fin : Bool) :
    Decidable (IsSliceOf S offset bytes fin) :=
  decidable_of_iff (offset + bytes.length ≤ S.length ∧
    bytes = slice S offset (offset + bytes.length) ∧
      (fin = true ↔ offset + bytes.length = S.length))
    ⟨fun h => ⟨h.1, h.2.1, h.2.2⟩, fun h => ⟨h.inside, h.bytes_eq, h.fin_iff⟩⟩

instance decidableFeeds (S : Bytes) (stream : Nat) : ∀ op, Decidable (Feeds S stream op)
  | .receiveCopying id packet offset start stop fin _ _ =>
    inferInstanceAs (Decidable (id = stream ∧ start ≤ stop ∧ stop ≤ packet.length ∧
      IsSliceOf S offset (slice packet start stop) fin))
  | .receiveBorrowed id bytes offset fin (.ok packet) _ _ =>
    decidable_of_iff (id = stream ∧ IsSliceOf S offset bytes fin ∧ bytes <+: packet)
      (by simp [Feeds])
  | .receiveBorrowed id bytes offset fin (.error _) _ _ =>
    decidable_of_iff (id = stream ∧ IsSliceOf S offset bytes fin) (by simp [Feeds])
  | .resumeCopying id _ => inferInstanceAs (Decidable (id = stream))
  | .receiveLeased .. | .done _ | .reset .. | .setLimits .. => isFalse (fun h => h)

instance (S : Bytes) (stream : Nat) (log : Log) (op : Op) : Decidable (Feeding S stream log op) :=
  inferInstanceAs (Decidable (_ ∧ _ ∧ _))

instance (st : OrderedStream) (offset : Nat) (fin : Bool) (bytes : Bytes) (consumer : Consumer) :
    Decidable (st.CursorSpares offset fin bytes consumer) :=
  match h : consumer st.id offset fin bytes with
  | none => isTrue (by simp [OrderedStream.CursorSpares, h])
  | some n => decidable_of_iff (st.atCursor offset = true →
      st.finConflict fin (offset + bytes.length) = false → n ≤ bytes.length →
        ∀ r ∈ st.retained, ¬(r.offset < offset + n ∧ offset + n < r.endOffset))
      (by simp [OrderedStream.CursorSpares, h])

instance decidableKeepsRanges (stream : Nat) (log : Log) :
    ∀ op, Decidable (KeepsRanges stream log op)
  | .receiveCopying .. | .receiveBorrowed .. =>
    inferInstanceAs (Decidable (∀ st ∈ log.state.streams, _ → _))
  | .resumeCopying .. | .receiveLeased .. | .done _ | .reset .. | .setLimits .. => isTrue trivial

instance (stream : Nat) (s : CallbackStreams) : Decidable (Drained stream s) :=
  inferInstanceAs (Decidable (∀ st ∈ s.streams, _ → ∀ r ∈ st.retained, _))

/-- The tail arrives first, then byte 1 alone. Of the head two bytes are taken at first, byte 1
among them; the third byte and the tail follow. -/
def feedOps : List Op :=
  [.receiveCopying 0 [4, 5, 6] 3 0 3 true ⟨true, true⟩ acceptAll,
   .receiveCopying 0 [2] 1 0 1 false ⟨true, true⟩ acceptAll,
   .receiveBorrowed 0 [1, 2, 3] 0 false (.ok [1, 2, 3]) ⟨true, true⟩ (fun _ _ _ _ => some 2),
   .resumeCopying 0 acceptAll]

theorem ordered_delivery_feedOps :
    6 ≤ (accepted 0 (Runs.exec Log.step (Log.new 4 100) feedOps).events).length := by
  have hrun : Runs.Along Log.step (Feeding [1, 2, 3, 4, 5, 6] 0) (Log.new 4 100) feedOps := by
    decide +kernel
  have hkeep : Runs.Along Log.step (KeepsRanges 0) (Log.new 4 100) feedOps := by decide +kernel
  obtain ⟨-, -, -, -, hcomplete⟩ :=
    ordered_delivery [1, 2, 3, 4, 5, 6] 0 ⟨4, by decide⟩ ⟨100, by decide⟩ feedOps hrun
  refine hcomplete hkeep (by decide +kernel) 6 ?_
  intro k hk
  by_cases hhead : k < 3
  · exact ⟨_, mem_cons_of_mem _ (mem_cons_of_mem _ (mem_cons_self ..)), 0, _, _, rfl,
      zero_le _, hhead⟩
  refine ⟨_, mem_cons_self .., 3, _, _, rfl, by omega, ?_⟩
  show k < 3 + 3
  omega

/-- The whole stream in one frame, twice. -/
def repeatedOps : List Op :=
  [.receiveCopying 0 [1, 2] 0 0 2 true ⟨true, true⟩ acceptAll,
    .receiveCopying 0 [1, 2] 0 0 2 true ⟨true, true⟩ acceptAll]

/-- Byte 1 is retained behind a gap; a frame at the cursor delivers bytes 0 and 1 and strands it
with the rest of its range. -/
def strandingOps : List Op :=
  [.receiveCopying 0 [2, 3] 1 0 2 true ⟨true, true⟩ acceptAll,
   .receiveCopying 0 [1, 2] 0 0 2 false ⟨true, true⟩ acceptAll]

/-- A frame repeated after the end of the stream is delivered again, and a frame at the cursor that
ends inside a retained range leaves the rest of it undelivered. -/
theorem repeated_after_end_and_stranded :
    (Runs.Along Log.step (fun log op => Feeds [1, 2] 0 op ∧ (apply log.state op).result = .ok ())
        (Log.new 4 100) repeatedOps ∧
      ¬ accepted 0 (Runs.exec Log.step (Log.new 4 100) repeatedOps).events <+: [1, 2]) ∧
    (Runs.Along Log.step (Feeding [1, 2, 3] 0) (Log.new 4 100) strandingOps ∧
      (∀ k < 3, Covers strandingOps k) ∧
      Drained 0 (Runs.exec Log.step (Log.new 4 100) strandingOps).state ∧
      (accepted 0 (Runs.exec Log.step (Log.new 4 100) strandingOps).events).length = 2) := by
  refine ⟨⟨by decide +kernel, by decide +kernel⟩, by decide +kernel, ?_, by decide +kernel,
    by decide +kernel⟩
  intro k hk
  by_cases hhead : k < 2
  · exact ⟨_, mem_cons_of_mem _ (mem_cons_self ..), 0, _, _, rfl, zero_le _, hhead⟩
  refine ⟨_, mem_cons_self .., 1, _, _, rfl, by omega, ?_⟩
  show k < 1 + 2
  omega

end QuicLite.Callback
