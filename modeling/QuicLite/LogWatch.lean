import Mathlib.Order.Interval.Finset.Nat
import QuicLite.Wire.Varint

/-!
# Polling the log

`LogRing` keeps the newest records, numbered in one sequence. A poll walks what is retained behind
its cursor, returns what passes its filter until the page is full, and hands back the cursor where
it stopped.
-/

namespace QuicLite.LogWatch

open List Nat

variable {ring : LogRing}

abbrev Text := List Char

structure LogRecord where
  seq : Nat
  timeMs : Nat
  level : Nat
  source : Text
  kind : Option Text
  text : Text
  fields : Option Bytes

/-! ## The ring -/

structure LogRing where
  records : List LogRecord
  capacity : Nat
  nextSeq : Nat

def maxTextBytes : Nat := 240

/-- The characters that fit in `room` bytes of UTF-8. -/
def cut (room : Nat) : Text → Text
  | [] => []
  | c :: rest => if c.utf8Size ≤ room then c :: cut (room - c.utf8Size) rest else []

namespace LogRing

def new (capacity : Nat) : LogRing := ⟨[], capacity, 1⟩

/-- `record` comes with any number. The ring gives it the next one and cuts its text. -/
def push (ring : LogRing) (record : LogRecord) : LogRing :=
  if ring.capacity = 0 then { ring with nextSeq := ring.nextSeq + 1 }
  else
    { ring with
      records := ring.records.drop (ring.records.length + 1 - ring.capacity) ++
        [{ record with seq := ring.nextSeq, text := cut maxTextBytes record.text }]
      nextSeq := ring.nextSeq + 1 }

/-- The number of the first retained record. -/
def oldest (ring : LogRing) : Nat := (ring.records.head?.map (·.seq)).getD ring.nextSeq

/-- What `read` visits, and how many records have left the history. -/
def read (ring : LogRing) (since : Nat) : List LogRecord × Nat :=
  (ring.records.filter fun record => since < record.seq, ring.oldest - (since + 1))

end LogRing

/-! ## A poll -/

/-- The part of a request that a poll reads beside its cursor. -/
structure WatchRequest where
  limit : Nat
  level : Nat
  source : Option Text
  kind : Option Text

/-- The name itself or a name below it, in dotted notation. -/
def below (source name : Text) : Bool :=
  source.isPrefixOf name && (name.drop source.length).head?.all (· == '.')

def WatchRequest.matches (watch : WatchRequest) (record : LogRecord) : Bool :=
  record.level ≤ watch.level && watch.source.all (fun source => below source record.source) &&
    watch.kind.all fun kind => record.kind.any kind.isPrefixOf

def defaultPollLimit : Nat := 32

def WatchRequest.pageLimit (watch : WatchRequest) : Nat :=
  if watch.limit = 0 then defaultPollLimit else watch.limit

/-- The visitor of the poll, over the records that `read` offers. -/
def visit (watch : WatchRequest) : List LogRecord → List LogRecord → Nat → List LogRecord × Nat
  | [], records, cursor => (records, cursor)
  | record :: rest, records, cursor =>
    if watch.matches record then
      if watch.pageLimit ≤ records.length + 1 then (records ++ [record], max cursor record.seq)
      else visit watch rest (records ++ [record]) (max cursor record.seq)
    else visit watch rest records (max cursor record.seq)

/-- A poll with what it found: the ring, its request, and the response. -/
structure Poll where
  ring : LogRing
  since : Nat
  watch : WatchRequest
  records : List LogRecord
  cursor : Nat
  dropped : Nat

def LogRing.poll (ring : LogRing) (since : Nat) (watch : WatchRequest) : Poll :=
  let found := visit watch (ring.read since).1 [] since
  ⟨ring, since, watch, found.1, found.2, (ring.read since).2⟩

inductive Event where
  | push (record : LogRecord)
  | poll (watch : WatchRequest)

/-- The polls of a run. Each passes the cursor of the one before it. -/
def polls : LogRing → Nat → List Event → List Poll
  | _, _, [] => []
  | ring, cursor, .push record :: events => polls (ring.push record) cursor events
  | ring, cursor, .poll watch :: events =>
    ring.poll cursor watch :: polls ring (ring.poll cursor watch).cursor events

/-! ## What a poll returns -/

/-- The records are numbered upward, below the next number. -/
structure Numbered (ring : LogRing) : Prop where
  ascending : ring.records.Pairwise fun a b => a.seq < b.seq
  below : ∀ record ∈ ring.records, record.seq < ring.nextSeq

theorem Numbered.push (h : Numbered ring) (record : LogRecord) : Numbered (ring.push record) := by
  unfold LogRing.push
  split
  · exact ⟨h.ascending, fun r hr => (h.below r hr).trans (lt_succ_self _)⟩
  have hkept : ∀ r ∈ ring.records.drop (ring.records.length + 1 - ring.capacity),
      r.seq < ring.nextSeq :=
    fun r hr => h.below r (mem_of_mem_drop hr)
  constructor
  · refine pairwise_append.mpr ⟨h.ascending.sublist (drop_sublist _ _), pairwise_singleton _ _, ?_⟩
    intro a ha b hb
    rw [mem_singleton.mp hb]
    exact hkept a ha
  intro r hr
  rcases mem_append.mp hr with hold | hnew
  · exact (hkept r hold).trans (lt_succ_self _)
  · rw [mem_singleton.mp hnew]
    exact lt_succ_self _

/-- A visit that ends behind the first of the offered records, with those of them that match. -/
def Visits (watch : WatchRequest) (offered records : List LogRecord) (cursor : Nat)
    (found : List LogRecord × Nat) : Prop :=
  ∃ seen rest, offered = seen ++ rest ∧ found.1 = records ++ seen.filter watch.matches ∧
    cursor ≤ found.2 ∧
    (∀ record ∈ seen, record.seq ≤ found.2) ∧ (∀ record ∈ rest, found.2 < record.seq) ∧
    (rest = [] ∨ watch.pageLimit ≤ found.1.length)

theorem Visits.cons {watch : WatchRequest} {record : LogRecord} {offered records : List LogRecord}
    {cursor : Nat} {found : List LogRecord × Nat} (hcursor : cursor ≤ record.seq)
    (h : Visits watch offered (records ++ [record].filter watch.matches) record.seq found) :
    Visits watch (record :: offered) records cursor found := by
  obtain ⟨seen, rest, rfl, hrecords, hle, hseen, hrest⟩ := h
  refine ⟨record :: seen, rest, rfl, ?_, hcursor.trans hle, forall_mem_cons.mpr ⟨hle, hseen⟩, hrest⟩
  rw [hrecords, append_assoc, ← filter_append]
  rfl

theorem visit_visits (watch : WatchRequest) {offered : List LogRecord}
    (h : offered.Pairwise fun a b => a.seq < b.seq) (records : List LogRecord) {cursor : Nat}
    (hcursor : ∀ record ∈ offered, cursor < record.seq) :
    Visits watch offered records cursor (visit watch offered records cursor) := by
  induction offered generalizing records cursor with
  | nil => exact ⟨[], [], rfl, by simp [visit], le_rfl, by simp, by simp, .inl rfl⟩
  | cons record offered ih =>
    rw [pairwise_cons] at h
    have hle := (hcursor record mem_cons_self).le
    unfold visit
    rw [max_eq_right hle]
    split
    · next hmatches =>
      split
      · next hlimit =>
            exact ⟨[record], offered, rfl, by simp [hmatches], hle, by simp, h.1,
              .inr (by simpa using hlimit)⟩
      · exact .cons hle (by simpa [hmatches] using ih h.2 (records ++ [record]) h.1)
    · next hmatches => exact .cons hle (by simpa [hmatches] using ih h.2 records h.1)

/-- The poll returns the matching records that are retained between its cursors, in their order. It
stops early only with a full page, and the records it calls dropped are those between its cursor and
the first retained one. -/
structure Poll.Exact (poll : Poll) : Prop where
  records : poll.records = poll.ring.records.filter fun record =>
    poll.since < record.seq && record.seq ≤ poll.cursor && poll.watch.matches record
  advances : poll.since ≤ poll.cursor
  reaches : poll.records.length < poll.watch.pageLimit → ∀ record ∈ poll.ring.records,
    record.seq ≤ poll.cursor
  dropped : poll.dropped = (Finset.Ioo poll.since poll.ring.oldest).card

theorem poll_exact (h : Numbered ring) (since : Nat) (watch : WatchRequest) :
    (ring.poll since watch).Exact := by
  have hoffered : ∀ record ∈ (ring.read since).1, since < record.seq := by
    intro record hrecord
    simpa using (mem_filter.mp hrecord).2
  obtain ⟨seen, rest, hsplit, hrecords, hle, hseen, hrest, hfull⟩ :=
    visit_visits watch (h.ascending.sublist filter_sublist) [] hoffered
  unfold LogRing.poll LogRing.read
  simp only
  generalize visit watch (ring.records.filter fun record => since < record.seq) [] since =
    found at *
  refine ⟨?_, hle, ?_, ?_⟩
  · have hkept : (seen ++ rest).filter (fun record =>
      record.seq ≤ found.2 && watch.matches record) =
        seen.filter watch.matches := by
      have hlater : rest.filter (fun record => record.seq ≤ found.2 && watch.matches record) = [] :=
        filter_eq_nil_iff.mpr fun r hr => by simp [not_le.mpr (hrest r hr)]
      rw [filter_append, hlater, append_nil]
      exact filter_congr fun r hr => by simp [hseen r hr]
    rw [hrecords, ← hkept, ← hsplit, filter_filter]
    exact filter_congr fun r _ => by ac_rfl
  · intro hroom record hrecord
    obtain rfl : rest = [] := hfull.resolve_right (not_le.mpr hroom)
    by_cases hlt : since < record.seq
    · refine hseen record ?_
      rw [← append_nil seen, ← hsplit]
      exact mem_filter.mpr ⟨hrecord, by simpa using hlt⟩
    · exact (not_lt.mp hlt).trans hle
  · rw [card_Ioo]
    exact sub_add_eq _ _ _

theorem polls_ascending (h : Numbered ring) (cursor : Nat) (events : List Event) :
    (∀ poll ∈ polls ring cursor events, poll.Exact) ∧
      (∀ record ∈ (polls ring cursor events).flatMap (·.records), cursor < record.seq) ∧
      ((polls ring cursor events).flatMap (·.records)).Pairwise fun a b => a.seq < b.seq := by
  induction events generalizing ring cursor with
  | nil => simp [polls]
  | cons event events ih =>
    cases event with
    | push record => exact ih (h.push record) cursor
    | poll watch =>
    have hexact := poll_exact h cursor watch
    obtain ⟨hlater, hbehind, hascending⟩ := ih h (ring.poll cursor watch).cursor
    have hpage : ∀ record ∈ (ring.poll cursor watch).records,
        cursor < record.seq ∧ record.seq ≤ (ring.poll cursor watch).cursor := by
      intro record hrecord
      rw [hexact.records, mem_filter, Bool.and_eq_true, Bool.and_eq_true] at hrecord
      exact ⟨of_decide_eq_true hrecord.2.1.1, of_decide_eq_true hrecord.2.1.2⟩
    rw [polls, flatMap_cons]
    refine ⟨forall_mem_cons.mpr ⟨hexact, hlater⟩, ?_, ?_⟩
    · exact forall_mem_append.mpr ⟨fun r hr => (hpage r hr).1, fun r hr =>
        hexact.advances.trans_lt (hbehind r hr)⟩
    rw [pairwise_append]
    refine ⟨?_, hascending, fun a ha b hb => (hpage a ha).2.trans_lt (hbehind b hb)⟩
    rw [hexact.records]
    exact h.ascending.sublist filter_sublist

/-- However pushes and polls interleave, each poll is exact, and over all polls each record is
returned once, in the order of the sequence. -/
theorem polling_exact (capacity cursor : Nat) (events : List Event) :
    (∀ poll ∈ polls (.new capacity) cursor events, poll.Exact) ∧
      ((polls (.new capacity) cursor events).flatMap (·.records)).Pairwise fun a b =>
        a.seq < b.seq := by
  have hstart : Numbered (.new capacity) := ⟨.nil, by simp [LogRing.new]⟩
  obtain ⟨hexact, -, hascending⟩ := polls_ascending hstart cursor events
  exact ⟨hexact, hascending⟩

end QuicLite.LogWatch
