import QuicLite.Stream.Reading

/-!
# Agreement of the two servers

A condition on the header and on the sink is enough for the two servers to agree, as what a request
comes to is then the same for both. It is necessary because a driver can bring a stream to
everything that header and sink make possible.
-/

namespace QuicLite.Stream

open Cbor Discovery List Option Nat Reaches ServerStream Header

/-! ## What a driver can reach -/

variable {length : Nat} {chunk taken body : Bytes} {next : Nat}

section Reaching

variable {σ δ ρ : Type} {host : Host σ δ ρ} {request : Bytes} {s : Session σ δ ρ} {response : ρ}
    {n : Nat}

theorem Reaches.step (h : Reaches host request s) {op : DriverOp} (hdrives : Drives request s op) :
    Reaches host request (s.step host request op) := by
  obtain ⟨ops, hrun, rfl⟩ := h
  exact ⟨ops ++ [op], Runs.Along.append.mpr ⟨hrun, hdrives, trivial⟩, by rw [Runs.exec_append]; rfl⟩

open ServerStream

theorem Reaches.close (h : Reaches host request s) (hphase : s.stream.phase = .discard)
    (hoffset : s.accepted = s.stream.received) (hopen : s.ended = false) :
    ∃ last, Reaches host request last ∧ last.Complete ∧ last.responses = s.responses ∧
      last.stream.log = s.stream.log := by
  have hpush : s.stream.push host s.accepted true (s.chunk request request.length) =
      ({ s.stream with received := s.stream.received + (s.chunk request request.length).length },
        ⟨(s.chunk request request.length).length, none⟩) := by
    rw [push, if_neg (not_not.mpr hoffset)]
    simp [hphase]
  refine ⟨s.step host request (.push request.length true),
    h.step ⟨hopen, fun _ => le_add_left _ _⟩, ?_⟩
  rw [Session.step]
  rw [hpush]
  refine ⟨⟨?_, hphase⟩, ?_, rfl⟩
  · show (s.ended || (true && _ == _)) = true
    rw [beq_self_eq_true, Bool.and_true, Bool.or_true]
  · show s.responses ++ [] = _
    rw [append_nil]

/-- A stream that is out of step with its driver answers once more. -/
theorem Reaches.mismatch (h : Reaches host request s) (hoffset : s.accepted ≠ s.stream.received)
    (hopen : s.ended = false) : ∃ last, Reaches host request last ∧ last.Complete ∧
      last.responses.length = s.responses.length + 1 := by
  have hpush : s.stream.push host s.accepted true (s.chunk request request.length) =
      s.stream.fail host (s.chunk request request.length).length "stream offset rejected" := by
    rw [push, if_pos hoffset]
  refine ⟨s.step host request (.push request.length true),
    h.step ⟨hopen, fun _ => le_add_left _ _⟩, ?_⟩
  rw [Session.step]
  rw [hpush]
  refine ⟨⟨?_, rfl⟩, ?_⟩
  · show (s.ended || (true && (s.chunk request request.length).length == _)) = true
    rw [beq_self_eq_true, Bool.and_true, Bool.or_true]
  · show (s.responses ++ [_]).length = _
    rw [length_append, length_singleton]

/-! ### The header -/

theorem Reaches.new : Reaches host request (.new : Session σ δ ρ) := ⟨[], trivial, rfl⟩

/-- The start of a request, pushed as one. -/
theorem step_start (hn : n ≤ maxHeaderBytes + maxSurplusBytes) (fin : Bool) :
    (Session.new : Session σ δ ρ).step host request (.push n fin) =
      let stream : ServerStream σ δ := { ServerStream.new with
        header := request.take n
        received := 0 + (request.take n).length }
      let out := match scanHeader (request.take n) with
        | .needMore =>
          if fin = true then stream.fail host (request.take n).length
            "request ended inside its header"
          else (stream, ⟨(request.take n).length, none⟩)
        | .invalid => stream.fail host (request.take n).length "invalid request header"
        | .complete length =>
          ((stream.openHandler host length fin).1,
            ⟨(request.take n).length, (stream.openHandler host length fin).2⟩)
      (Session.advance .new out.2.accepted
        (fin && out.2.accepted == (request.take n).length)).answer
        (out.1, out.2.response) := by
  have hcount : min (request.take n).length
      (maxHeaderBytes + maxSurplusBytes - ([] : Bytes).length) =
      (request.take n).length := by
    rw [length_take, length_nil]
    omega
  have hoffset : ¬ (0 : Nat) ≠ (.new : ServerStream σ δ).received := not_not.mpr rfl
  rw [Session.step]
  rw [show (.new : Session σ δ ρ).chunk request n = request.take n from rfl,
    show (.new : Session σ δ ρ).stream = .new from rfl,
      show (.new : Session σ δ ρ).accepted = 0 from rfl,
    push, show (.new : ServerStream σ δ).phase = .header from rfl]
  rw [pushHeader, show (.new : ServerStream σ δ).header = [] from rfl, hcount, take_length,
    beq_self_eq_true, Bool.and_true]
  rfl

variable (host) in
/-- The header is pushed alone. -/
theorem Reaches.headed (hlength : scanHeader request = .complete length) :
    let stream : ServerStream σ δ := { ServerStream.new with
      header := request.take length
      received := 0 + (request.take length).length }
    let out := stream.openHandler host length false
    Reaches host request ((Session.advance .new (request.take length).length
      (false && (request.take length).length == (request.take length).length)).answer
        (out.1, out.2)) := by
  have hstep : Reaches host request
      ((.new : Session σ δ ρ).step host request (.push length false)) :=
    new.step ⟨rfl, fun hend => by cases hend⟩
  rw [step_start (length_of_complete hlength).2, scanHeader_take hlength] at hstep
  exact hstep


theorem Reaches.refused (hn : n ≤ maxHeaderBytes + maxSurplusBytes)
    (hscan : scanHeader (request.take n) = .invalid) :
    ∃ last : Session σ δ ρ, Reaches host request last ∧ last.Complete ∧
      last.responses = [host.headerOnly
        (host.errorHeader (host.idOf (request.take n)) "invalid request header")] := by
  have hstep : Reaches host request ((.new : Session σ δ ρ).step host request (.push n false)) :=
    new.step ⟨rfl, fun hend => by cases hend⟩
  rw [step_start hn, hscan] at hstep
  obtain ⟨last, hlast, hcomplete, hresponses, -⟩ := hstep.close rfl rfl rfl
  exact ⟨last, hlast, hcomplete, hresponses⟩

theorem Reaches.cut (hscan : scanHeader request = .needMore) :
    ∃ last : Session σ δ ρ, Reaches host request last ∧ last.Complete ∧
      last.responses = [host.headerOnly
        (host.errorHeader (host.idOf request) "request ended inside its header")] := by
  have hn : request.length ≤ maxHeaderBytes + maxSurplusBytes :=
    le_trans (le_of_lt (length_of_needMore hscan)) (le_add_right _ _)
  have hstep : Reaches host request
      ((.new : Session σ δ ρ).step host request (.push request.length true)) :=
    new.step ⟨rfl, fun _ => le_add_left _ _⟩
  rw [step_start hn, take_length, hscan] at hstep
  dsimp only at hstep
  refine ⟨_, hstep, ⟨?_, rfl⟩, rfl⟩
  show (false || (true && request.length == request.length)) = true
  rw [beq_self_eq_true]
  rfl

theorem Reaches.declined (hlength : scanHeader request = .complete length)
    (hopen : host.openNow (request.take length) = none) :
    ∃ last : Session σ δ ρ, Reaches host request last ∧ last.Complete ∧ last.responses = [] := by
  have hstep := headed host hlength
  dsimp only [openHandler] at hstep
  rw [take_take, min_self, hopen] at hstep
  obtain ⟨last, hlast, hcomplete, hresponses, -⟩ := hstep.close rfl rfl rfl
  exact ⟨last, hlast, hcomplete, hresponses⟩

theorem Reaches.responded (hlength : scanHeader request = .complete length)
    (hopen : host.openNow (request.take length) = some (.respond response)) :
    ∃ last : Session σ δ ρ, Reaches host request last ∧ last.Complete := by
  have hstep := headed host hlength
  dsimp only [openHandler] at hstep
  rw [take_take, min_self, hopen] at hstep
  obtain ⟨last, hlast, hcomplete, -⟩ := hstep.close rfl rfl rfl
  exact ⟨last, hlast, hcomplete⟩

/-- Deferred work is polled until it answers. -/
theorem Reaches.polled {deferred : δ} (h : Yields host deferred response) :
    ∀ {s : Session σ δ ρ}, s.stream.phase = .waiting deferred → s.accepted = s.stream.received →
      s.ended = false →
      Reaches host request (s.answer (s.stream.poll host)) →
        ∃ last : Session σ δ ρ, Reaches host request last ∧ last.Complete := by
  induction h with
  | now hpoll =>
    intro s hphase hoffset hopen hs
    rw [poll, hphase] at hs
    dsimp only at hs
    rw [hpoll] at hs
    obtain ⟨last, hlast, hcomplete, -⟩ := hs.close rfl hoffset hopen
    exact ⟨last, hlast, hcomplete⟩
  | @later deferred next response hpoll hnext ih =>
    intro s hphase hoffset hopen hs
    rw [poll, hphase] at hs
    dsimp only at hs
    rw [hpoll] at hs
    let waiting : Session σ δ ρ := s.answer ({ s.stream with phase := .waiting next }, none)
    have hpoll : Reaches host request (waiting.step host request .poll) := hs.step trivial
    exact ih (s := waiting) rfl hoffset hopen hpoll

theorem Reaches.deferred (hlength : scanHeader request = .complete length) {deferred : δ}
    (hopen : host.openNow (request.take length) = some (.defer deferred))
    (hyields : Yields host deferred response) :
    ∃ last : Session σ δ ρ, Reaches host request last ∧ last.Complete := by
  have hstep := headed host hlength
  dsimp only [openHandler] at hstep
  rw [take_take, min_self, hopen] at hstep
  let stream : ServerStream σ δ := { (.new : ServerStream σ δ) with
    phase := .waiting deferred
    received := 0 + (request.take length).length
    header := request.take length }
  let waiting : Session σ δ ρ := ⟨stream, 0 + (request.take length).length, false, []⟩
  exact polled (s := waiting) hyields rfl rfl rfl hstep

/-! ### The body -/

/-- The sink took a part of the body in direct writes. -/
def Session.feeding (request : Bytes) (length : Nat) (next : σ) (taken : Bytes) : Session σ δ ρ :=
  ⟨⟨.body next, length + taken.length, request.take length, [], false, false,
    ⟨true, taken, false, 0⟩⟩, length + taken.length, false, []⟩

variable {length : Nat} {sink next : σ} {taken left : Bytes}

theorem feeding_left (h : Feeds host sink (request.drop length) taken next left) :
    request.drop (length + taken.length) = left := by
  rw [← drop_drop, h.split, drop_left]

theorem feeding_drives
    (h : Feeds host sink (request.drop length) taken next left) {fin : Bool}
    (hfin : fin = true → chunk = left) :
    Drives request (Session.feeding request length next taken : Session σ δ ρ)
    (.push chunk.length fin) := by
  refine ⟨rfl, fun hend => ?_⟩
  have hbody := congrArg List.length h.split
  rw [List.length_drop, List.length_append] at hbody
  show request.length ≤ length + taken.length + chunk.length
  rw [hfin hend]
  omega

/-- What a direct write does to a stream that is fed. -/
theorem push_feeding (h : Feeds host sink (request.drop length) taken next left)
    (hchunk : chunk.IsPrefix left) (fin : Bool) :
    (Session.feeding request length next taken : Session σ δ ρ).step host request
      (.push chunk.length fin) =
      let s : Session σ δ ρ := .feeding request length next taken
      match host.write next chunk fin with
      | .ok (accepted, last) =>
        let next := { s.stream.took last (chunk.take accepted) with
          received := s.stream.received + accepted }
        if fin = true ∧ accepted = chunk.length then
          (s.advance accepted true).answer (next.complete host)
        else (s.advance accepted false).answer (next, none)
      | .error header =>
        (s.advance chunk.length fin).answer (s.stream.sinkFailed,
          some (host.headerOnly header)) := by
  have hoffset : ¬ (.feeding request length next taken : Session σ δ ρ).accepted ≠
      (.feeding request length next taken : Session σ δ ρ).stream.received := not_not.mpr rfl
  have hoffered : (.feeding request length next taken : Session σ δ ρ).chunk request chunk.length =
      chunk := by
    show (request.drop (length + taken.length)).take chunk.length = chunk
    rw [feeding_left h]
    exact (prefix_iff_eq_take.mp hchunk).symm
  rw [Session.step, hoffered, push, if_neg hoffset]
  dsimp only [Session.feeding, pushBody]
  rw [if_neg (by decide)]
  cases hwrite : host.write next chunk fin with
  | error header =>
    rw [beq_self_eq_true, Bool.and_true]
  | ok out =>
  obtain ⟨accepted, last⟩ := out
  dsimp only
  by_cases hlast : fin = true ∧ accepted = chunk.length
  · have hend : (fin && accepted == chunk.length) = true := by simpa using hlast
    rw [if_pos hlast, if_pos hend, hend]
  have hend : (fin && accepted == chunk.length) = false := by
    simpa using hlast
  have hopened : ¬ (fin && accepted == chunk.length) = true := by
    rw [hend]; exact Bool.false_ne_true
  rw [if_neg hlast, if_neg hopened]
  rw [hend]

section

variable (hlength : scanHeader request = .complete length)
    (hopen : host.openNow (request.take length) = some (.receive sink))
include hlength hopen

section

variable (h : Feeds host sink (request.drop length) taken next left)
include h

theorem Reaches.feeding :
    Reaches host request (Session.feeding request length next taken : Session σ δ ρ) := by
  induction h with
  | start =>
    have hstep := headed host hlength
    dsimp only [openHandler] at hstep
    rw [take_take, Nat.min_self, hopen, drop_take, Nat.sub_self] at hstep
    dsimp only at hstep
    rw [length_take_of_le (length_of_complete hlength).1] at hstep
    have hstate : ((.new : Session σ δ ρ).advance length (false && length == length)).answer
        (({ phase := .body sink, received := 0 + length, header := request.take length,
            surplus := [],
            fin := false, finished := false, log := ⟨true, [], false, 0⟩ } : ServerStream σ δ),
              none) =
        Session.feeding request length sink [] := by
      simp [Session.feeding, Session.advance, Session.answer, Session.new]
    rw [← hstate]
    exact hstep
  | @more taken next left h chunk fin hchunk hfin accepted last hwrite hmore ih =>
    have hdrives : Drives request (.feeding request length next taken : Session σ δ ρ)
        (.push chunk.length fin) :=
      feeding_drives h hfin
    have hle := host.write_le hwrite
    have hshort : chunk.length ≤ left.length := hchunk.length_le
    have hopened : ¬ (fin = true ∧ accepted = chunk.length) := by
      rintro ⟨hend, hall⟩
      have hless := hmore hend
      rw [hfin hend] at hall
      omega
    have hstep := ih.step hdrives
    rw [push_feeding h hchunk fin, hwrite] at hstep
    dsimp only at hstep
    rw [if_neg hopened] at hstep
    have htake : chunk.take accepted = left.take accepted := by
      rw [prefix_iff_eq_take.mp hchunk, take_take, min_eq_left hle]
    have hcount : (left.take accepted).length = accepted :=
      length_take_of_le (le_trans hle hshort)
    have hstate : ((.feeding request length next taken : Session σ δ ρ).advance accepted
        false).answer
        (({ (.feeding request length next taken : Session σ δ ρ).stream.took last
          (chunk.take accepted) with
            received := length + taken.length + accepted } : ServerStream σ δ), none) =
        Session.feeding request length last (taken ++ left.take accepted) := by
      rw [htake]
      simp [Session.feeding, Session.advance, Session.answer, took, hcount, add_assoc]
    rw [← hstate]
    exact hstep

/-- The last bytes are taken. -/
theorem Reaches.finished {last : σ} (hwrite : host.write next left true = .ok (left.length, last)) :
    ∃ s : Session σ δ ρ, Reaches host request s ∧ s.Complete ∧ s.responses = [host.finish last] ∧
      s.stream.log.taken = request.drop length := by
  have hdrives : Drives request (.feeding request length next taken : Session σ δ ρ)
      (.push left.length true) :=
    feeding_drives h fun _ => rfl
  have hstep := (feeding hlength hopen h).step hdrives
  rw [push_feeding h prefix_rfl true, hwrite] at hstep
  dsimp only at hstep
  rw [if_pos ⟨rfl, rfl⟩] at hstep
  refine ⟨_, hstep, ⟨rfl, rfl⟩, rfl, ?_⟩
  show taken ++ left.take left.length = _
  rw [take_length, h.split]

/-- A write fails that leaves stream and driver in step. -/
theorem Reaches.failed {fin : Bool}
    (hchunk : chunk.IsPrefix left) (hfin : fin = true → chunk = left) {header : Bytes}
    (hwrite : host.write next chunk fin = .error header) (hlast : fin = true ∨ chunk = []) :
    ∃ s : Session σ δ ρ, Reaches host request s ∧ s.Complete ∧
      s.responses = [host.headerOnly header] ∧
      s.stream.log.taken = taken := by
  have hstep := (feeding hlength hopen h).step (feeding_drives h hfin)
  rw [push_feeding h hchunk fin, hwrite] at hstep
  cases fin with
  | true => exact ⟨_, hstep, ⟨rfl, rfl⟩, rfl, rfl⟩
  | false =>
    obtain rfl : chunk = [] := hlast.resolve_left Bool.false_ne_true
    obtain ⟨s, hs, hcomplete, hresponses, hlog⟩ := hstep.close rfl rfl rfl
    exact ⟨s, hs, hcomplete, hresponses, congrArg SinkLog.taken hlog⟩

end

theorem Reaches.broken (h : Breaks host sink (request.drop length)) :
    ∃ s : Session σ δ ρ, Reaches host request s ∧ s.Complete ∧ s.responses.length = 2 := by
  obtain ⟨taken, next, left, chunk, header, hfeeds, hne, hchunk, hwrite⟩ := h
  have hdrives : Drives request (.feeding request length next taken : Session σ δ ρ)
      (.push chunk.length false) :=
    feeding_drives hfeeds fun hend => by cases hend
  have hstep := (feeding hlength hopen hfeeds).step hdrives
  rw [push_feeding hfeeds hchunk false, hwrite] at hstep
  have hpos := length_pos_iff.mpr hne
  obtain ⟨s, hs, hcomplete, hresponses⟩ := hstep.mismatch
    (show length + taken.length + chunk.length ≠ length + taken.length by omega) rfl
  exact ⟨s, hs, hcomplete, hresponses⟩

/-- However a sink is fed, it is the end of some session. -/
theorem Reaches.fed (h : Fed host sink (request.drop length) taken response) :
    ∃ s : Session σ δ ρ, Reaches host request s ∧ s.Complete ∧
      (s.responses = [response] ∧ s.stream.log.taken = taken ∨
        Breaks host sink (request.drop length)) := by
  cases h with
  | finished hfeeds hwrite =>
    obtain ⟨s, hs, hcomplete, hresponses, htaken⟩ := finished hlength hopen hfeeds hwrite
    exact ⟨s, hs, hcomplete, .inl ⟨hresponses, htaken⟩⟩
  | @failed _ next left hfeeds chunk fin hchunk hfin header hwrite =>
  by_cases hlast : fin = true ∨ chunk = []
  · obtain ⟨s, hs, hcomplete, hresponses, htaken⟩ :=
      failed hlength hopen hfeeds hchunk hfin hwrite hlast
    exact ⟨s, hs, hcomplete, .inl ⟨hresponses, htaken⟩⟩
  rw [not_or, Bool.not_eq_true] at hlast
  rw [hlast.1] at hwrite
  have hbreaks : Breaks host sink (request.drop length) :=
    ⟨taken, next, left, chunk, header, hfeeds, hlast.2, hchunk, hwrite⟩
  obtain ⟨s, hs, hcomplete, -⟩ := broken hlength hopen hbreaks
  exact ⟨s, hs, hcomplete, .inr hbreaks⟩

end

end Reaching

/-! ## The servers compared -/

section Enough

theorem Handled.unique {σ δ ρ : Type} {host : Host σ δ ρ} {taken' : Bytes}
    {outcome : Option (Outcome σ δ ρ)} {responses responses' : List ρ}
    (hsink : ∀ sink, outcome = some (.receive sink) → ∀ taken response taken' response',
      Fed host sink body taken response → Fed host sink body taken' response' →
        taken = body ∧ response = response') (h : Handled host body outcome taken responses)
        (h' : Handled host body outcome taken' responses') :
    responses = responses' ∧ taken = taken' := by
  cases h with
  | declined =>
    cases h'
    exact ⟨rfl, rfl⟩
  | responded response =>
    cases h'
    exact ⟨rfl, rfl⟩
  | deferred hyields =>
    cases h' with
    | deferred hyields' => exact ⟨by rw [hyields.unique hyields'], rfl⟩
  | received hfed =>
    cases h' with
    | received hfed' =>
      obtain ⟨htaken, hresponse⟩ := hsink _ rfl _ _ _ _ hfed hfed'
      obtain ⟨htaken', -⟩ := hsink _ rfl _ _ _ _ hfed' hfed
      exact ⟨by rw [hresponse], htaken.trans htaken'.symm⟩

variable {σ η ω : Type} {site : Site σ η ω}

theorem headerOnly_eq (header : Bytes) : site.host.headerOnly header = header := append_nil header

end Enough

section Necessary

variable {σ η ω : Type} {site : Site σ η ω} {request : Bytes} {serving : Serving ω}
    {response : Option Bytes}
variable {cbor : Codec} {sink : ω}

theorem errorHeader_eq (hlaw : cbor.Lawful) (id : Option Nat) (message : String) :
    errorHeader cbor id message = errorRecord cbor id (utf8 message) := by
  have hmessage := headLength_le_nine (utf8 message).length
  refine if_pos ?_
  cases id with
  | none =>
    have h1 : headLength 1 = 1 := by decide
    have h7 : headLength 7 = 1 := by decide
    simp only [errorRecord, length_append, hlaw.length_map, hlaw.length_uint, hlaw.length_textValue]
    omega
  | some id =>
    have hid := headLength_le_nine id
    have h2 : headLength 2 = 1 := by decide
    have h3 : headLength 3 = 1 := by decide
    have h7 : headLength 7 = 1 := by decide
    simp only [errorRecord, length_append, hlaw.length_map, hlaw.length_uint, hlaw.length_textValue]
    omega

/-- An error tells whether it has an id. -/
theorem id_of_errorHeader (hlaw : cbor.Lawful) {id : Option Nat} {message : String}
    (h : errorHeader cbor id message = errorHeader cbor none message) : id = none := by
  cases id with
  | none => rfl
  | some id =>
    rw [errorHeader_eq hlaw, errorHeader_eq hlaw] at h
    have hlength := congrArg length h
    have h1 : headLength 1 = 1 := by decide
    have h2 : headLength 2 = 1 := by decide
    have h3 : headLength 3 = 1 := by decide
    simp only [errorRecord, length_append, hlaw.length_map, hlaw.length_uint] at hlength
    omega

/-- What the reading server comes to, a pushed stream comes to the end of as well. -/
theorem Ended.completes (hready : Ready site)
    (h : Ended site request serving response) : ∃ s, Reaches site.host request s ∧ s.Complete := by
  have hserved := h.servedTo hready
  generalize serving.taken = taken at hserved
  cases hserved with
  | @handled length hlength hdecode taken response hhandled hall =>
    cases hopen : site.host.openNow (request.take length) with
    | none =>
      obtain ⟨s, hs, hcomplete, -⟩ := declined hlength hopen
      exact ⟨s, hs, hcomplete⟩
    | some outcome =>
    rw [hopen] at hhandled
    generalize response.toList = responses at hhandled
    cases hhandled with
    | responded response => exact responded hlength hopen
    | deferred hyields => exact deferred hlength hopen hyields
    | received hfed =>
      obtain ⟨s, hs, hcomplete, -⟩ := fed hlength hopen hfed
      exact ⟨s, hs, hcomplete⟩
  | undecoded hlength hdecode =>
    have hopen : site.host.openNow (request.take _) = none := congrArg (bind · _) hdecode
    obtain ⟨s, hs, hcomplete, -⟩ := declined hlength hopen
    exact ⟨s, hs, hcomplete⟩
  | refused hscan =>
    obtain ⟨s, hs, hcomplete, -⟩ := refused (le_refl _) (scanHeader_take_room hscan)
    exact ⟨s, hs, hcomplete⟩
  | cut hscan =>
    obtain ⟨s, hs, hcomplete, -⟩ := cut hscan
    exact ⟨s, hs, hcomplete⟩

theorem agree_of (hready : Ready site) (hheader : HeaderOk site request)
    (huniform : Uniform site.host request) (hrelays : Relays site.host request) :
    Agree site request where
  ends := by
    constructor
    · intro ⟨s, hs, hcomplete⟩
      have hpushed := hs.pushedTo huniform hcomplete
      generalize s.stream.log.taken = taken, s.responses = responses at hpushed
      cases hpushed with
      | handled hlength hhandled =>
        refine (canEnd_of_handled hready hlength (fun deferred hopen => ?_) fun sink hopen =>
          ?_).ended
        · rw [hopen] at hhandled
          cases hhandled with
          | deferred hyields => exact ⟨_, hyields⟩
        rw [hopen] at hhandled
        cases hhandled with
        | received hfed => exact hrelays _ sink hlength hopen ⟨_, _, hfed⟩
      | refused hn hpart => exact (canEnd_of_invalid (scanHeader_take_invalid hpart)).ended
      | cut hscan => exact (canEnd_of_needMore hscan).ended
    · intro ⟨serving, response, hended⟩
      exact hended.completes hready
  same := by
    intro session serving response hs hcomplete hended
    have hpushed := hs.pushedTo huniform hcomplete
    have hserved := hended.servedTo hready
    generalize session.stream.log.taken = taken, session.responses = responses at hpushed
    generalize serving.taken = taken' at hserved
    unfold HeaderOk at hheader
    cases hpushed with
    | handled hlength hhandled =>
      rw [hlength] at hheader
      cases hserved with
      | handled hlength' hdecode hhandled' hall =>
        obtain rfl := complete.inj (hlength.symm.trans hlength')
        exact Handled.unique (huniform _ · hlength) hhandled hhandled'
      | undecoded hlength' hdecode =>
        obtain rfl := complete.inj (hlength.symm.trans hlength')
        simp only [hdecode] at hheader
        cases hheader
      | refused hscan => cases hlength.symm.trans hscan
      | cut hscan => cases hlength.symm.trans hscan
    | refused hn hpart =>
      have hinvalid := scanHeader_take_invalid hpart
      rw [hinvalid] at hheader
      cases hserved with
      | handled hlength => cases hlength.symm.trans hinvalid
      | undecoded hlength => cases hlength.symm.trans hinvalid
      | refused _ =>
        rw [headerOnly_eq, hheader _ hn hpart]
        exact ⟨rfl, rfl⟩
      | cut hscan => cases hscan.symm.trans hinvalid
    | cut hcut =>
      rw [hcut] at hheader
      cases hserved with
      | handled hlength => cases hlength.symm.trans hcut
      | undecoded hlength => cases hlength.symm.trans hcut
      | refused hscan => cases hscan.symm.trans hcut
      | cut _ =>
        rw [headerOnly_eq, show site.host.idOf request = none from hheader]
        exact ⟨rfl, rfl⟩

theorem Agree.headerOk_of_ended (hlaw : site.cbor.Lawful) (hready : Ready site)
    (h : Agree site request) (hended : Ended site request serving response) :
    HeaderOk site request := by
  have hserved := hended.servedTo hready
  have hsame : ∀ {last : Session ω ω Bytes}, Reaches site.host request last → last.Complete →
      last.responses = response.toList := fun hlast hcomplete =>
        (h.same _ _ _ hlast hcomplete hended).1
  generalize serving.taken = taken at hserved
  unfold HeaderOk
  cases hserved with
  | handled hlength hdecode =>
    rw [hlength]
    exact hdecode
  | undecoded hlength hdecode =>
    have hopen : site.host.openNow (request.take _) = none := congrArg (bind · _) hdecode
    obtain ⟨last, hlast, hcomplete, hresponses⟩ := declined hlength hopen
    cases hresponses.symm.trans (hsame hlast hcomplete)
  | refused hscan =>
    rw [hscan]
    intro n hn hpart
    obtain ⟨last, hlast, hcomplete, hresponses⟩ := refused hn hpart
    have hheader := cons.inj (hresponses.symm.trans (hsame hlast hcomplete))
    rw [headerOnly_eq] at hheader
    exact id_of_errorHeader hlaw hheader.1
  | cut hscan =>
    rw [hscan]
    obtain ⟨last, hlast, hcomplete, hresponses⟩ := cut hscan
    have hheader := cons.inj (hresponses.symm.trans (hsame hlast hcomplete))
    rw [headerOnly_eq] at hheader
    exact id_of_errorHeader hlaw hheader.1

/-- A bad header ends the reading server, so that it is compared. -/
theorem Agree.headerOk (hlaw : site.cbor.Lawful) (hready : Ready site) (h : Agree site request) :
    HeaderOk site request := by
  cases hscan : scanHeader request with
  | needMore =>
    have hends : CanEnd site (.start request) := canEnd_of_needMore hscan
    obtain ⟨serving, response, hended⟩ := hends.ended
    exact h.headerOk_of_ended hlaw hready hended
  | invalid =>
    have hends : CanEnd site (.start request) := canEnd_of_invalid hscan
    obtain ⟨serving, response, hended⟩ := hends.ended
    exact h.headerOk_of_ended hlaw hready hended
  | complete length =>
    cases hdecode : decode site.cbor (request.take length) with
    | some record =>
      unfold HeaderOk
      rw [hscan]
      simp only [hdecode]
      rfl
    | none =>
      have hopen : site.host.openNow (request.take length) = none := congrArg (bind · _) hdecode
      have hends : CanEnd site (.start request) :=
        canEnd_of_handled hready hscan (fun deferred h => by cases hopen.symm.trans h)
          fun sink h => by cases hopen.symm.trans h
      obtain ⟨serving, response, hended⟩ := hends.ended
      exact h.headerOk_of_ended hlaw hready hended

/-- A sink that was fed to the end ended the reading server as well. -/
theorem Agree.ended_of_fed (h : Agree site request)
    (hlength : scanHeader request = .complete length)
    (hopen : site.host.openNow (request.take length) = some (.receive sink)) {response : Bytes}
    (hfed : Fed site.host sink (request.drop length) taken response) :
    ∃ serving response, Ended site request serving response := by
  obtain ⟨s, hs, hcomplete, -⟩ := fed hlength hopen hfed
  exact h.ends.mp ⟨s, hs, hcomplete⟩

/-- A sink takes the whole body, unless a part of it fails, and may be relayed. -/
theorem Ended.receives (hready : Ready site)
    (h : Ended site request serving response) (hlength : scanHeader request = .complete length)
    (hopen : site.host.openNow (request.take length) = some (.receive sink)) :
    (serving.taken = request.drop length ∨ Breaks site.host sink (request.drop length)) ∧
      Relayed site.host sink [] (request.drop length) := by
  have hserved := h.servedTo hready
  generalize serving.taken = taken at hserved
  cases hserved with
  | handled hlength' hdecode hhandled hsink =>
    obtain rfl := complete.inj (hlength.symm.trans hlength')
    exact hsink sink hopen
  | undecoded hlength' hdecode =>
    obtain rfl := complete.inj (hlength.symm.trans hlength')
    have hnone : site.host.openNow (request.take length) = none := congrArg (bind · _) hdecode
    cases hnone.symm.trans hopen
  | refused hscan => cases hlength.symm.trans hscan
  | cut hscan => cases hlength.symm.trans hscan

theorem Agree.uniform (hready : Ready site) (h : Agree site request) :
    Uniform site.host request := by
  intro length sink hlength hopen taken result taken' result' hfed hfed'
  obtain ⟨serving, response, hended⟩ := h.ended_of_fed hlength hopen hfed
  have hwhole : ¬ Breaks site.host sink (request.drop length) := by
    intro hbreaks
    obtain ⟨last, hlast, hcomplete, hresponses⟩ := broken hlength hopen hbreaks
    rw [(h.same _ _ _ hlast hcomplete hended).1] at hresponses
    cases response with
    | none => cases hresponses
    | some response => cases hresponses
  -- Every way to feed the sink is the end of a session, and that is what the server came to.
  have hall : ∀ taken result, Fed site.host sink (request.drop length) taken result →
      [result] = response.toList ∧ taken = serving.taken := by
    intro taken result hfed
    obtain ⟨s, hs, hcomplete, ⟨hresponses, htaken⟩ | hbreaks⟩ := fed hlength hopen hfed
    · rw [← hresponses, ← htaken]
      exact h.same _ _ _ hs hcomplete hended
    · exact absurd hbreaks hwhole
  have hbody := (hended.receives hready hlength hopen).1.resolve_right hwhole
  obtain ⟨hresult, htaken⟩ := hall taken result hfed
  exact ⟨htaken.trans hbody, (cons.inj (hresult.trans (hall taken' result' hfed').1.symm)).1⟩

theorem Agree.relays (hready : Ready site) (h : Agree site request) : Relays site.host request := by
  intro length sink hlength hopen ⟨taken, response, hfed⟩
  obtain ⟨serving, response, hended⟩ := h.ended_of_fed hlength hopen hfed
  exact (hended.receives hready hlength hopen).2

/-- With handlers that are ready, the two servers agree on exactly the requests with a header that
both take for the same and a sink that does not tell how the body is cut. -/
theorem servers_agree_iff (hlaw : site.cbor.Lawful) (hready : Ready site) (request : Bytes) :
    Agree site request ↔ HeaderOk site request ∧ Uniform site.host request ∧
      Relays site.host request := by
  constructor
  · intro h
    exact ⟨h.headerOk hlaw hready, h.uniform hready, h.relays hready⟩
  · intro ⟨hheader, huniform, hrelays⟩
    exact agree_of hready hheader huniform hrelays

end Necessary

/-! ## A sink that counts -/

theorem receive_ready {state' : Unit} {outcome : Option (Registry.Outcome Nat)}
    (h : ((), some (some (Registry.Outcome.receive 0))) = (state', some outcome)) :
    ((), some (Registry.Outcome.receive 0)) = (state', outcome) := by
  obtain ⟨rfl, houtcome⟩ := Prod.mk.inj h
  rw [some.inj houtcome]

theorem count_le {sink : Nat} {accepted : Nat}
    (h : (Except.ok (chunk.length, sink + chunk.length) : Except Bytes (Nat × Nat)) =
      .ok (accepted, next)) :
    accepted ≤ chunk.length := by
  cases h
  exact le_refl _

/-- One method whose sink takes everything and answers how much that was. -/
def countingSite : Site Unit Nat Nat where
  cbor := minimal
  handlers := ⟨fun _ _ _ => ((), some (some (.receive 0))), fun _ _ _ => ((), some (.receive 0)),
    receive_ready⟩
  table := fun slot => if slot = 0 then some (Registry.statusEntry 1) else none
  state := ()
  isLocal := true
  write := fun sink chunk _ => .ok (chunk.length, sink + chunk.length)
  finish := fun sink => .ofHeader [UInt8.ofNat sink]
  pollDeferred := fun work => (none, work)
  source := fun _ => []
  write_le := count_le

theorem countingSite_ready : Ready countingSite := fun _ _ _ _ _ => rfl

theorem countingSite_feeds {left : Bytes} (h : Feeds countingSite.host 0 body taken next left) :
    next = taken.length := by
  induction h with
  | start => rfl
  | @more taken next left h chunk fin hchunk hfin accepted last hwrite hopen ih =>
    have hcount : (.ok (chunk.length, next + chunk.length) : Except Bytes (Nat × Nat)) =
        .ok (accepted, last) := hwrite
    cases hcount
    rw [length_append, length_take_of_le hchunk.length_le, ih]

theorem countingSite_opens : countingSite.host.openNow [0xa2, 1, 4, 2, 8] = some (.receive 0) := rfl

theorem countingSite_fed {response : Bytes} (h : Fed countingSite.host 0 body taken response) :
    taken = body ∧ response = [UInt8.ofNat body.length] := by
  cases h with
  | @finished taken next left hfeeds last hwrite =>
    have hcount : (.ok (left.length, next + left.length) : Except Bytes (Nat × Nat)) =
        .ok (left.length, last) :=
      hwrite
    cases hcount
    refine ⟨rfl, ?_⟩
    show [UInt8.ofNat (next + left.length)] ++ [] = _
    rw [hfeeds.split, length_append, countingSite_feeds hfeeds, append_nil]
  | failed hfeeds hchunk hfin hwrite => cases hwrite

/-- The sink takes what comes, in any pieces. -/
theorem countingSite_agrees : Agree countingSite [0xa2, 1, 4, 2, 8, 5, 6] := by
  have hscan : scanHeader [0xa2, 1, 4, 2, 8, 5, 6] = .complete 5 := by decide
  refine (servers_agree_iff minimal_lawful countingSite_ready [0xa2, 1, 4, 2, 8, 5, 6]).mpr
    ⟨?_, ?_, ?_⟩
  · show (decode minimal [0xa2, 1, 4, 2, 8]).isSome = true
    decide
  · intro length sink hlength hopen taken response taken' response' hfed hfed'
    obtain rfl := complete.inj (hscan.symm.trans hlength)
    obtain rfl := Outcome.receive.inj (some.inj (countingSite_opens.symm.trans hopen))
    obtain ⟨htaken, hresponse⟩ := countingSite_fed hfed
    exact ⟨htaken, hresponse.trans (countingSite_fed hfed').2.symm⟩
  intro length sink hlength hopen _
  obtain rfl := complete.inj (hscan.symm.trans hlength)
  have hwrite : countingSite.host.write sink [5, 6] false = .ok (2, sink + 2) := rfl
  exact .piece 2 (by decide) (by decide) (.offered (by decide) hwrite (.ended _))

/-- The header is a CBOR item, but no record: the stream is not answered, the reading server reports
it. -/
theorem header_without_record : Ready countingSite ∧ ¬ Agree countingSite [0x00] := by
  refine ⟨countingSite_ready, fun h => ?_⟩
  have hpushed : Reaches countingSite.host [0x00]
      (Runs.exec (.step countingSite.host [0x00]) .new [.push 1 true]) :=
    ⟨[.push 1 true], ⟨⟨rfl, fun _ => by decide⟩, trivial⟩, rfl⟩
  have hread : Ended countingSite [0x00] (Runs.exec (.step countingSite) (.start [0x00]) [1, 0])
      (some (errorHeader minimal none "invalid request header")) := ⟨rfl, [1, 0], rfl⟩
  cases (h.same _ _ _ hpushed ⟨rfl, rfl⟩ hread).1

end QuicLite.Stream
