import QuicLite.Stream.Serve

/-!
# The reading server

What a request comes to that is read to its end, and when it is. `ServedTo` lists the ends: its
header is served, does not decode, is refused, or is cut off. `ServeInv` says where a read stands
on the way there; each turn keeps it (`ServeInv.step`), with one case for each phase, so that every
end is one of `ServedTo`. Conversely `CanEnd` follows a request that has an end: byte by byte while
the header is incomplete, then as its body is relayed or its answer comes.
-/

namespace QuicLite.Stream

open Cbor Discovery List Nat

/-! ## Reading to the end -/

variable {length : Nat}

open Registry

section Serving

variable {σ η ω : Type} {site : Site σ η ω}

/-- Every handler has its outcome at the first poll. -/
def Ready (site : Site σ η ω) : Prop :=
  ∀ (request : Request) (component method : Nat),
    ReadyAtOnce site.cbor site.handlers site.table site.state request component method

/-- A part of a body that is not its end fails. -/
def Breaks {σ δ ρ : Type} (host : Host σ δ ρ) (sink : σ) (body : Bytes) : Prop :=
  ∃ taken next left chunk header, Feeds host sink body taken next left ∧ chunk ≠ [] ∧
    chunk.IsPrefix left ∧
    host.write next chunk false = .error header

/-- What a request comes to that is read to its end. -/
inductive ServedTo (site : Site σ η ω) (request : Bytes) : Bytes → Option Bytes → Prop
  | handled {length : Nat} (hlength : scanHeader request = .complete length)
      (hdecode : (decode site.cbor (request.take length)).isSome) {taken : Bytes}
      {response : Option Bytes}
      (h : Handled site.host (request.drop length) (site.host.openNow (request.take length)) taken
        response.toList) (hall : ∀ sink,
          site.host.openNow (request.take length) = some (.receive sink) →
        (taken = request.drop length ∨ Breaks site.host sink (request.drop length)) ∧
          Relayed site.host sink [] (request.drop length)) : ServedTo site request taken response
  | undecoded {length : Nat} (hlength : scanHeader request = .complete length)
      (hdecode : decode site.cbor (request.take length) = none) :
      ServedTo site request [] (some (errorHeader site.cbor none "invalid request header"))
  | refused (hscan : scanHeader request = .invalid) :
      ServedTo site request [] (some (errorHeader site.cbor none "invalid request header"))
  | cut (hscan : scanHeader request = .needMore) :
      ServedTo site request [] (some (errorHeader site.cbor none "request ended inside its header"))

/-- Where a read of the request stands. What a later phase needs of the body is stated as what is
left of it, so that a turn only peels off its part. -/
inductive ServeInv (site : Site σ η ω) (request : Bytes) (s : Serving ω) : Prop
  | header (buffer : Bytes) (hphase : s.phase = .header buffer)
      (hrequest : request = buffer ++ s.rest)
      (hstart : ∃ start, scanHeader start = .needMore ∧ start.IsPrefix buffer ∧
        buffer.length ≤ start.length + 2048) (htaken : s.taken = [])
  | body (length : Nat) (sink next : ω) (pending : Bytes) (ended : Bool)
      (hphase : s.phase = .body next pending ended)
      (hlength : scanHeader request = .complete length)
      (hdecode : (decode site.cbor (request.take length)).isSome)
      (hopen : site.host.openNow (request.take length) = some (.receive sink))
      (hfeeds : Feeds site.host sink (request.drop length) s.taken next (pending ++ s.rest))
      (hended : ended = true → pending = [] ∧ s.rest = [])
      (hrelayed : (ended = false → Relayed site.host next pending s.rest) →
        Relayed site.host sink [] (request.drop length))
  | waiting (length : Nat) (deferred next : ω) (hphase : s.phase = .waiting next)
      (hlength : scanHeader request = .complete length)
      (hdecode : (decode site.cbor (request.take length)).isSome)
      (hopen : site.host.openNow (request.take length) = some (.defer deferred))
      (hyields : ∀ response, Yields site.host next response → Yields site.host deferred response)
      (htaken : s.taken = [])
  | done (response : Option Bytes) (hphase : s.phase = .done response)
      (h : ServedTo site request s.taken response)

theorem openNow_of_ready (hready : Ready site) (request : Request) :
    openNow site.cbor site.handlers site.table site.state request =
      openAwait site.cbor site.handlers site.table site.state request := by
  cases hcomponent : request.record.component with
  | none => simp only [openNow, openAwait, timed_record, hcomponent]
  | some component =>
  cases hmethod : request.record.method with
  | none => simp only [openNow, openAwait, timed_record, hcomponent, hmethod]
  | some method =>
  cases component with
  | text bs => simp only [openNow, openAwait, timed_record, hcomponent]
  | bytes bs => simp only [openNow, openAwait, timed_record, hcomponent]
  | tag component =>
    cases method with
    | text bs => simp only [openNow, openAwait, timed_record, hcomponent, hmethod]
    | bytes bs => simp only [openNow, openAwait, timed_record, hcomponent, hmethod]
    | tag method =>
      exact openNow_eq_openAwait hcomponent hmethod (hready request component method)

variable {request : Bytes} {s : Serving ω}

theorem host_openNow (hready : Ready site) {header : Bytes} {record : Record}
    (hdecode : decode site.cbor header = some record) : site.host.openNow header =
      (openAwait site.cbor site.handlers site.table site.state
        (site.request header record)).result.map
        site.outcome := by
  rw [← openNow_of_ready hready]
  show (decode site.cbor header).bind _ = _
  rw [hdecode]
  rfl

theorem count_bounds (size : Nat) : 0 < Serving.count size ∧ Serving.count size ≤ 2048 := by
  unfold Serving.count
  omega

theorem ServeInv.readBody {sink next : ω} (hlength : scanHeader request = .complete length)
    (hdecode : (decode site.cbor (request.take length)).isSome)
    (hopen : site.host.openNow (request.take length) = some (.receive sink))
    (hfeeds : Feeds site.host sink (request.drop length) s.taken next s.rest)
    (hrelayed : Relayed site.host next [] s.rest → Relayed site.host sink [] (request.drop length))
    (size : Nat) :
    ServeInv site request (s.readBody next [] false size) := by
  unfold Serving.readBody
  split
  · rename_i hempty
    have hrest := isEmpty_iff.mp hempty
    refine .body length sink next [] true rfl hlength hdecode hopen hfeeds (fun _ =>
      ⟨rfl, hrest⟩) fun _ => hrelayed ?_
    rw [hrest]
    exact .ended next
  rename_i hmore
  have hrest : s.rest ≠ [] := fun hnil => hmore (by rw [hnil]; rfl)
  refine .body length sink next _ false rfl hlength hdecode hopen ?_
    (fun hend => by cases hend) fun h =>
    hrelayed (.piece (Serving.count size) (count_bounds size) hrest (h rfl))
  show Feeds site.host sink _ s.taken next ([] ++ s.rest.take _ ++ s.rest.drop _)
  rwa [nil_append, take_append_drop]

/-- What a buffer holds behind the header came with its last read. -/
theorem surplus_length {start buffer : Bytes} (hstart : scanHeader start = .needMore)
    (hbuffer : start.IsPrefix buffer) (hscan : scanHeader buffer = .complete length) :
    start.length < length := by
  by_contra hge
  obtain ⟨-, hheader⟩ := scanHeader_complete_iff.mp hscan
  obtain ⟨rest, rfl⟩ := hbuffer
  rw [take_append_of_le_length (Nat.le_of_not_lt hge)] at hheader
  cases hstart.symm.trans (scanHeader_complete_iff.mpr ⟨Nat.le_of_not_lt hge, hheader⟩)

theorem ServeInv.enter (hready : Ready site) {buffer : Bytes}
    (hrequest : request = buffer ++ s.rest)
    (hstart : ∃ start, scanHeader start = .needMore ∧ start.IsPrefix buffer ∧ buffer.length ≤
      start.length + 2048) (htaken : s.taken = []) (hscan : scanHeader buffer = .complete length) :
    ServeInv site request (s.enter site buffer length) := by
  have hle := (scanHeader_complete_iff.mp hscan).1
  have hlength : scanHeader request = .complete length := hrequest ▸ scanHeader_append hscan s.rest
  have hrecord : buffer.take length = request.take length := by
    rw [hrequest, take_append_of_le_length hle]
  have hbody : buffer.drop length ++ s.rest = request.drop length := by
    rw [hrequest, drop_append_of_le_length hle]
  unfold Serving.enter
  rw [hrecord]
  cases hdecode : decode site.cbor (request.take length) with
  | none =>
    refine .done _ rfl ?_
    show ServedTo site request s.taken _
    rw [htaken]
    exact .undecoded hlength hdecode
  | some record =>
    have hsome : (decode site.cbor (request.take length)).isSome := by rw [hdecode]; rfl
    have hopen := host_openNow hready hdecode
    simp only
    cases hresult : (openAwait site.cbor site.handlers site.table site.state
        (site.request (request.take length) record)).result with
    | none =>
      rw [hresult] at hopen
      refine .done none rfl (.handled hlength hsome
        ?_ fun sink hsink => by cases hopen.symm.trans hsink)
      show Handled site.host _ _ s.taken []
      rw [htaken, hopen]
      exact .declined
    | some outcome =>
      rw [hresult] at hopen
      cases outcome with
      | respond response =>
        refine .done _ rfl (.handled hlength hsome
          ?_ fun sink hsink => by cases hopen.symm.trans hsink)
        show Handled site.host _ _ s.taken [site.bytes response]
        rw [htaken, hopen]
        exact .responded (site.bytes response)
      | defer deferred =>
        exact .waiting length deferred deferred rfl hlength hsome hopen (fun response h => h) htaken
      | receive sink =>
        refine .body length sink sink (buffer.drop length) false rfl hlength hsome hopen ?_
          (fun hend => by cases hend) ?_
        · show Feeds site.host sink _ s.taken sink (buffer.drop length ++ s.rest)
          rw [htaken, hbody]
          exact .start
        intro h
        obtain ⟨start, hneed, hprefixed, hshort⟩ := hstart
        have hbeyond := surplus_length hneed hprefixed hscan
        rw [← hbody]
        by_cases hnone : buffer.drop length = []
        · rw [hnone, nil_append]
          exact hnone ▸ h rfl
        have hpos := length_pos_iff.mpr hnone
        refine .piece (buffer.drop length).length ⟨hpos, ?_⟩ (fun hnil =>
          hnone (append_eq_nil_iff.mp hnil).1) ?_
        · rw [length_drop]
          omega
        · rw [take_left, drop_left]
          exact h rfl

theorem ServeInv.step (hready : Ready site) (h : ServeInv site request s) (size : Nat) :
    ServeInv site request (s.step site size) := by
  unfold Serving.step
  cases h with
  | header buffer hphase hrequest hstart htaken =>
    rw [hphase]
    dsimp only
    cases hscan : scanHeader buffer with
    | complete length => exact .enter hready hrequest hstart htaken hscan
    | invalid =>
      refine .done _ rfl ?_
      show ServedTo site request s.taken _
      rw [htaken]
      exact .refused (hrequest ▸ scanHeader_invalid hscan s.rest)
    | needMore =>
      dsimp only
      split
      · rename_i hempty
        have hbuffer : request = buffer := by
          rw [hrequest, isEmpty_iff.mp hempty, append_nil]
        refine .done _ rfl ?_
        show ServedTo site request s.taken _
        rw [htaken]
        exact .cut (hbuffer ▸ hscan)
      refine .header _ rfl ?_ ⟨buffer, hscan, prefix_append _ _, ?_⟩ htaken
      · show request = buffer ++ s.rest.take _ ++ s.rest.drop _
        rw [append_assoc, take_append_drop, hrequest]
      have hcount := (count_bounds size).2
      rw [length_append, length_take]
      omega
  | body length sink next pending ended hphase hlength hdecode hopen hfeeds hended hrelayed =>
    rw [hphase]
    dsimp only
    have htail : ended = true → s.rest = [] := fun hend => (hended hend).2
    split
    · rename_i hwork
      cases hwrite : site.write next pending ended with
      | error header =>
        refine .done _ rfl (.handled hlength hdecode ?_ fun other hother => ?_)
        · rw [hopen]
          exact .received (hfeeds.fail rfl htail hwrite)
        obtain rfl := Outcome.receive.inj (Option.some.inj (hopen.symm.trans hother))
        cases ended with
        | true =>
          obtain ⟨hpending, hrest⟩ := hended rfl
          have hbody := hfeeds.split
          rw [hpending, hrest, append_nil, append_nil] at hbody
          exact ⟨.inl hbody.symm, hrelayed fun hend => by cases hend⟩
        | false =>
          have hne : pending ≠ [] := by simpa using hwork
          exact ⟨.inr ⟨_, _, _, _, _, hfeeds, hne, prefix_append _ _, hwrite⟩, hrelayed fun _ =>
            .failed hne hwrite⟩
      | ok out =>
        obtain ⟨accepted, last⟩ := out
        dsimp only
        split
        · rename_i hlast
          obtain ⟨hempty, hend⟩ : pending.drop accepted = [] ∧ ended = true := by simpa using hlast
          obtain ⟨rfl, hrest⟩ := hended hend
          have hbody := hfeeds.split
          rw [hrest, append_nil, append_nil] at hbody
          refine .done _ rfl (.handled hlength hdecode ?_ fun other hother => ⟨.inl ?_, ?_⟩)
          · rw [hopen]
            show Handled site.host _ _ (s.taken ++ [].take accepted) _
            rw [take_nil, append_nil, ← hbody]
            rw [hend] at hwrite
            exact .received (hfeeds.finish rfl hrest hwrite (zero_le _))
          · show s.taken ++ [].take accepted = _
            rw [take_nil, append_nil, hbody]
          · obtain rfl := Outcome.receive.inj (Option.some.inj (hopen.symm.trans hother))
            exact hrelayed fun hno => by cases hend.symm.trans hno
        · rename_i hlast
          have hmore := hfeeds.write rfl htail hwrite fun hend => by
            obtain ⟨hpending, -⟩ := hended hend
            exact absurd (by simp [hpending, hend]) hlast
          have hoffered : ended = false → Relayed site.host last (pending.drop accepted) s.rest →
              Relayed site.host next pending s.rest := fun hno h => by
            have hne : pending ≠ [] := by simpa [hno] using hwork
            rw [hno] at hwrite
            exact .offered hne hwrite h
          split
          · refine .body length sink last (pending.drop accepted) ended rfl hlength hdecode hopen
              hmore (fun hend => ?_)
              fun h => hrelayed fun hno => hoffered hno (h hno)
            obtain ⟨hpending, hrest⟩ := hended hend
            exact ⟨by rw [hpending, drop_nil], hrest⟩
          rename_i hnone
          have hempty : pending.drop accepted = [] := by simpa using hnone
          have hopen' : ended = false := by
            cases ended with
            | false => rfl
            | true => exact absurd (by simp [hempty]) hlast
          rw [hempty] at hoffered
          rw [hempty] at hmore
          rw [hempty, hopen']
          exact .readBody (s := { s with taken := s.taken ++ pending.take accepted }) hlength
            hdecode hopen
            hmore (fun h => hrelayed fun hno => hoffered hno h) size
    · rename_i hwork
      obtain ⟨rfl, hopen'⟩ : pending = [] ∧ ended = false := by simpa using hwork
      rw [hopen']
      exact .readBody hlength hdecode hopen hfeeds (fun h => hrelayed fun _ => h) size
  | waiting length deferred next hphase hlength hdecode hopen hyields htaken =>
    rw [hphase]
    dsimp only
    cases hpoll : site.pollDeferred next with
    | mk answer later =>
    have hhost : site.host.pollDeferred next = (answer.map site.bytes, later) := by
      show ((site.pollDeferred next).1.map site.bytes, (site.pollDeferred next).2) = _
      rw [hpoll]
    cases answer with
    | some response =>
      refine .done _ rfl (.handled hlength hdecode
        ?_ fun sink hsink => by cases hopen.symm.trans hsink)
      show Handled site.host _ _ s.taken [site.bytes response]
      rw [htaken, hopen]
      exact .deferred (hyields _ (.now hhost))
    | none =>
      exact .waiting length deferred later rfl hlength hdecode hopen
        (fun response h => hyields response (.later hhost h)) htaken
  | done response hphase hserved =>
    rw [hphase]
    exact .done response hphase hserved

theorem Ended.servedTo (hready : Ready site) {response : Option Bytes}
    (h : Ended site request s response) :
    ServedTo site request s.taken response := by
  obtain ⟨hdone, sizes, rfl⟩ := h
  have hinv : ServeInv site request (Runs.exec (.step site) (.start request) sizes) :=
    Runs.invariant (fun s size h => h.step hready size)
      (.header [] rfl rfl ⟨[], by decide, prefix_rfl, zero_le _⟩ rfl) sizes
  cases hinv with
  | header _ hphase => cases hphase.symm.trans hdone
  | body _ _ _ _ _ hphase => cases hphase.symm.trans hdone
  | waiting _ _ _ hphase => cases hphase.symm.trans hdone
  | done other hphase h =>
    obtain rfl := ServePhase.done.inj (hphase.symm.trans hdone)
    exact h

end Serving

/-! ## Parts of a request -/

section Parts

variable {request : Bytes}

theorem scanHeader_take_invalid {n : Nat} (h : scanHeader (request.take n) = .invalid) :
    scanHeader request = .invalid := by
  have hgrown := scanHeader_invalid h (request.drop n)
  rwa [take_append_drop] at hgrown

theorem length_of_complete (hlength : scanHeader request = .complete length) :
    length ≤ request.length ∧ length ≤ maxHeaderBytes + maxSurplusBytes := by
  obtain ⟨hle, -, hshort⟩ := scanHeader_complete_iff.mp hlength
  rw [length_take_of_le hle] at hshort
  exact ⟨hle, le_trans hshort (le_add_right _ _)⟩

theorem scanHeader_take (hlength : scanHeader request = .complete length) :
    scanHeader (request.take length) = .complete length := by
  obtain ⟨hle, hheader⟩ := scanHeader_complete_iff.mp hlength
  refine scanHeader_complete_iff.mpr ⟨?_, ?_⟩
  · rw [length_take_of_le hle]
  · rwa [take_take, min_self]

theorem length_of_needMore (hscan : scanHeader request = .needMore) :
    request.length < maxHeaderBytes := by
  unfold scanHeader at hscan
  split at hscan
  · split_ifs at hscan
  · split_ifs at hscan with hlength
    exact hlength
  · cases hscan

/-- A header that is invalid is so when the buffer is full. -/
theorem scanHeader_take_room (h : scanHeader request = .invalid) :
    scanHeader (request.take (maxHeaderBytes + maxSurplusBytes)) = .invalid := by
  rcases lt_or_ge (maxHeaderBytes + maxSurplusBytes) request.length with hlong | hshort
  · cases hpart : scanHeader (request.take (maxHeaderBytes + maxSurplusBytes)) with
    | invalid => rfl
    | needMore =>
      have hlength := length_of_needMore hpart
      rw [length_take_of_le (le_of_lt hlong)] at hlength
      omega
    | complete length =>
      have hgrown := scanHeader_append hpart (request.drop (maxHeaderBytes + maxSurplusBytes))
      rw [take_append_drop] at hgrown
      cases h.symm.trans hgrown
  · rwa [take_of_length_le hshort]

end Parts

/-! ## Coming to the end -/

section Ending

variable {σ η ω : Type} {site : Site σ η ω}

/-- Reads of some sizes end the response direction. -/
def CanEnd (site : Site σ η ω) (s : Serving ω) : Prop :=
  ∃ sizes response, (Runs.exec (Serving.step site) s sizes).phase = .done response

variable {request : Bytes} {s : Serving ω}

theorem CanEnd.done {response : Option Bytes} (h : s.phase = .done response) : CanEnd site s :=
  ⟨[], response, h⟩

theorem CanEnd.step (size : Nat) (h : CanEnd site (s.step site size)) : CanEnd site s := by
  obtain ⟨sizes, response, hdone⟩ := h
  exact ⟨size :: sizes, response, hdone⟩

theorem CanEnd.ended (h : CanEnd site (.start request)) :
    ∃ s response, Ended site request s response := by
  obtain ⟨sizes, response, hdone⟩ := h
  exact ⟨_, response, hdone, sizes, rfl⟩

theorem CanEnd.waiting {deferred : ω} {response : Bytes} (h : Yields site.host deferred response) :
    ∀ {s : Serving ω}, s.phase = .waiting deferred → CanEnd site s := by
  induction h with
  | @now deferred next response hpoll =>
    intro s hphase
    have hstep : ∃ response, (s.step site 0).phase = .done response := by
      unfold Serving.step
      rw [hphase]
      dsimp only
      cases hanswer : site.pollDeferred deferred with
      | mk answer later =>
        cases answer with
        | some answer => exact ⟨_, rfl⟩
        | none =>
          have hnone := congrArg Prod.fst hpoll
          rw [show (site.host.pollDeferred deferred).1 = (site.pollDeferred deferred).1.map
            site.bytes from rfl, hanswer] at hnone
          cases hnone
    obtain ⟨_, hdone⟩ := hstep
    exact .step 0 (.done hdone)
  | @later deferred next response hpoll hnext ih =>
    intro s hphase
    have hfst := congrArg Prod.fst hpoll
    have hsnd := congrArg Prod.snd hpoll
    have hstep : (s.step site 0).phase = .waiting next := by
      unfold Serving.step
      rw [hphase]
      dsimp only
      cases hanswer : site.pollDeferred deferred with
      | mk answer later =>
        rw [show (site.host.pollDeferred deferred).1 = (site.pollDeferred deferred).1.map
          site.bytes from rfl, hanswer] at hfst
        rw [show (site.host.pollDeferred deferred).2 = (site.pollDeferred deferred).2 from rfl,
          hanswer] at hsnd
        cases answer with
        | some answer => cases hfst
        | none => exact congrArg ServePhase.waiting hsnd
    exact .step 0 (ih hstep)

theorem CanEnd.body {sink : ω} {pending rest : Bytes} (h : Relayed site.host sink pending rest) :
    ∀ {s : Serving ω}, s.phase = .body sink pending false → s.rest = rest → CanEnd site s := by
  induction h with
  | ended sink =>
    intro s hphase hrest
    have hread : s.step site 0 = { s with phase := .body sink [] true } := by
      unfold Serving.step Serving.readBody
      rw [hphase, hrest]
      rfl
    refine .step 0 (.step 0 ?_)
    rw [hread]
    unfold Serving.step
    dsimp only
    rw [if_pos (by decide)]
    cases hwrite : site.write sink [] true with
    | error header => exact .done rfl
    | ok out =>
      dsimp only
      rw [if_pos (by simp)]
      exact .done rfl
  | @piece sink rest n hn hrest h ih =>
    intro s hphase hs
    refine .step n ?_
    have hcount : Serving.count n = n := by
      unfold Serving.count
      omega
    have hread : s.step site n = { s with
        phase := .body sink (rest.take n) false, rest := rest.drop n } := by
      unfold Serving.step Serving.readBody
      rw [hphase, hs, hcount]
      dsimp only
      rw [if_neg (by decide), if_neg (by simpa using hrest), nil_append]
    rw [hread]
    exact ih rfl rfl
  | @offered sink next pending rest accepted hpending hwrite h ih =>
    intro s hphase hs
    -- The write leads to the state that the rest of the pieces end, or the next read is made at
    -- once.
    let later : Serving ω :=
      { s with
        phase := .body next (pending.drop accepted) false,
        taken := s.taken ++ pending.take accepted }
    have hlater : CanEnd site later := ih rfl hs
    have hwork : (!pending.isEmpty || false) = true := by simpa using hpending
    by_cases hempty : pending.drop accepted = []
    · obtain ⟨sizes, response, hdone⟩ := hlater
      cases sizes with
      | nil => cases hdone
      | cons size sizes =>
      refine .step size ⟨sizes, response, ?_⟩
      have hsame : s.step site size = later.step site size := by
        show s.step site size = Serving.step site
          { s with
            phase := .body next (pending.drop accepted) false,
            taken := s.taken ++ pending.take accepted } size
        unfold Serving.step
        rw [hphase, hempty]
        dsimp only
        rw [if_pos hwork, show site.write sink pending false = .ok (accepted, next) from hwrite]
        dsimp only
        rw [hempty]
        rfl
      rw [hsame]
      exact hdone
    · refine .step 0 ?_
      have hstep : s.step site 0 = later := by
        unfold Serving.step
        rw [hphase]
        dsimp only
        rw [if_pos hwork, show site.write sink pending false = .ok (accepted, next) from hwrite]
        dsimp only
        rw [if_neg (by simp), if_pos (by simpa using hempty)]
      rw [hstep]
      exact hlater
  | @failed sink pending rest header hpending hwrite =>
    intro s hphase hs
    refine .step 0 ?_
    unfold Serving.step
    rw [hphase]
    dsimp only
    rw [if_pos (by simpa using hpending),
      show site.write sink pending false = .error header from hwrite]
    exact .done rfl

/-- The request is read byte by byte while its header is not complete. -/
theorem CanEnd.read {n : Nat} (hn : n ≤ request.length)
    (hneed : ∀ k < n, scanHeader (request.take k) = .needMore)
    (h : CanEnd site ⟨.header (request.take n), request.drop n, []⟩) :
    CanEnd site (.start request) := by
  induction n with
  | zero => exact h
  | succ n ih =>
    refine ih (le_of_lt hn) (fun k hk => hneed k (lt_succ_of_lt hk)) (.step 1 ?_)
    have hstep : (⟨.header (request.take n), request.drop n, []⟩ : Serving ω).step site 1 =
        ⟨.header (request.take (n + 1)), request.drop (n + 1), []⟩ := by
      unfold Serving.step
      dsimp only
      rw [hneed n (lt_succ_self n)]
      have hmore : ¬ (request.drop n).isEmpty = true := by
        rw [List.isEmpty_iff, List.drop_eq_nil_iff]
        omega
      rw [if_neg hmore, show Serving.count 1 = 1 from rfl, ← List.take_add, List.drop_drop]
    rw [hstep]
    exact h

/-- A request without a header is answered with an error. -/
theorem canEnd_of_needMore (hscan : scanHeader request = .needMore) :
    CanEnd site (.start request) := by
  have hneed : ∀ k < request.length, scanHeader (request.take k) = .needMore := by
    intro k _
    cases hpart : scanHeader (request.take k) with
    | needMore => rfl
    | invalid => cases hscan.symm.trans (scanHeader_take_invalid hpart)
    | complete length =>
      have hgrown := scanHeader_append hpart (request.drop k)
      rw [take_append_drop] at hgrown
      cases hscan.symm.trans hgrown
  refine .read (le_refl _) hneed (.step 0 ?_)
  unfold Serving.step
  rw [take_length, drop_length]
  dsimp only
  rw [hscan]
  exact .done rfl

theorem canEnd_of_invalid (hscan : scanHeader request = .invalid) :
    CanEnd site (.start request) := by
  have hsome : ∃ n, scanHeader (request.take n) = .invalid :=
    ⟨request.length, by rwa [take_length]⟩
  have hleast := Nat.find_spec hsome
  have hneed : ∀ k < Nat.find hsome, scanHeader (request.take k) = .needMore := by
    intro k hk
    cases hpart : scanHeader (request.take k) with
    | needMore => rfl
    | invalid => exact absurd hpart (Nat.find_min hsome hk)
    | complete length =>
      have hgrown := scanHeader_append hpart (request.drop k)
      rw [take_append_drop] at hgrown
      cases hscan.symm.trans hgrown
  have hle : Nat.find hsome ≤ request.length := Nat.find_le (by rwa [take_length])
  refine .read hle hneed (.step 0 ?_)
  unfold Serving.step
  dsimp only
  rw [hleast]
  exact .done rfl

theorem canEnd_of_complete (hlength : scanHeader request = .complete length)
    (h : CanEnd site (Serving.enter site ⟨.header (request.take length), request.drop length, []⟩
      (request.take length) length)) : CanEnd site (.start request) := by
  obtain ⟨hle, hheader⟩ := scanHeader_complete_iff.mp hlength
  have hneed : ∀ k < length, scanHeader (request.take k) = .needMore := by
    intro k hk
    have hsplit : request.take k ++ (request.take length).drop k = request.take length := by
      conv_rhs => rw [← take_append_drop k (request.take length)]
      rw [take_take, min_eq_left (le_of_lt hk)]
    refine scanHeader_needMore (hsplit ▸ hheader) fun hnil => ?_
    rw [drop_eq_nil_iff, length_take_of_le hle] at hnil
    omega
  refine .read hle hneed (.step 0 ?_)
  unfold Serving.step
  dsimp only
  rw [scanHeader_take hlength]
  exact h

/-- The server comes to an end when its handler does. -/
theorem canEnd_of_handled (hready : Ready site) (hlength : scanHeader request = .complete length)
    (hdefer : ∀ deferred, site.host.openNow (request.take length) = some (.defer deferred) →
      ∃ response, Yields site.host deferred response)
    (hreceive : ∀ sink, site.host.openNow (request.take length) = some (.receive sink) →
      Relayed site.host sink [] (request.drop length)) : CanEnd site (.start request) := by
  refine canEnd_of_complete hlength ?_
  unfold Serving.enter
  rw [take_take, min_self]
  cases hdecode : decode site.cbor (request.take length) with
  | none => exact .done rfl
  | some record =>
  have hopen := host_openNow hready hdecode
  simp only
  cases hresult : (openAwait site.cbor site.handlers site.table site.state
      (site.request (request.take length) record)).result with
  | none => exact .done rfl
  | some outcome =>
    rw [hresult] at hopen
    cases outcome with
    | respond response => exact .done rfl
    | defer deferred =>
      obtain ⟨response, hyields⟩ := hdefer deferred hopen
      exact .waiting hyields rfl
    | receive sink =>
      have hempty : (request.take length).drop length = [] := by
        rw [drop_take, Nat.sub_self, take_zero]
      rw [hempty]
      exact .body (hreceive sink hopen) rfl rfl

end Ending

end QuicLite.Stream
