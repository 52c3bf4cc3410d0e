import Schemata.Proofs.Export.Visits

/-!
When fetches are begun. A fetch is begun when its export first reaches it, and an export that
starts reaches its fetches in order, up to the first failure that it meets. So an export that
waits has begun all of them, and whenever it is taken up again it only comes back to fetches
that are under way.
-/
namespace Schemata.Export

open Catalogue

/-- The gate of the call is open, and the call is refused. -/
def failsAtOnce (source : Source) (gated : Call → Bool) (call : Call) : Bool :=
  !gated call && (source.refusal? call).isSome

/-- The tables that an export asks for when it starts: none when the fetch of the links fails at
once, all when no fetch does, and otherwise those up to the first whose fetch fails. In a queue
a failure behind a fetch that waits is not met yet, so that there all are asked for. -/
structure AsksFor (fails closed : Call → Bool) (selection asked : List String) : Prop where
  noTables : fails .relations = true → asked = []
  allTables : fails .relations = false → (∀ table ∈ selection, fails (.columns table) = false) →
    asked = selection
  upToFirst : fails .relations = false → ∀ before table after,
    selection = before ++ table :: after → (∀ other ∈ before, fails (.columns other) = false) →
    fails (.columns table) = true →
    (30 < selection.length → ∀ other ∈ before, closed (.columns other) = false) →
    asked = before ++ [table]
  pastWaiting : fails .relations = false → 30 < selection.length → ∀ before table after,
    selection = before ++ table :: after → (∀ other ∈ before, fails (.columns other) = false) →
    closed (.columns table) = true → asked = selection

namespace Fetch

variable {α : Type} {closed : Bool} {result : Except (List String) α}
  {refusal? : Option (List String)}

/-- A fetch that nothing holds is refused when it is let through and fails. -/
theorem exists_refused_of_fails (hresult : ∀ chain, result = .error chain ↔ refusal? = some chain)
    (h : (!closed && refusal?.isSome) = true) :
    ∃ chain, (waiting : Fetch α).poll closed result = .refused chain := by
  obtain ⟨hopen, hrefused⟩ := Bool.and_eq_true_iff.mp h
  obtain ⟨chain, hchain⟩ := Option.isSome_iff_exists.mp hrefused
  have hgate : closed = false := by simpa using hopen
  exact ⟨chain, by simp [poll, hgate, (hresult chain).mpr hchain, ofResult]⟩

theorem ne_refused_of_not_fails (hresult : ∀ chain, result = .error chain ↔ refusal? = some chain)
    (h : (!closed && refusal?.isSome) = false) (chain : List String) :
    (waiting : Fetch α).poll closed result ≠ .refused chain := by
  intro hrefused
  cases hgate : closed with
  | true => simp [poll, hgate] at hrefused
  | false =>
    simp only [poll, hgate, Bool.false_eq_true, if_false] at hrefused
    simp [hgate, (hresult chain).mp (ofResult_eq_refused_iff.mp hrefused)] at h

/-- A fetch that does not fail at once is passed, unless it waits in a queue. -/
theorem passes_of_not_fails {queued : Bool}
    (hresult : ∀ chain, result = .error chain ↔ refusal? = some chain)
    (h : (!closed && refusal?.isSome) = false) (hopen : queued = true → closed = false) :
    ((waiting : Fetch α).poll closed result).passes queued = true := by
  cases hpolled : (waiting : Fetch α).poll closed result with
  | answered answer => rfl
  | refused chain => exact absurd hpolled (ne_refused_of_not_fails hresult h chain)
  | waiting =>
    cases hqueued : queued with
    | false => rfl
    | true =>
      rw [hopen hqueued] at hpolled
      exact absurd hpolled poll_open_ne_waiting

end Fetch

namespace Assembly

variable {source : Source} {gated : Call → Bool} {database : String} {assembly after : Assembly}
  {selection : List String}

theorem calls_injective : Function.Injective calls := by
  intro tables others h
  exact (List.map_injective_iff.mpr fun _ _ => Call.columns.inj) (List.cons.inj h).2

theorem prefix_calls_advance (source : Source) (gated : Call → Bool) (database : String)
    (assembly : Assembly) :
    (assembly.advance source gated database).1 <+: calls assembly.names := by
  have hjoined := joined_advance source gated database assembly
  rw [← names_poll source gated assembly]
  generalize assembly.advance source gated database = outcome at hjoined
  cases hjoined with
  | links _ => exact ⟨_, rfl⟩
  | goesOn _ _ => exact List.prefix_rfl
  | @table before rest table chain _ hcolumns _ =>
    have hnames : (assembly.poll source gated).names =
        before.map Prod.fst ++ [table] ++ rest.map Prod.fst := by
      rw [names, hcolumns]
      simp
    rw [hnames]
    exact (List.prefix_cons_inj _).mpr ((List.prefix_append _ _).map _)

theorem calls_advance_of_ok (h : (assembly.advance source gated database).2 = .ok after) :
    (assembly.advance source gated database).1 = calls assembly.names := by
  have hjoined := joined_advance source gated database assembly
  rw [← names_poll source gated assembly]
  generalize assembly.advance source gated database = outcome at h hjoined
  cases hjoined with
  | links _ => cases h
  | table _ _ _ => cases h
  | goesOn _ _ => rfl

theorem Joined.exists_calls {outcome : List Call × Except Failure Assembly}
    (h : Joined database assembly outcome) : ∃ asked, outcome.1 = calls asked := by
  cases h with
  | links _ => exact ⟨[], rfl⟩
  | table _ _ _ => exact ⟨_, rfl⟩
  | goesOn _ _ => exact ⟨_, rfl⟩

/-- What the fetch of a table has come to when its export starts. -/
def startedTable (source : Source) (gated : Call → Bool) (table : String) :
    String × Fetch (List ColumnRecord) :=
  pollTable source gated (table, .waiting)

theorem columns_poll_start (source : Source) (gated : Call → Bool) (selection : List String) :
    ((start selection).poll source gated).columns =
      selection.map (startedTable source gated) := by
  rw [poll, start, List.map_map]
  rfl

theorem isQueued_poll_start (source : Source) (gated : Call → Bool) (selection : List String) :
    ((start selection).poll source gated).isQueued = true ↔ 30 < selection.length := by
  rw [isQueued_iff, names_poll, names_start]

theorem links_poll_start_ne_refused (h : failsAtOnce source gated .relations = false) :
    ∀ chain, ((start selection).poll source gated).links ≠ .refused chain :=
  Fetch.ne_refused_of_not_fails (fun _ => Source.fetchLinks_eq_error_iff) h

theorem startedTable_ne_refused {table : String}
    (h : failsAtOnce source gated (.columns table) = false) (chain : List String) :
    (startedTable source gated table).2 ≠ .refused chain :=
  Fetch.ne_refused_of_not_fails (fun _ => Source.fetchColumns_eq_error_iff) h chain

theorem startedTable_passes {queued : Bool}
    (h : ∀ table ∈ selection, failsAtOnce source gated (.columns table) = false)
    (hopen : queued = true → ∀ table ∈ selection, gated (.columns table) = false) :
    ∀ entry ∈ selection.map (startedTable source gated), entry.2.passes queued = true := by
  rw [List.forall_mem_map]
  intro table htable
  exact Fetch.passes_of_not_fails (fun _ => Source.fetchColumns_eq_error_iff) (h table htable)
    fun hqueued => hopen hqueued table htable

theorem calls_of_links_fail (h : failsAtOnce source gated .relations = true) :
    ((start selection).advance source gated database).1 = calls [] := by
  obtain ⟨chain, hlinks⟩ :=
    Fetch.exists_refused_of_fails (fun _ => Source.fetchLinks_eq_error_iff) h
  rw [advance, join_of_links hlinks]
  rfl

theorem calls_of_none_fails (hlinks : failsAtOnce source gated .relations = false)
    (h : ∀ table ∈ selection, failsAtOnce source gated (.columns table) = false) :
    ((start selection).advance source gated database).1 = calls selection := by
  have hheld : ((start selection).poll source gated).HeldBack := by
    intro before table chain rest hcolumns
    have hmem : (table, .refused chain) ∈ selection.map (startedTable source gated) := by
      simp [← columns_poll_start, hcolumns]
    obtain ⟨name, hname, heq⟩ := List.mem_map.mp hmem
    exact absurd (congrArg Prod.snd heq) (startedTable_ne_refused (h name hname) chain)
  rw [advance, join_of_heldBack (links_poll_start_ne_refused hlinks) hheld, names_poll, names_start]

theorem calls_of_table_fails {before later : List String} {table : String}
    (hlinks : failsAtOnce source gated .relations = false)
    (hbefore : ∀ other ∈ before, failsAtOnce source gated (.columns other) = false)
    (htable : failsAtOnce source gated (.columns table) = true)
    (hopen : 30 < (before ++ table :: later).length →
      ∀ other ∈ before, gated (.columns other) = false) :
    ((start (before ++ table :: later)).advance source gated database).1 =
      calls (before ++ [table]) := by
  obtain ⟨chain, hrefused⟩ :=
    Fetch.exists_refused_of_fails (fun _ => Source.fetchColumns_eq_error_iff) htable
  have hcolumns : ((start (before ++ table :: later)).poll source gated).columns =
      before.map (startedTable source gated) ++
        (table, .refused chain) :: later.map (startedTable source gated) := by
    rw [columns_poll_start, List.map_append, List.map_cons, ← hrefused]
    rfl
  have hpass := startedTable_passes hbefore fun hqueued =>
    hopen ((isQueued_poll_start source gated _).mp hqueued)
  rw [advance, join_of_table (links_poll_start_ne_refused hlinks) hcolumns hpass, List.map_map]
  exact congrArg (fun tables => calls (tables ++ [table])) (List.map_id before)

/-- In a queue all calls are reached once a fetch waits before any that fails. -/
theorem calls_past_waiting {before later : List String} {table : String}
    (hlinks : failsAtOnce source gated .relations = false)
    (hmany : 30 < (before ++ table :: later).length)
    (hbefore : ∀ other ∈ before, failsAtOnce source gated (.columns other) = false)
    (hclosed : gated (.columns table) = true) :
    ((start (before ++ table :: later)).advance source gated database).1 =
      calls (before ++ table :: later) := by
  have hcolumns : ((start (before ++ table :: later)).poll source gated).columns =
      before.map (startedTable source gated) ++
        (table, .waiting) :: later.map (startedTable source gated) := by
    rw [columns_poll_start, List.map_append, List.map_cons]
    simp [startedTable, pollTable, hclosed, Fetch.poll]
  have hnone : ∀ entry ∈ before.map (startedTable source gated), ∀ chain,
      entry.2 ≠ .refused chain := by
    rw [List.forall_mem_map]
    exact fun other hother => startedTable_ne_refused (hbefore other hother)
  have hheld := heldBack_of_waiting (by rw [names_poll, names_start]; exact hmany) hcolumns hnone
  rw [advance, join_of_heldBack (links_poll_start_ne_refused hlinks) hheld, names_poll, names_start]

/-- An assembly that starts reaches its calls up to the first one that fails at once. -/
theorem exists_asksFor (source : Source) (gated : Call → Bool) (database : String)
    (selection : List String) :
    ∃ asked,
      ((start selection).advance source gated database).1 = .relations :: asked.map .columns ∧
      AsksFor (failsAtOnce source gated) gated selection asked := by
  obtain ⟨asked, hasked⟩ := (joined_advance source gated database (start selection)).exists_calls
  have hcalls : ∀ tables, ((start selection).advance source gated database).1 = calls tables →
      asked = tables := fun tables h => calls_injective (hasked.symm.trans h)
  refine ⟨asked, hasked, fun hfails => hcalls _ (calls_of_links_fail hfails),
    fun hlinks hnone => hcalls _ (calls_of_none_fails hlinks hnone), ?_, ?_⟩
  · rintro hlinks before table later rfl hbefore htable hopen
    exact hcalls _ (calls_of_table_fails hlinks hbefore htable hopen)
  · rintro hlinks hmany before table later rfl hbefore hclosed
    exact hcalls _ (calls_past_waiting hlinks hmany hbefore hclosed)

/-- Without gates an assembly begins its fetches up to the first one that is refused. -/
theorem exists_asksFor_assemble (source : Source) (database : String) (selection : List String) :
    ∃ asked, (assemble source database selection).1 = .relations :: asked.map .columns ∧
      AsksFor (failsAtOnce source fun _ => false) (fun _ => false) selection asked :=
  exists_asksFor source (fun _ => false) database selection

end Assembly

namespace Run

variable {options : Options} {source : Source} {gated : Call → Bool} {run : Run}

theorem calls_advance (h : run.cancelled = false) :
    (run.advance options source gated).1 =
      (run.assembly.advance source gated run.request.database).1 := by
  unfold advance
  rw [if_neg (ne_true_of_eq_false h)]
  split
  · rename_i hresult
    rw [hresult]
  · rename_i hresult
    rw [hresult]

theorem prefix_calls_advance :
    (run.advance options source gated).1 <+: Assembly.calls run.assembly.names := by
  cases hcancelled : run.cancelled with
  | true =>
    rw [advance_of_cancelled _ _ _ _ hcancelled]
    exact List.nil_prefix
  | false =>
    rw [calls_advance hcancelled]
    exact Assembly.prefix_calls_advance ..

/-- An export that goes on waiting has reached all of its fetches. -/
theorem calls_advance_of_pending (h : (run.advance options source gated).2.status = .pending) :
    (run.advance options source gated).1 = Assembly.calls run.assembly.names := by
  obtain ⟨hlive, assembly, hok, _⟩ := advance_of_waiting h
  rw [calls_advance hlive]
  exact Assembly.calls_advance_of_ok hok

end Run

namespace Session

variable {session : Session} {move : Move} {place : Nat} {run : Run} {id : String}
  {request : Request}

theorem calls_firstRun_of_empty (session : Session) (id : String) (h : request.selection = []) :
    (session.firstRun id request).1 = [] := by
  simp [firstRun, h]

theorem calls_firstRun (session : Session) (id : String) (h : request.selection ≠ []) :
    (session.firstRun id request).1 =
      ((Assembly.start request.selection).advance session.source session.gated
        request.database).1 := by
  unfold firstRun
  simp only [List.isEmpty_iff, if_neg h]
  exact Run.calls_advance rfl

theorem calls_firstRun_of_pending (h : (session.firstRun id request).2.status = .pending) :
    (session.firstRun id request).1 = Assembly.calls request.selection := by
  unfold firstRun at h ⊢
  by_cases hempty : request.selection = []
  · simp [hempty, Run.fail] at h
  · simp only [List.isEmpty_iff, if_neg hempty] at h ⊢
    rw [Run.calls_advance_of_pending h]
    exact congrArg Assembly.calls (Assembly.names_start request.selection)

theorem firstRun_request (session : Session) (id : String) (request : Request) :
    (session.firstRun id request).2.request = request := by
  unfold firstRun
  dsimp only
  split
  · rfl
  · exact Run.advance_request ..

theorem log_move_of_not_started (session : Session) (h : move.started? = none) :
    (session.move move).log = session.log := by
  rw [move_eq_of_not_started session h]

theorem log_move_of_started (session : Session) (h : move.started? = some (id, request)) :
    (session.move move).log =
      session.log ++ (session.firstRun id request).1.map (Call.logged request.database) := by
  rw [move_of_started h]
  rfl

theorem request_play (moves : List Move) (hrun : session.runs[place]? = some run) :
    ∃ last, (session.play moves).runs[place]? = some last ∧ last.request = run.request := by
  induction moves generalizing session run with
  | nil => exact ⟨run, hrun, rfl⟩
  | cons move rest ih =>
    obtain ⟨last, hlast, hrequest⟩ := ih (getElem?_move move hrun)
    exact ⟨last, hlast, hrequest.trans changed_request⟩

/-- The tables of an export that waits are those of its request. -/
theorem names_of_pending (options : Options) (source : Source) (moves : List Move)
    (hrun : ((new options source).play moves).runs[place]? = some run)
    (hpending : run.status = .pending) :
    run.assembly.names = run.request.selection := by
  have haccounted := isAccounted_play options source moves hrun
  unfold Run.IsAccounted at haccounted
  rw [hpending] at haccounted
  exact haccounted.names

theorem getElem?_move_of_started (h : move.started? = some (id, request)) :
    (session.move move).runs[session.runs.length]? = some (session.firstRun id request).2 := by
  rw [move_of_started h, runs_startRun, ← length_cancelCurrent session, List.getElem?_concat_length]

/-- While an export waits, it comes back only to fetches that were begun at its start. -/
theorem prefix_calls_of_started (options : Options) (source : Source)
    (moves later : List Move) (hstart : move.started? = some (id, request)) :
    let session := (new options source).play moves
    let state := (session.move move).play later
    state.runs[session.runs.length]? = some run → run.status = .pending →
      (run.advance state.options state.source state.gated).1 <+:
        (session.firstRun id request).1 := by
  intro session state hrun hpending
  have hfirst : (session.move move).runs[session.runs.length]? =
      some (session.firstRun id request).2 := getElem?_move_of_started hstart
  -- an export that ends at its start never waits again, so this one has reached all its calls
  have hwaited : (session.firstRun id request).2.status = .pending := by
    by_contra hfinal
    obtain ⟨last, hlast, hstatus⟩ := status_play_of_final later hfirst hfinal
    rw [hrun] at hlast
    cases hlast
    exact hfinal (hstatus.symm.trans hpending)
  have hrequest : run.request = request := by
    obtain ⟨last, hlast, hkept⟩ := request_play later hfirst
    rw [hrun] at hlast
    cases hlast
    rw [hkept, firstRun_request]
  have hrun' : ((new options source).play (moves ++ move :: later)).runs[session.runs.length]? =
      some run := by
    rw [play_append]
    exact hrun
  have hnames : run.assembly.names = run.request.selection :=
    names_of_pending options source _ hrun' hpending
  rw [calls_firstRun_of_pending hwaited, ← hrequest, ← hnames]
  exact run.prefix_calls_advance

/-- Every fetch is begun at most once, and when its export starts. A move that starts no export
adds nothing to the log. One that starts an export adds its calls in order: none for an empty
selection, and otherwise those up to the first that fails at once. Whatever happens later, the
export comes back only to fetches among these. Without gates an assembly begins its fetches in
the same way, and asks for the links even when it is to put no tables together. -/
theorem fetches_begun_at_start (options : Options) (source : Source) (moves : List Move) :
    (∀ database selection, ∃ asked,
      (assemble source database selection).1 = .relations :: asked.map .columns ∧
      AsksFor (failsAtOnce source fun _ => false) (fun _ => false) selection asked) ∧
    let session := (new options source).play moves
    (∀ move : Move, move.started? = none → (session.move move).log = session.log) ∧
    ∀ (move : Move) (id : String) (request : Request), move.started? = some (id, request) →
      ∃ begun : List Call,
        (session.move move).log = session.log ++ begun.map (Call.logged request.database) ∧
        (request.selection = [] → begun = []) ∧
        (request.selection ≠ [] → ∃ asked, begun = .relations :: asked.map .columns ∧
          AsksFor (failsAtOnce session.source session.gated) session.gated request.selection
            asked) ∧
        ∀ (later : List Move) (run : Run),
          let state := (session.move move).play later
          state.runs[session.runs.length]? = some run → run.status = .pending →
          (run.advance state.options state.source state.gated).1 <+: begun := by
  refine ⟨Assembly.exists_asksFor_assemble source, fun _ => log_move_of_not_started _, ?_⟩
  intro move id request hstart
  refine ⟨_, log_move_of_started _ hstart, fun hempty => ?_, fun hne => ?_, fun later run =>
    prefix_calls_of_started options source moves later hstart⟩
  · exact calls_firstRun_of_empty _ id hempty
  · rw [calls_firstRun _ id hne]
    exact Assembly.exists_asksFor ..

/-- One table waits behind a gate, and the other one is refused only after it was asked for. -/
theorem waiting_export_has_asked_for_all :
    let moves : List Move := [.apply (.gate "columns:a")]
    let move : Move := .apply (.start "x" "shop" ["a", "b"] "sql")
    let later : List Move := [.resume, .apply (.fail "columns:b" ["lost"])]
    let session := (new {} ⟨[("a", []), ("b", [])], [], []⟩).play moves
    let state := (session.move move).play later
    (session.move move).log = ["relations:shop", "columns:shop.a", "columns:shop.b"] ∧
      (session.move .resume).log = session.log ∧
      ∃ run : Run, state.runs[0]? = some run ∧ run.status = .pending ∧
        (run.advance state.options state.source state.gated).1 <+:
          [.relations, .columns "a", .columns "b"] := by
  intro moves move later session state
  obtain ⟨_, hquiet, hstarts⟩ :=
    fetches_begun_at_start {} ⟨[("a", []), ("b", [])], [], []⟩ moves
  obtain ⟨begun, hlog, _, hasks, hagain⟩ :=
    hstarts move "x" ⟨"shop", ["a", "b"], .sql⟩ (by decide +kernel)
  obtain ⟨asked, rfl, hasked⟩ := hasks (by simp)
  have hall : asked = ["a", "b"] := hasked.allTables (by decide +kernel) (by decide +kernel)
  subst asked
  have hwaits : state.runs[0]?.map (·.status) = some .pending := by decide +kernel
  obtain ⟨run, hrun, hpending⟩ := Option.map_eq_some_iff.mp hwaits
  exact ⟨hlog, hquiet .resume rfl, run, hrun, hpending, hagain later run hrun hpending⟩

/-- An export of no tables asks for nothing, but to put no tables together takes one call. -/
theorem no_tables_ask_for_links :
    (assemble ⟨[], [], []⟩ "shop" []).1.map (Call.logged "shop") = ["relations:shop"] ∧
      ((new {} ⟨[], [], []⟩).startRun "x" ⟨"shop", [], .sql⟩).log = [] :=
  ⟨rfl, rfl⟩

end Session

end Schemata.Export
