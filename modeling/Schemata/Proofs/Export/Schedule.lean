import Mathlib.Data.List.Induction
import Schemata.Proofs.Export.Fetches
import Schemata.Proofs.Export.Moves

/-!
The order in which gates are opened does not show in the answer of an export. While the
catalogue stays the same, an export that waits holds only answers of that catalogue, so that
it comes to what an assembly without gates comes to, whenever and however often it was taken
up on the way.
-/
namespace Schemata.Export

open Catalogue

/-- The export has come to what the catalogue makes of its request. -/
def Settles (options : Options) (source : Source) (request : Request) (status : Status) : Prop :=
  match (assemble source request.database request.selection).2 with
  | .ok tables => status = .done (request.target.render options tables)
  | .error _ => ∃ failure, status = .failed failure ∧
      FetchFails source request.database request.selection failure

theorem settles_of_fetchFails {options : Options} {source : Source} {request : Request}
    {failure : Failure} (h : FetchFails source request.database request.selection failure) :
    Settles options source request (.failed failure) := by
  obtain ⟨first, hfirst⟩ := Assembly.assemble_error_of_fetchFails h
  unfold Settles
  rw [hfirst]
  exact ⟨failure, rfl, h⟩

theorem Settles.ne_pending {options : Options} {source : Source} {request : Request}
    {status : Status} (h : Settles options source request status) : status ≠ .pending := by
  unfold Settles at h
  split at h
  · rw [h]
    exact fun heq => nomatch heq
  · obtain ⟨failure, heq, _⟩ := h
    rw [heq]
    exact fun heq => nomatch heq

theorem settles_of_holds {options : Options} {source : Source} {request : Request}
    {assembly : Assembly} {tables : List Table} (h : assembly.Holds source request.selection)
    (htables : assembly.tables? = some tables) :
    Settles options source request (.done (request.target.render options tables)) := by
  unfold Settles
  rw [h.assemble_eq htables request.database]

namespace Run

variable {options : Options} {source : Source} {gated : Call → Bool} {run : Run}

/-- An export that is taken up waits on with good answers, or settles. -/
theorem advance_waits_or_settles (hpending : run.status = .pending) (hlive : run.cancelled = false)
    (h : run.assembly.Holds source run.request.selection) :
    let after := (run.advance options source gated).2
    (after.status = .pending ∧ after.assembly.Holds source run.request.selection ∧
      (run.assembly.advance source gated run.request.database).2 = .ok after.assembly ∧
      ¬after.assembly.Complete) ∨ Settles options source run.request after.status := by
  intro after
  have hafter : after = (run.advance options source gated).2 := rfl
  rw [advance, if_neg (by rw [hlive]; exact Bool.false_ne_true)] at hafter
  cases hresult : run.assembly.advance source gated run.request.database with
  | mk calls result =>
    rw [hresult] at hafter
    cases result with
    | error failure =>
      have hfails : FetchFails source run.request.database run.request.selection failure :=
        h.fetchFails (by rw [hresult])
      rw [hafter]
      exact Or.inr (settles_of_fetchFails hfails)
    | ok assembly =>
      have hholds : assembly.Holds source run.request.selection := h.advance (by rw [hresult])
      cases htables : assembly.tables? with
      | some tables =>
        have hdone : after.status = .done (run.request.target.render options tables) := by
          rw [hafter]
          simp [settle, htables, hlive]
        rw [hdone]
        exact Or.inr (settles_of_holds hholds htables)
      | none =>
        have hwaits : after = { run with assembly } := by
          rw [hafter]
          simp [settle, htables]
        rw [hwaits]
        refine Or.inl ⟨hpending, hholds, rfl, ?_⟩
        rw [← Assembly.isSome_tables_iff, htables]
        exact Bool.false_ne_true

theorem advance_settles (hpending : run.status = .pending) (hlive : run.cancelled = false)
    (h : run.assembly.Holds source run.request.selection)
    (hopen : ∀ call ∈ Assembly.calls run.request.selection, gated call = false) :
    Settles options source run.request (run.advance options source gated).2.status := by
  rcases advance_waits_or_settles hpending hlive h with ⟨_, _, hok, hincomplete⟩ | hsettles
  · exact absurd (h.complete_advance hopen hok) hincomplete
  · exact hsettles

/-- What an export may have come to after some moves over one catalogue. -/
inductive Course (options : Options) (source : Source) (moves : List Move) (run : Run) : Prop
  | waits (hpending : run.status = .pending)
      (hholds : run.assembly.Holds source run.request.selection)
  | superseded (h : run.status = .failed .superseded)
      (hstart : ∃ move ∈ moves, move.started?.isSome)
  | dropped (h : run.status = .dropped) (hdrop : .apply (.drop run.id) ∈ moves)
  | settled (h : Settles options source run.request run.status)

theorem Course.mono {moves more : List Move} (h : run.Course options source moves)
    (hsub : ∀ move ∈ moves, move ∈ more) : run.Course options source more := by
  cases h with
  | waits hpending hholds => exact .waits hpending hholds
  | superseded h hstart =>
    obtain ⟨move, hmem, hstarted⟩ := hstart
    exact .superseded h ⟨move, hsub move hmem, hstarted⟩
  | dropped h hdrop => exact .dropped h (hsub _ hdrop)
  | settled h => exact .settled h

theorem Course.holds_of_pending {moves : List Move} (h : run.Course options source moves)
    (hpending : run.status = .pending) : run.assembly.Holds source run.request.selection := by
  cases h with
  | waits _ hholds => exact hholds
  | superseded hend _ => cases hpending.symm.trans hend
  | dropped hend _ => cases hpending.symm.trans hend
  | settled hsettles => exact absurd hpending hsettles.ne_pending

/-- An export is cancelled only by a later start, and keeps its course. -/
structure OnCourse (options : Options) (source : Source) (moves : List Move) (run : Run) :
    Prop where
  cancelled : run.cancelled = true → ∃ move ∈ moves, move.started?.isSome
  course : run.Course options source moves

theorem OnCourse.mono {moves more : List Move} (h : run.OnCourse options source moves)
    (hsub : ∀ move ∈ moves, move ∈ more) : run.OnCourse options source more := by
  refine ⟨fun hcancelled => ?_, h.course.mono hsub⟩
  obtain ⟨move, hmem, hstarted⟩ := h.cancelled hcancelled
  exact ⟨move, hsub move hmem, hstarted⟩

theorem OnCourse.cancel {moves : List Move} (h : run.OnCourse options source moves)
    (hstart : ∃ move ∈ moves, move.started?.isSome) : run.cancel.OnCourse options source moves := by
  refine ⟨fun _ => hstart, ?_⟩
  cases h.course with
  | waits hpending hholds => exact .waits hpending hholds
  | superseded hend _ => exact .superseded hend hstart
  | dropped hend hdrop => exact .dropped hend hdrop
  | settled hsettles => exact .settled hsettles

theorem OnCourse.drop {moves : List Move} {id : String} (h : run.OnCourse options source moves)
    (hdrop : .apply (.drop id) ∈ moves) :
    (Session.dropRun id run).OnCourse options source moves := by
  unfold Session.dropRun
  split
  · rename_i hmatch
    have hid : run.id = id := by
      rw [Bool.and_eq_true] at hmatch
      simpa using hmatch.1
    exact ⟨h.cancelled, .dropped rfl (by rw [hid]; exact hdrop)⟩
  · exact h

/-- Taking up an export keeps it on its course, which waits only for a closed gate. -/
theorem OnCourse.advance {moves : List Move} (h : run.OnCourse options source moves)
    (hpending : run.status = .pending) :
    (run.advance options source gated).2.OnCourse options source moves := by
  refine ⟨fun hcancelled => h.cancelled (by rwa [advance_cancelled] at hcancelled), ?_⟩
  cases hcancelled : run.cancelled with
  | true =>
    rw [advance_of_cancelled _ _ _ _ hcancelled]
    exact .superseded rfl (h.cancelled hcancelled)
  | false =>
    have hholds := h.course.holds_of_pending hpending
    rcases advance_waits_or_settles hpending hcancelled hholds with ⟨hwaits, hafter, _⟩ | hsettles
    · exact .waits hwaits (by rw [advance_request]; exact hafter)
    · exact .settled (by rw [advance_request]; exact hsettles)

end Run

namespace Session

variable {session : Session} {move : Move} {place : Nat} {run : Run} {moves : List Move}

theorem onCourse_changed (h : run.OnCourse session.options session.source moves) :
    (session.changed move place run).OnCourse session.options session.source (moves ++ [move]) := by
  have hwider : run.OnCourse session.options session.source (moves ++ [move]) :=
    h.mono fun other hmem => List.mem_append_left _ hmem
  have hlast : move ∈ moves ++ [move] := List.mem_append_right _ List.mem_cons_self
  rcases changed_cases session move place run with heq | ⟨hstart, heq⟩ | ⟨id, hdrop, heq⟩ | ⟨_, heq⟩
  · rw [heq]
    exact hwider
  · rw [heq]
    exact hwider.cancel ⟨move, hlast, hstart⟩
  · rw [heq]
    exact hwider.drop (hdrop ▸ hlast)
  · rw [heq, advanceRun]
    split
    · rename_i hwaits
      exact hwider.advance (run.isPending_iff.mp hwaits)
    · exact hwider

theorem onCourse_firstRun (session : Session) (id : String) {request : Request}
    (h : request.selection ≠ []) :
    (session.firstRun id request).2.OnCourse session.options session.source [] ∧
      (session.firstRun id request).2.id = id ∧
      (session.firstRun id request).2.request = request := by
  have hsome : ¬request.selection.isEmpty = true := by simpa using h
  unfold firstRun
  rw [if_neg hsome]
  have hfresh : Run.OnCourse session.options session.source []
      ⟨id, request, false, .start request.selection, .pending⟩ :=
    ⟨fun hcancelled => absurd hcancelled Bool.false_ne_true,
      .waits rfl (Assembly.holds_start session.source request.selection)⟩
  exact ⟨hfresh.advance rfl, Run.advance_id .., Run.advance_request ..⟩

/-- The catalogue stays as it is in every state that a session passes through. -/
def Steady (session : Session) (moves : List Move) : Prop :=
  ∀ earlier, earlier <+: moves → (session.play earlier).source = session.source

/-- Only four kinds of step change the catalogue. -/
def keepsSource : Move → Bool
  | .apply (.fail ..) => false
  | .apply (.heal ..) => false
  | .apply (.setColumns ..) => false
  | .apply (.setRelations ..) => false
  | _ => true

theorem source_move (session : Session) (h : keepsSource move) :
    (session.move move).source = session.source := by
  cases hstart : move.started? with
  | some started =>
    rw [move_of_started hstart]
    rfl
  | none =>
    cases move with
    | resume => rfl
    | apply step =>
      cases step with
      | start id database selection target =>
        have hnone : Target.ofName? target = none := Option.map_eq_none_iff.mp hstart
        simp [Session.move, apply, hnone, Except.toOption]
      | gate call => rfl
      | release call => rfl
      | drop id => rfl
      | fail call chain => cases h
      | heal call => cases h
      | setColumns table records => cases h
      | setRelations records => cases h

theorem steady_of_keepsSource (session : Session) (h : ∀ move ∈ moves, keepsSource move) :
    session.Steady moves := by
  intro earlier hinit
  obtain ⟨later, rfl⟩ := hinit
  induction earlier generalizing session with
  | nil => rfl
  | cons move rest ih =>
    have hfirst := source_move session (h move List.mem_cons_self)
    have hrest := ih (session.move move) fun other hmem => h other (List.mem_cons_of_mem _ hmem)
    exact hrest.trans hfirst

theorem exists_onCourse (session : Session) (id : String) {request : Request}
    (hselection : request.selection ≠ []) (moves : List Move)
    (hsteady : (session.startRun id request).Steady moves) :
    ∃ run, ((session.startRun id request).play moves).runs[session.runs.length]? = some run ∧
      run.id = id ∧ run.request = request ∧
      run.OnCourse session.options session.source moves := by
  induction moves using List.reverseRecOn with
  | nil =>
    obtain ⟨hcourse, hid, hrequest⟩ := onCourse_firstRun session id hselection
    refine ⟨_, ?_, hid, hrequest, hcourse⟩
    rw [play_nil, runs_startRun, ← length_cancelCurrent session, List.getElem?_concat_length]
  | append_singleton moves move ih =>
    have hearlier : (session.startRun id request).Steady moves :=
      fun earlier hinit => hsteady earlier (hinit.trans (List.prefix_append ..))
    obtain ⟨run, hrun, hid, hrequest, hcourse⟩ := ih hearlier
    have hsource : ((session.startRun id request).play moves).source = session.source :=
      hsteady moves (List.prefix_append ..)
    have hoptions : ((session.startRun id request).play moves).options = session.options :=
      options_play _ _
    rw [← hsource, ← hoptions] at hcourse
    rw [play_append, ← hsource, ← hoptions]
    exact ⟨_, getElem?_move move hrun, changed_id.trans hid, changed_request.trans hrequest,
      onCourse_changed hcourse⟩

/-- Once the gates of its calls are open, taking up an export leaves it no longer waiting. -/
theorem settles_advanceRun (hcourse : run.OnCourse session.options session.source moves)
    (hopen : ∀ call ∈ Assembly.calls run.request.selection, session.gated call = false) :
    let after := session.advanceRun run
    (after.status = .failed .superseded ∧ ∃ move ∈ moves, move.started?.isSome) ∨
      (after.status = .dropped ∧ .apply (.drop run.id) ∈ moves) ∨
      Settles session.options session.source run.request after.status := by
  intro after
  by_cases hpending : run.status = .pending
  · have hafter : after = (run.advance session.options session.source session.gated).2 :=
      if_pos (run.isPending_iff.mpr hpending)
    rw [hafter]
    cases hcancelled : run.cancelled with
    | true =>
      rw [Run.advance_of_cancelled _ _ _ _ hcancelled]
      exact Or.inl ⟨rfl, hcourse.cancelled hcancelled⟩
    | false =>
      have hholds := hcourse.course.holds_of_pending hpending
      exact Or.inr (Or.inr (Run.advance_settles hpending hcancelled hholds hopen))
  · have hafter : after = run := if_neg fun h => hpending (run.isPending_iff.mp h)
    rw [hafter]
    cases hcourse.course with
    | waits hwaits _ => exact absurd hwaits hpending
    | superseded hend hstart => exact Or.inl ⟨hend, hstart⟩
    | dropped hend hdrop => exact Or.inr (Or.inl ⟨hend, hdrop⟩)
    | settled hsettles => exact Or.inr (Or.inr hsettles)

/-- The answer of an export does not depend on its schedule. Whatever gates were closed when
it started, whatever moves have passed since, and in whatever order and company the gates of
its calls were opened among them: if it was not overtaken or dropped on the way, it has its
text just when an assembly without gates has tables, and they are the tables of that text.
Otherwise it has failed by a fetch that does fail. -/
theorem answer_independent_of_schedule (session : Session) (id : String) (request : Request)
    (moves : List Move) (hselection : request.selection ≠ [])
    (hsteady : (session.startRun id request).Steady moves)
    (hopen : ∀ call ∈ Assembly.calls request.selection,
      ((session.startRun id request).play moves).gated call = false) :
    ∃ run : Run,
      ((session.startRun id request).play (moves ++ [.resume])).runs[session.runs.length]? =
        some run ∧
      ((run.status = .failed .superseded ∧ ∃ move ∈ moves, move.started?.isSome) ∨
        (run.status = .dropped ∧ .apply (.drop id) ∈ moves) ∨
        match (assemble session.source request.database request.selection).2 with
        | .ok tables => run.status = .done (request.target.render session.options tables)
        | .error _ => ∃ failure, run.status = .failed failure ∧
            FetchFails session.source request.database request.selection failure) := by
  obtain ⟨run, hrun, hid, hrequest, hcourse⟩ := exists_onCourse session id hselection moves hsteady
  have hsource : ((session.startRun id request).play moves).source = session.source :=
    hsteady moves (List.prefix_rfl)
  have hoptions : ((session.startRun id request).play moves).options = session.options :=
    options_play _ _
  subst hid hrequest
  rw [← hsource, ← hoptions] at hcourse
  have hend := settles_advanceRun hcourse hopen
  rw [hsource, hoptions] at hend
  refine ⟨_, ?_, hend⟩
  rw [play_append]
  exact getElem?_move .resume hrun

/-- Two gates that are opened in two takings up, over a selection that repeats a table. -/
theorem answer_of_repeated_selection_behind_gates :
    let session : Session :=
      { new {} ⟨[("a", []), ("b", [])], [], []⟩ with gates := ["relations", "columns:b"] }
    let request : Request := ⟨"shop", ["b", "a", "b"], .sql⟩
    let moves : List Move :=
      [.resume, .apply (.release "columns:b"), .resume, .apply (.release "relations")]
    (session.startRun "x" request).Steady moves ∧
      ∃ run : Run,
        ((session.startRun "x" request).play (moves ++ [.resume])).runs[0]? = some run ∧
        run.status =
          .done (Target.sql.render {} [⟨"b", [], []⟩, ⟨"a", [], []⟩, ⟨"b", [], []⟩]) := by
  intro session request moves
  have hsteady : (session.startRun "x" request).Steady moves :=
    steady_of_keepsSource _ (by decide +kernel)
  have hopen : ∀ call ∈ Assembly.calls request.selection,
      ((session.startRun "x" request).play moves).gated call = false := by decide +kernel
  have hassemble : (assemble session.source request.database request.selection).2 =
      .ok [⟨"b", [], []⟩, ⟨"a", [], []⟩, ⟨"b", [], []⟩] := rfl
  obtain ⟨run, hrun, hend⟩ := answer_independent_of_schedule session "x" request moves
    (by decide) hsteady hopen
  refine ⟨hsteady, run, hrun, ?_⟩
  rw [hassemble] at hend
  have hquiet : ∀ move ∈ moves, move.started? = none := by decide +kernel
  rcases hend with ⟨_, move, hmem, hstart⟩ | ⟨_, hdrop⟩ | hdone
  · rw [hquiet move hmem] at hstart
    cases hstart
  · simp [moves] at hdrop
  · exact hdone

end Session

end Schemata.Export
