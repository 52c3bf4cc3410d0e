import Schemata.Proofs.Export.Moves

/-!
Only the newest export may answer. Along every session the kept token belongs to the newest
export and exactly the older ones are cancelled, whatever has become of any of them. So an
answer is always one of the newest export, and an export that was overtaken while it waited
learns nothing but that.
-/
namespace Schemata.Export

open Catalogue

namespace Session

variable {session : Session} {move : Move} {place : Nat} {run : Run}

/-- The invariant of a session, which also holds inside a batch. -/
structure NewestHolds (session : Session) : Prop where
  current_iff : ∀ place, session.current = some place ↔ place + 1 = session.runs.length
  cancelled_iff : ∀ place run, session.runs[place]? = some run →
    (run.cancelled = true ↔ place + 1 < session.runs.length)

theorem newestHolds_new (options : Options) (source : Source) :
    (new options source).NewestHolds where
  current_iff place := by simp [new]
  cancelled_iff place run h := by simp [new] at h

theorem dropRun_cancelled (id : String) (run : Run) :
    (dropRun id run).cancelled = run.cancelled := by
  unfold dropRun
  split
  · rfl
  · rfl

theorem advanceRun_cancelled (session : Session) (run : Run) :
    (session.advanceRun run).cancelled = run.cancelled := by
  unfold advanceRun
  split
  · exact Run.advance_cancelled ..
  · rfl

theorem changed_cancelled_of_not_started (h : move.started? = none) :
    (session.changed move place run).cancelled = run.cancelled := by
  cases move with
  | resume => exact advanceRun_cancelled session run
  | apply step =>
    cases step with
    | drop id => exact dropRun_cancelled id run
    | start id database selection target => simp [changed, h]
    | gate call => rfl
    | release call => rfl
    | fail call chain => rfl
    | heal call => rfl
    | setColumns table records => rfl
    | setRelations records => rfl

theorem firstRun_cancelled (session : Session) (id : String) (request : Request) :
    (session.firstRun id request).2.cancelled = false := by
  unfold firstRun
  dsimp only
  split
  · rfl
  · exact Run.advance_cancelled ..

/-- Every place of a session after a move was there before it, or is that of a new export. -/
theorem exists_run_before_move (h : (session.move move).runs[place]? = some run) :
    (∃ old, session.runs[place]? = some old ∧ run = session.changed move place old) ∨
      ∃ id request, move.started? = some (id, request) ∧ place = session.runs.length ∧
        run = (session.firstRun id request).2 := by
  by_cases hplace : place < session.runs.length
  · have hold := List.getElem?_eq_getElem hplace
    refine Or.inl ⟨_, hold, ?_⟩
    rw [getElem?_move move hold] at h
    exact (Option.some.inj h).symm
  · have hlt : place < (session.move move).runs.length := (List.getElem?_eq_some_iff.mp h).1
    cases hstart : move.started? with
    | none =>
      rw [length_move_of_not_started session hstart] at hlt
      omega
    | some started =>
      obtain ⟨id, request⟩ := started
      have hmove : session.move move = session.startRun id request := move_of_started hstart
      rw [hmove, length_startRun] at hlt
      have heq : place = session.runs.length := by omega
      subst place
      rw [hmove, runs_startRun, ← length_cancelCurrent session, List.getElem?_concat_length] at h
      exact Or.inr ⟨id, request, rfl, rfl, (Option.some.inj h).symm⟩

theorem NewestHolds.newest_of_live (h : session.NewestHolds)
    (hrun : session.runs[place]? = some run) (hlive : run.cancelled = false) :
    place + 1 = session.runs.length := by
  have hlt : place < session.runs.length := (List.getElem?_eq_some_iff.mp hrun).1
  have hnot : ¬place + 1 < session.runs.length := by
    rw [← h.cancelled_iff place run hrun, hlive]
    exact Bool.false_ne_true
  omega

theorem NewestHolds.changed_cancelled (h : session.NewestHolds) {id : String} {request : Request}
    (hstart : move.started? = some (id, request)) (hrun : session.runs[place]? = some run) :
    (session.changed move place run).cancelled = true := by
  rw [changed_of_started hstart]
  split
  · rfl
  · rename_i hother
    have hlt : place < session.runs.length := (List.getElem?_eq_some_iff.mp hrun).1
    have hne : place + 1 ≠ session.runs.length := fun heq => hother ((h.current_iff place).mpr heq)
    exact (h.cancelled_iff place run hrun).mpr (by omega)

theorem NewestHolds.after_move (h : session.NewestHolds) (move : Move) :
    (session.move move).NewestHolds := by
  cases hstart : move.started? with
  | none =>
    have hlength := length_move_of_not_started session hstart
    constructor
    · intro place
      rw [current_move_of_not_started session hstart, hlength]
      exact h.current_iff place
    · intro place run hrun
      rw [hlength]
      rcases exists_run_before_move hrun with ⟨old, hold, rfl⟩ | ⟨id, request, hsome, _⟩
      · rw [changed_cancelled_of_not_started hstart]
        exact h.cancelled_iff place old hold
      · rw [hstart] at hsome
        cases hsome
  | some started =>
    obtain ⟨id, request⟩ := started
    have hlength : (session.move move).runs.length = session.runs.length + 1 := by
      rw [move_of_started hstart, length_startRun]
    constructor
    · intro place
      rw [hlength, move_of_started hstart]
      change some session.runs.length = some place ↔ _
      rw [Option.some.injEq]
      omega
    · intro place run hrun
      rw [hlength]
      rcases exists_run_before_move hrun with ⟨old, hold, rfl⟩ | ⟨id, request, _, rfl, rfl⟩
      · have hlt : place < session.runs.length := (List.getElem?_eq_some_iff.mp hold).1
        simp [h.changed_cancelled hstart hold, hlt]
      · simp [firstRun_cancelled]

theorem NewestHolds.after_play (h : session.NewestHolds) (moves : List Move) :
    (session.play moves).NewestHolds := by
  induction moves generalizing session with
  | nil => exact h
  | cons move rest ih => exact ih (h.after_move move)

/-- Every state of a session that starts afresh. -/
theorem newestHolds_play (options : Options) (source : Source) (moves : List Move) :
    ((new options source).play moves).NewestHolds :=
  (newestHolds_new options source).after_play moves

theorem status_changed_of_final (h : run.status ≠ .pending) :
    (session.changed move place run).status = run.status := by
  have hidle : run.isPending = false := by simp [Run.isPending, h]
  rcases changed_cases session move place run with heq | ⟨_, heq⟩ | ⟨id, _, heq⟩ | ⟨_, heq⟩
  · rw [heq]
  · rw [heq, Run.cancel_status]
  · simp [heq, dropRun, hidle]
  · simp [heq, advanceRun, hidle]

/-- A status that is not that of a waiting export stays. -/
theorem status_play_of_final (moves : List Move) (hrun : session.runs[place]? = some run)
    (h : run.status ≠ .pending) :
    ∃ after, (session.play moves).runs[place]? = some after ∧ after.status = run.status := by
  induction moves generalizing session run with
  | nil => exact ⟨run, hrun, rfl⟩
  | cons move rest ih =>
    have hsame : (session.changed move place run).status = run.status := status_changed_of_final h
    obtain ⟨after, hafter, hstatus⟩ := ih (getElem?_move move hrun) (by rw [hsame]; exact h)
    exact ⟨after, hafter, hstatus.trans hsame⟩

/-- Among the exports that wait only one that is not cancelled may answer. -/
theorem not_cancelled_of_answer (hold : run.status = .pending)
    (h : (session.changed move place run).status.isAnswer) :
    (session.changed move place run).cancelled = false := by
  rcases changed_cases session move place run with heq | ⟨_, heq⟩ | ⟨id, _, heq⟩ | ⟨_, heq⟩
  · rw [heq, hold] at h
    cases h
  · rw [heq, Run.cancel_status, hold] at h
    cases h
  · rw [heq, dropRun] at h
    split at h
    · cases h
    · rw [hold] at h
      cases h
  · cases hcancelled : run.cancelled with
    | false => rw [heq, advanceRun_cancelled, hcancelled]
    | true =>
      rw [heq, advanceRun, if_pos (run.isPending_iff.mpr hold),
        Run.advance_of_cancelled _ _ _ _ hcancelled] at h
      cases h

theorem changed_resume_of_cancelled (hpending : run.status = .pending)
    (hcancelled : run.cancelled = true) :
    (session.changed .resume place run).status = .failed .superseded := by
  simp only [changed, advanceRun]
  rw [if_pos (run.isPending_iff.mpr hpending), Run.advance_of_cancelled _ _ _ _ hcancelled]
  rfl

/-- Between two takings up an export that waits can only be cancelled or dropped. -/
theorem changed_apply_of_pending {step : Step} (hpending : run.status = .pending)
    (hcancelled : run.cancelled = true) :
    (session.changed (.apply step) place run).status = .dropped ∨
      (session.changed (.apply step) place run).status = .pending ∧
        (session.changed (.apply step) place run).cancelled = true := by
  rcases changed_cases session (.apply step) place run with heq | ⟨_, heq⟩ | ⟨id, _, heq⟩ | ⟨h, _⟩
  · rw [heq]
    exact Or.inr ⟨hpending, hcancelled⟩
  · rw [heq]
    exact Or.inr ⟨hpending, rfl⟩
  · rw [heq, dropRun_cancelled, dropRun]
    split
    · exact Or.inl rfl
    · exact Or.inr ⟨hpending, hcancelled⟩
  · cases h

/-- An export that was overtaken waits until the next taking up, which ends it. -/
theorem status_play_of_cancelled (moves : List Move) (hrun : session.runs[place]? = some run)
    (hpending : run.status = .pending) (hcancelled : run.cancelled = true) :
    ∃ last, (session.play moves).runs[place]? = some last ∧
      (last.status = .failed .superseded ∨ last.status = .dropped ∨
        last.status = .pending ∧ .resume ∉ moves) := by
  induction moves generalizing session run with
  | nil => exact ⟨run, hrun, Or.inr (Or.inr ⟨hpending, List.not_mem_nil⟩)⟩
  | cons move rest ih =>
    have hnext := getElem?_move move hrun
    cases move with
    | resume =>
      have hend : (session.changed .resume place run).status = .failed .superseded :=
        changed_resume_of_cancelled hpending hcancelled
      obtain ⟨last, hlast, hstatus⟩ := status_play_of_final rest hnext (by simp [hend])
      exact ⟨last, hlast, Or.inl (hstatus.trans hend)⟩
    | apply step =>
      have hcases : (session.changed (.apply step) place run).status = .dropped ∨ _ :=
        changed_apply_of_pending hpending hcancelled
      rcases hcases with hend | ⟨hwaits, hstill⟩
      · obtain ⟨last, hlast, hstatus⟩ := status_play_of_final rest hnext (by simp [hend])
        exact ⟨last, hlast, Or.inr (Or.inl (hstatus.trans hend))⟩
      · obtain ⟨last, hlast, hstatus⟩ := ih hnext hwaits hstill
        refine ⟨last, hlast, hstatus.imp_right (Or.imp_right fun ⟨hlastWaits, hnone⟩ => ?_)⟩
        exact ⟨hlastWaits, by simpa using hnone⟩

/-- Last request wins. The move that brings the answer of an export finds or leaves it as the
newest one, and an export that waits when another one starts never answers. -/
theorem only_newest_answers (options : Options) (source : Source) (moves : List Move)
    (move : Move) :
    let before := (new options source).play moves
    let after := before.move move
    (∀ (place : Nat) (run : Run), after.runs[place]? = some run → run.status.isAnswer →
      (∀ old, before.runs[place]? = some old → old.status = .pending) →
      place + 1 = after.runs.length) ∧
    (∀ (place : Nat) (run : Run), before.runs[place]? = some run → run.status = .pending →
      move.started?.isSome → ∀ later : List Move,
      ∃ last : Run, (after.play later).runs[place]? = some last ∧
        (last.status = .failed .superseded ∨ last.status = .dropped ∨
          last.status = .pending ∧ .resume ∉ later)) := by
  intro before after
  have hbefore : before.NewestHolds := newestHolds_play options source moves
  have hafter : after.NewestHolds := hbefore.after_move move
  constructor
  · intro place run hrun hanswer hopen
    have hlive : run.cancelled = false := by
      rcases exists_run_before_move hrun with ⟨old, hold, rfl⟩ | ⟨id, request, _, _, rfl⟩
      · exact not_cancelled_of_answer (hopen old hold) hanswer
      · exact firstRun_cancelled ..
    exact hafter.newest_of_live hrun hlive
  · intro place run hrun hpending hstart later
    obtain ⟨⟨id, request⟩, hstarted⟩ := Option.isSome_iff_exists.mp hstart
    have hcancelled := hbefore.changed_cancelled hstarted hrun
    have hwaits : (before.changed move place run).status = .pending := by
      rw [changed_of_started hstarted]
      split
      · exact hpending
      · exact hpending
    exact status_play_of_cancelled later (getElem?_move move hrun) hwaits hcancelled

/-- An export that waits at a gate is overtaken by one of no tables, and loses its answer. -/
theorem waiting_export_overtaken_by_empty_one :
    let moves : List Move :=
      [.apply (.gate "relations"), .apply (.start "a" "shop" ["t"] "sql"), .resume]
    let before := (new {} ⟨[("t", [])], [], []⟩).play moves
    let after := before.move (.apply (.start "b" "shop" [] "sql"))
    before.runs[0]?.map (·.status) = some .pending ∧
      ∃ last : Run, (after.play [.apply (.release "relations"), .resume]).runs[0]? = some last ∧
        (last.status = .failed .superseded ∨ last.status = .dropped) := by
  intro moves before after
  have hwaits : before.runs[0]?.map (·.status) = some .pending := by decide +kernel
  obtain ⟨run, hrun, hpending⟩ := Option.map_eq_some_iff.mp hwaits
  have hlost := (only_newest_answers {} ⟨[("t", [])], [], []⟩ moves
    (.apply (.start "b" "shop" [] "sql"))).2
  obtain ⟨last, hlast, hend⟩ := hlost 0 run hrun hpending (by decide +kernel)
    [.apply (.release "relations"), .resume]
  refine ⟨hwaits, last, hlast, ?_⟩
  rcases hend with hsuperseded | hdropped | ⟨_, hnone⟩
  · exact Or.inl hsuperseded
  · exact Or.inr hdropped
  · simp at hnone

theorem cancelled_of_pending_resumed (hrun : (session.move .resume).runs[place]? = some run)
    (hpending : run.status = .pending) : run.cancelled = false := by
  rcases exists_run_before_move hrun with ⟨old, _, rfl⟩ | ⟨id, request, hstart, _⟩
  · cases hcancelled : old.cancelled with
    | false => rw [changed_cancelled_of_not_started rfl, hcancelled]
    | true =>
      have hwaited : old.status = .pending := by
        by_cases hold : old.status = .pending
        · exact hold
        · rw [status_changed_of_final hold] at hpending
          exact hpending
      rw [changed_resume_of_cancelled hwaited hcancelled] at hpending
      cases hpending
  · cases hstart

theorem newestHolds_stepAll (options : Options) (source : Source) (batches : List (List Step)) :
    ((new options source).stepAll batches).NewestHolds := by
  rw [stepAll_eq_play]
  exact newestHolds_play options source _

/-- Every top-level step ends with a taking up, which leaves no cancelled export waiting. -/
theorem cancelled_of_pending_stepAll (options : Options) (source : Source)
    (batches : List (List Step)) (hpending : run.status = .pending)
    (hrun : ((new options source).stepAll batches).runs[place]? = some run) :
    run.cancelled = false := by
  rcases List.eq_nil_or_concat batches with rfl | ⟨before, steps, rfl⟩
  · simp [stepAll, new] at hrun
  · rw [stepAll_eq_play, List.concat_eq_append, List.flatMap_append] at hrun
    simp only [List.flatMap_singleton, movesOf, play_append, play_cons, play_nil] at hrun
    exact cancelled_of_pending_resumed hrun hpending

/-- Between two top-level steps at most one export waits: the newest one, whose token is the
kept one and is not cancelled. Every earlier one has a status that stays, move by move. -/
theorem earlier_exports_final (options : Options) (source : Source)
    (batches : List (List Step)) :
    let session := (new options source).stepAll batches
    (∀ (place other : Nat) (run otherRun : Run), session.runs[place]? = some run →
      session.runs[other]? = some otherRun → run.status = .pending →
      otherRun.status = .pending → place = other) ∧
    (∀ (place : Nat) (run : Run), session.runs[place]? = some run → run.status = .pending →
      place + 1 = session.runs.length ∧ session.current = some place ∧ run.cancelled = false) ∧
    (∀ (place : Nat) (run : Run), session.runs[place]? = some run →
      place + 1 < session.runs.length →
      run.status ≠ .pending ∧ ∀ later : List Move,
        ∃ last : Run, (session.play later).runs[place]? = some last ∧
          last.status = run.status) := by
  intro session
  have hholds : session.NewestHolds := newestHolds_stepAll options source batches
  have hnewest : ∀ (place : Nat) (run : Run), session.runs[place]? = some run →
      run.status = .pending → place + 1 = session.runs.length ∧ run.cancelled = false := by
    intro place run hrun hpending
    have hlive := cancelled_of_pending_stepAll options source batches hpending hrun
    exact ⟨hholds.newest_of_live hrun hlive, hlive⟩
  refine ⟨?_, ?_, ?_⟩
  · intro place other run otherRun hrun hother hpending hwaits
    have hplace := (hnewest place run hrun hpending).1
    have hsame := (hnewest other otherRun hother hwaits).1
    omega
  · intro place run hrun hpending
    obtain ⟨hplace, hlive⟩ := hnewest place run hrun hpending
    exact ⟨hplace, (hholds.current_iff place).mpr hplace, hlive⟩
  · intro place run hrun hearlier
    have hfinal : run.status ≠ .pending := by
      intro hpending
      have hplace := (hnewest place run hrun hpending).1
      omega
    exact ⟨hfinal, fun later => status_play_of_final later hrun hfinal⟩

/-- After a batch of two starts behind a gate the second one waits and the first has ended. -/
theorem batch_of_two_starts_leaves_the_second :
    let session := (new {} ⟨[("t", [])], [], []⟩).stepAll
      [[.gate "columns:t"], [.start "a" "shop" ["t"] "go", .start "b" "shop" ["t"] "zod"]]
    session.current = some 1 ∧ ∃ first : Run, session.runs[0]? = some first ∧
      first.status ≠ .pending := by
  intro session
  have hall := earlier_exports_final {} ⟨[("t", [])], [], []⟩
    [[.gate "columns:t"], [.start "a" "shop" ["t"] "go", .start "b" "shop" ["t"] "zod"]]
  have hwaits : session.runs[1]?.map (·.status) = some .pending := by decide +kernel
  obtain ⟨second, hsecond, hpending⟩ := Option.map_eq_some_iff.mp hwaits
  have hlength : session.runs.length = 2 := by decide +kernel
  have hfirst := List.getElem?_eq_getElem (show 0 < session.runs.length by omega)
  exact ⟨(hall.2.1 1 second hsecond hpending).2.1, _, hfirst,
    (hall.2.2 0 _ hfirst (show 0 + 1 < session.runs.length by omega)).1⟩

end Session

end Schemata.Export
