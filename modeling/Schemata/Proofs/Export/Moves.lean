import Schemata.Export.Session

/-!
A session one move at a time. A move is a step, or the taking up of all waiting exports that
follows every top-level step, so that the moves of a session pass through every state that
it has, also those inside a batch. What a move makes of an export that is already there is
written down once, and everything that is kept along a session follows from it.
-/
namespace Schemata.Export

open Catalogue

inductive Move
  | apply (step : Step)
  | resume

/-- A step that is not carried out ends its batch. -/
def Step.isAccepted : Step → Bool
  | .start _ _ _ target => (Target.ofName? target).isSome
  | _ => true

def movesOf (steps : List Step) : List Move :=
  (steps.takeWhile Step.isAccepted).map .apply ++ [.resume]

/-- The export that a move starts. -/
def Move.started? : Move → Option (String × Request)
  | .apply (.start id database selection target) =>
    (Target.ofName? target).map fun target => (id, ⟨database, selection, target⟩)
  | _ => none

/-- An answer comes from the fetches of an export itself: a text, or a fetch that failed. -/
def Status.isAnswer : Status → Bool
  | .done _ => true
  | .failed (.columns ..) => true
  | .failed (.relations ..) => true
  | _ => false

namespace Run

variable (options : Options) (source : Source) (gated : Call → Bool) (run : Run)

def cancel (run : Run) : Run := { run with cancelled := true }

@[simp] theorem cancel_status : run.cancel.status = run.status := rfl

theorem isPending_iff : run.isPending = true ↔ run.status = .pending := by
  simp [isPending]

theorem settle_eq :
    run.settle options = { run with status := (run.settle options).status } := by
  unfold settle
  split
  · dsimp only
    split
    · rfl
    · rfl
  · rfl

/-- Taking up an export changes nothing but what it holds and its status. -/
theorem advance_eq :
    (run.advance options source gated).2 =
      { run with
        assembly := (run.advance options source gated).2.assembly
        status := (run.advance options source gated).2.status } := by
  unfold advance
  split
  · rfl
  · split
    · rfl
    · dsimp only
      rw [settle_eq]

@[simp] theorem advance_id : (run.advance options source gated).2.id = run.id := by
  rw [advance_eq]

@[simp] theorem advance_request :
    (run.advance options source gated).2.request = run.request := by
  rw [advance_eq]

@[simp] theorem advance_cancelled :
    (run.advance options source gated).2.cancelled = run.cancelled := by
  rw [advance_eq]

/-- Whatever its fetches hold ready, a cancelled export only learns that it was superseded. -/
theorem advance_of_cancelled (h : run.cancelled = true) :
    run.advance options source gated = ([], run.fail .superseded) := by
  simp [advance, h]

variable {options source gated run}

theorem settle_eq_self_of_pending (hpending : (run.settle options).status = .pending) :
    run.settle options = run := by
  unfold settle at hpending ⊢
  split at hpending
  · dsimp only at hpending
    split at hpending
    · cases hpending
    · cases hpending
  · rfl

/-- What taking up an export has come to when the export still waits. -/
theorem advance_of_waiting (hpending : (run.advance options source gated).2.status = .pending) :
    run.cancelled = false ∧ ∃ assembly : Assembly,
      (run.assembly.advance source gated run.request.database).2 = .ok assembly ∧
      (run.advance options source gated).2 = { run with assembly } ∧
      settle options { run with assembly } = { run with assembly } := by
  unfold advance at hpending ⊢
  by_cases hcancelled : run.cancelled = true
  · rw [if_pos hcancelled] at hpending
    cases hpending
  · rw [if_neg hcancelled] at hpending ⊢
    cases hresult : run.assembly.advance source gated run.request.database with
    | mk calls result =>
      rw [hresult] at hpending
      cases result with
      | error failure => cases hpending
      | ok assembly =>
        have hsettle : settle options { run with assembly } = { run with assembly } :=
          settle_eq_self_of_pending hpending
        exact ⟨by simpa using hcancelled, assembly, rfl, hsettle, hsettle⟩

end Run

namespace Session

/-- A step that is refused leaves the session as it is. -/
def move (session : Session) : Move → Session
  | .apply step => (session.apply step).toOption.getD session
  | .resume => session.advanceRuns

def play (session : Session) (moves : List Move) : Session := moves.foldl move session

/-- The session after several top-level steps. -/
def stepAll (session : Session) (batches : List (List Step)) : Session :=
  batches.foldl (fun session steps => (session.step steps).1) session

@[simp] theorem play_nil (session : Session) : session.play [] = session := rfl

@[simp] theorem play_cons (session : Session) (move : Move) (moves : List Move) :
    session.play (move :: moves) = (session.move move).play moves := rfl

theorem play_append (session : Session) (moves more : List Move) :
    session.play (moves ++ more) = (session.play moves).play more :=
  List.foldl_append

theorem applyAll_eq_play (session : Session) (steps : List Step) :
    (session.applyAll steps).1 =
      session.play ((steps.takeWhile Step.isAccepted).map .apply) := by
  induction steps generalizing session with
  | nil => rfl
  | cons step rest ih =>
    cases step with
    | start id database selection target =>
      cases h : Target.ofName? target with
      | none => simp [applyAll, apply, Step.isAccepted, h]
      | some kind =>
        simp [applyAll, apply, Step.isAccepted, h, ih, move, Except.toOption]
    | gate call => exact ih _
    | release call => exact ih _
    | fail call chain => exact ih _
    | heal call => exact ih _
    | setColumns table records => exact ih _
    | setRelations records => exact ih _
    | drop id => exact ih _

theorem step_eq_play (session : Session) (steps : List Step) :
    (session.step steps).1 = session.play (movesOf steps) := by
  have h := applyAll_eq_play session steps
  unfold movesOf
  rw [play_append, ← h]
  rfl

/-- A session of top-level steps is one of moves. -/
theorem stepAll_eq_play (session : Session) (batches : List (List Step)) :
    session.stepAll batches = session.play (batches.flatMap movesOf) := by
  induction batches generalizing session with
  | nil => rfl
  | cons steps rest ih =>
    rw [List.flatMap_cons, play_append, ← step_eq_play]
    exact ih _

theorem exists_start_of_started {move : Move} {id : String} {request : Request}
    (h : move.started? = some (id, request)) :
    ∃ target, move = .apply (.start id request.database request.selection target) ∧
      Target.ofName? target = some request.target := by
  unfold Move.started? at h
  split at h
  · rename_i name database selection target
    obtain ⟨kind, hkind, hpair⟩ := Option.map_eq_some_iff.mp h
    cases hpair
    exact ⟨target, rfl, hkind⟩
  · cases h

theorem move_of_started {session : Session} {move : Move} {id : String} {request : Request}
    (h : move.started? = some (id, request)) :
    session.move move = session.startRun id request := by
  obtain ⟨target, rfl, htarget⟩ := exists_start_of_started h
  simp [Session.move, apply, htarget, Except.toOption]

/-- What a move makes of the export at a place. -/
def changed (session : Session) (move : Move) (place : Nat) (run : Run) : Run :=
  match move with
  | .apply (.drop id) => dropRun id run
  | .apply _ =>
    if move.started?.isSome && session.current == some place then run.cancel else run
  | .resume => session.advanceRun run

variable {session : Session} {move : Move} {place : Nat} {run : Run}

theorem getElem?_cancelCurrent (h : session.runs[place]? = some run) :
    session.cancelCurrent[place]? =
      some (if session.current = some place then run.cancel else run) := by
  unfold cancelCurrent
  cases hcurrent : session.current with
  | none => simpa using h
  | some newest =>
    by_cases hplace : newest = place
    · subst newest
      simp [h, Run.cancel]
    · simp [h, hplace]

theorem length_cancelCurrent (session : Session) :
    session.cancelCurrent.length = session.runs.length := by
  unfold cancelCurrent
  split
  · rfl
  · exact List.length_modify ..

theorem runs_startRun (session : Session) (id : String) (request : Request) :
    (session.startRun id request).runs =
      session.cancelCurrent ++ [(session.firstRun id request).2] := rfl

theorem length_startRun (session : Session) (id : String) (request : Request) :
    (session.startRun id request).runs.length = session.runs.length + 1 := by
  rw [runs_startRun, List.length_append, length_cancelCurrent]
  rfl

/-- Without a start the place of an export does not matter. -/
theorem runs_move_of_not_started (session : Session) (place : Nat) (h : move.started? = none) :
    (session.move move).runs = session.runs.map (session.changed move place) := by
  cases move with
  | resume => rfl
  | apply step =>
    cases step with
    | start id database selection target =>
      have hnone : Target.ofName? target = none := Option.map_eq_none_iff.mp h
      have hsame : session.changed (.apply (.start id database selection target)) place =
          fun run => run := by
        funext run
        simp [changed, Move.started?, hnone]
      simp [Session.move, apply, hsame, hnone, Except.toOption]
    | drop id => rfl
    | gate call => exact (List.map_id _).symm
    | release call => exact (List.map_id _).symm
    | fail call chain => exact (List.map_id _).symm
    | heal call => exact (List.map_id _).symm
    | setColumns table records => exact (List.map_id _).symm
    | setRelations records => exact (List.map_id _).symm

theorem move_eq_of_not_started (session : Session) (h : move.started? = none) :
    session.move move =
      { session with
        source := (session.move move).source
        gates := (session.move move).gates
        runs := (session.move move).runs } := by
  cases move with
  | resume => rfl
  | apply step =>
    cases step with
    | start id database selection target =>
      have hnone : Target.ofName? target = none := Option.map_eq_none_iff.mp h
      simp [Session.move, apply, hnone, Except.toOption]
    | drop id => rfl
    | gate call => rfl
    | release call => rfl
    | fail call chain => rfl
    | heal call => rfl
    | setColumns table records => rfl
    | setRelations records => rfl

theorem changed_of_started {id : String} {request : Request}
    (h : move.started? = some (id, request)) :
    session.changed move place run =
      if session.current = some place then run.cancel else run := by
  obtain ⟨target, rfl, htarget⟩ := exists_start_of_started h
  simp [changed, Move.started?, htarget]

/-- An export keeps its place, and `changed` says what a move makes of it. -/
theorem getElem?_move (move : Move) (hplace : session.runs[place]? = some run) :
    (session.move move).runs[place]? = some (session.changed move place run) := by
  cases h : move.started? with
  | none =>
    rw [runs_move_of_not_started session place h, List.getElem?_map, hplace]
    rfl
  | some started =>
    obtain ⟨id, request⟩ := started
    have hlt : place < session.cancelCurrent.length := by
      rw [length_cancelCurrent]
      exact (List.getElem?_eq_some_iff.mp hplace).1
    rw [move_of_started h, runs_startRun, List.getElem?_append_left hlt,
      getElem?_cancelCurrent hplace, changed_of_started h]

theorem changed_cases (session : Session) (move : Move) (place : Nat) (run : Run) :
    session.changed move place run = run ∨
      (move.started?.isSome ∧ session.changed move place run = run.cancel) ∨
      (∃ id, move = .apply (.drop id) ∧ session.changed move place run = dropRun id run) ∨
      (move = .resume ∧ session.changed move place run = session.advanceRun run) := by
  unfold changed
  split
  · exact Or.inr (Or.inr (Or.inl ⟨_, rfl, rfl⟩))
  · split
    · rename_i h
      rw [Bool.and_eq_true] at h
      exact Or.inr (Or.inl ⟨h.1, rfl⟩)
    · exact Or.inl rfl
  · exact Or.inr (Or.inr (Or.inr ⟨rfl, rfl⟩))

/-- No move changes the name or the request of an export. -/
theorem changed_eq (session : Session) (move : Move) (place : Nat) (run : Run) :
    session.changed move place run =
      { run with
        cancelled := (session.changed move place run).cancelled
        assembly := (session.changed move place run).assembly
        status := (session.changed move place run).status } := by
  rcases changed_cases session move place run with heq | ⟨_, heq⟩ | ⟨id, _, heq⟩ | ⟨_, heq⟩
  · rw [heq]
  · rw [heq]
    rfl
  · rw [heq, dropRun]
    split
    · rfl
    · rfl
  · rw [heq, advanceRun]
    split
    · rw [Run.advance_eq]
    · rfl

@[simp] theorem changed_id : (session.changed move place run).id = run.id := by
  rw [changed_eq]

@[simp] theorem changed_request : (session.changed move place run).request = run.request := by
  rw [changed_eq]

theorem length_move_of_not_started (session : Session) (h : move.started? = none) :
    (session.move move).runs.length = session.runs.length := by
  rw [runs_move_of_not_started session 0 h, List.length_map]

theorem current_move_of_not_started (session : Session) (h : move.started? = none) :
    (session.move move).current = session.current := by
  rw [move_eq_of_not_started session h]

theorem options_move (session : Session) (move : Move) :
    (session.move move).options = session.options := by
  cases h : move.started? with
  | none => rw [move_eq_of_not_started session h]
  | some started =>
    rw [move_of_started h]
    rfl

theorem options_play (session : Session) (moves : List Move) :
    (session.play moves).options = session.options := by
  induction moves generalizing session with
  | nil => rfl
  | cons move rest ih => exact (ih _).trans (options_move session move)

end Session

end Schemata.Export
