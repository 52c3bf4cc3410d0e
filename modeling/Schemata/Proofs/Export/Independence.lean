import Mathlib.Data.List.Basic
import Mathlib.Data.List.Induction
import Mathlib.Data.List.ModifyLast
import Schemata.Proofs.Export.Fetches
import Schemata.Proofs.Export.Newest

/-!
Earlier exports leave no trace in later ones. A session is compared with the one in which the
starts and drops of the exports before some point are left out: step by step both share the
catalogue, the gates and the later exports, whatever has become of the earlier ones. Taking
up the waiting exports twice in a row is the same as once, so that it does not matter either
whether a step of which nothing is left is still made.
-/
namespace Schemata.Export

open Catalogue

/-- The step starts or drops an export of one of the given names. -/
def Step.concerns (ids : List String) : Step → Bool
  | .start id _ _ target => (Target.ofName? target).isSome && ids.contains id
  | .drop id => ids.contains id
  | _ => false

def Move.concerns (ids : List String) : Move → Bool
  | .apply step => step.concerns ids
  | .resume => false

/-- The names of the exports that the moves start. -/
def startedIds (moves : List Move) : List String :=
  moves.filterMap fun move => move.started?.map Prod.fst

def without (ids : List String) (batches : List (List Step)) : List (List Step) :=
  batches.map fun steps => steps.filter (!Step.concerns ids ·)

section Lists

variable {ids : List String}

theorem Step.isAccepted_of_concerns {step : Step} (h : step.concerns ids = true) :
    step.isAccepted = true := by
  cases step with
  | start id database selection target =>
    rw [concerns, Bool.and_eq_true] at h
    exact h.1
  | drop id => rfl
  | gate call => cases h
  | release call => cases h
  | fail call chain => cases h
  | heal call => cases h
  | setColumns table records => cases h
  | setRelations records => cases h

/-- A step that is left out never ends its batch. -/
theorem takeWhile_without (steps : List Step) :
    (steps.filter (!Step.concerns ids ·)).takeWhile Step.isAccepted =
      (steps.takeWhile Step.isAccepted).filter (!Step.concerns ids ·) := by
  induction steps with
  | nil => rfl
  | cons step rest ih =>
    cases hconcerns : step.concerns ids with
    | true =>
      have haccepted := Step.isAccepted_of_concerns hconcerns
      rw [List.filter_cons_of_neg (by simp [hconcerns]), ih, List.takeWhile_cons_of_pos haccepted,
        List.filter_cons_of_neg (by simp [hconcerns])]
    | false =>
      rw [List.filter_cons_of_pos (by simp [hconcerns])]
      by_cases haccepted : step.isAccepted = true
      · rw [List.takeWhile_cons_of_pos haccepted, List.takeWhile_cons_of_pos haccepted, ih,
          List.filter_cons_of_pos (by simp [hconcerns])]
      · rw [List.takeWhile_cons_of_neg haccepted, List.takeWhile_cons_of_neg haccepted,
          List.filter_nil]

theorem movesOf_without (steps : List Step) :
    movesOf (steps.filter (!Step.concerns ids ·)) =
      (movesOf steps).filter (!Move.concerns ids ·) := by
  unfold movesOf
  rw [takeWhile_without, List.filter_append, List.filter_map]
  rfl

theorem flatMap_movesOf_without (batches : List (List Step)) :
    (without ids batches).flatMap movesOf =
      (batches.flatMap movesOf).filter (!Move.concerns ids ·) := by
  induction batches with
  | nil => rfl
  | cons steps batches ih =>
    rw [List.flatMap_cons, List.filter_append, ← movesOf_without, ← ih]
    rfl

theorem mem_startedIds {moves : List Move} {move : Move} {id : String} {request : Request}
    (hmem : move ∈ moves) (hstart : move.started? = some (id, request)) :
    id ∈ startedIds moves :=
  List.mem_filterMap.mpr ⟨move, hmem, by rw [hstart]; rfl⟩

end Lists

namespace Assembly

variable {source : Source} {gated : Call → Bool} {database : String}

theorem advance_again {assembly after : Assembly}
    (h : (assembly.advance source gated database).2 = .ok after) :
    (after.advance source gated database).2 = .ok after := by
  obtain ⟨rfl, _⟩ := advance_ok h
  rw [advance, poll_poll]
  exact h

end Assembly

namespace Run

variable {options : Options} {source : Source} {gated : Call → Bool} {run : Run}

/-- An export that still waits has nothing to gain from being taken up at once again. -/
theorem advance_again (hpending : (run.advance options source gated).2.status = .pending) :
    ((run.advance options source gated).2.advance options source gated).2 =
      (run.advance options source gated).2 := by
  obtain ⟨hlive, assembly, hok, hafter, hsettle⟩ := advance_of_waiting hpending
  have hagain := Assembly.advance_again hok
  rw [hafter]
  unfold advance
  rw [if_neg (by rw [hlive]; exact Bool.false_ne_true)]
  cases hresult : assembly.advance source gated run.request.database with
  | mk calls result =>
    rw [hresult] at hagain
    simp only at hagain
    subst result
    exact hsettle

end Run

namespace Session

variable {options : Options} {source : Source} {session other : Session} {ids : List String}
  {move : Move} {moves : List Move}

theorem advanceRuns_again (session : Session) :
    session.advanceRuns.advanceRuns = session.advanceRuns := by
  have hagain : ∀ run, session.advanceRun (session.advanceRun run) = session.advanceRun run := by
    intro run
    unfold advanceRun
    by_cases hwaits : run.isPending = true
    · rw [if_pos hwaits]
      split
      · rename_i hstill
        exact Run.advance_again (Run.isPending_iff _ |>.mp hstill)
      · rfl
    · rw [if_neg hwaits, if_neg hwaits]
  unfold advanceRuns
  rw [Session.mk.injEq]
  refine ⟨rfl, rfl, rfl, rfl, ?_, rfl⟩
  rw [List.map_map]
  exact List.map_congr_left fun run _ => hagain run

/-- After every top-level step the exports rest until something changes. -/
theorem advanceRuns_stepAll (options : Options) (source : Source) (batches : List (List Step)) :
    ((new options source).stepAll batches).advanceRuns = (new options source).stepAll batches := by
  rcases List.eq_nil_or_concat batches with rfl | ⟨earlier, steps, rfl⟩
  · rfl
  · rw [List.concat_eq_append, stepAll, List.foldl_append]
    exact advanceRuns_again _

theorem stepAll_filter (options : Options) (source : Source) (batches : List (List Step)) :
    (new options source).stepAll (batches.filter (!·.isEmpty)) =
      (new options source).stepAll batches := by
  induction batches using List.reverseRecOn with
  | nil => rfl
  | append_singleton earlier steps ih =>
    have hlast : (new options source).stepAll (earlier ++ [steps]) =
        (((new options source).stepAll earlier).step steps).1 := by
      rw [stepAll, List.foldl_append]
      rfl
    cases steps with
    | nil =>
      have hidle := advanceRuns_stepAll options source earlier
      rw [List.filter_append, hlast]
      simpa [ih, step, applyAll] using hidle.symm
    | cons first rest =>
      rw [List.filter_append, List.filter_singleton, hlast, ← ih, stepAll, List.foldl_append]
      rfl

/-- The newest export is the last one, and it is the one that a start cancels. -/
theorem NewestHolds.cancelCurrent_eq (h : session.NewestHolds) :
    session.cancelCurrent = session.runs.modifyLast Run.cancel := by
  unfold cancelCurrent
  cases hcurrent : session.current with
  | none =>
    have hnil : session.runs = [] := by
      by_contra hne
      have hpos : 0 < session.runs.length := List.length_pos_iff.mpr hne
      have hlast := (h.current_iff (session.runs.length - 1)).mpr (by omega)
      rw [hcurrent] at hlast
      cases hlast
    rw [hnil]
    rfl
  | some place =>
    have hplace : place + 1 = session.runs.length := (h.current_iff place).mp hcurrent
    rcases List.eq_nil_or_concat session.runs with hnil | ⟨earlier, newest, hruns⟩
    · simp [hnil] at hplace
    · rw [List.concat_eq_append] at hruns
      have hlast : place = earlier.length := by simpa [hruns] using hplace
      dsimp only
      rw [hruns, hlast, List.modifyLast_concat, List.modify_eq_take_cons_drop (by simp)]
      simp [Run.cancel]

theorem ids_cancelCurrent (session : Session) :
    session.cancelCurrent.map (·.id) = session.runs.map (·.id) := by
  unfold cancelCurrent
  split
  · rfl
  · refine List.ext_getElem? fun place => ?_
    rw [List.getElem?_map, List.getElem?_map, List.getElem?_modify]
    cases session.runs[place]? with
    | none => rfl
    | some run =>
      simp only [Option.map_eq_map, Option.map_some]
      split
      · rfl
      · rfl

theorem firstRun_id (session : Session) (id : String) (request : Request) :
    (session.firstRun id request).2.id = id := by
  unfold firstRun
  dsimp only
  split
  · rfl
  · exact Run.advance_id ..

theorem length_runs_play (session : Session) (moves : List Move) :
    (session.play moves).runs.length = session.runs.length + (startedIds moves).length := by
  induction moves generalizing session with
  | nil => rfl
  | cons move rest ih =>
    rw [play_cons, ih]
    cases hstart : move.started? with
    | none =>
      rw [length_move_of_not_started session hstart]
      simp [startedIds, hstart]
    | some started =>
      obtain ⟨id, request⟩ := started
      rw [move_of_started hstart, length_startRun]
      simp only [startedIds, List.filterMap_cons, hstart, Option.map_some, List.length_cons]
      omega

/-- What a move makes of a session, apart from its exports. -/
structure SameWorld (session other : Session) : Prop where
  options_eq : other.options = session.options
  source_eq : other.source = session.source
  gates_eq : other.gates = session.gates

theorem SameWorld.gated_eq (h : session.SameWorld other) : other.gated = session.gated := by
  funext call
  unfold gated
  rw [h.gates_eq]

theorem SameWorld.advanceRun_eq (h : session.SameWorld other) :
    other.advanceRun = session.advanceRun := by
  funext run
  unfold advanceRun
  rw [h.options_eq, h.source_eq, h.gated_eq]

theorem SameWorld.firstRun_eq (h : session.SameWorld other) (id : String) (request : Request) :
    other.firstRun id request = session.firstRun id request := by
  unfold firstRun
  rw [h.options_eq, h.source_eq, h.gated_eq]

theorem SameWorld.changed_eq (h : session.SameWorld other) (hstart : move.started? = none)
    (place : Nat) : other.changed move place = session.changed move place := by
  funext run
  cases move with
  | resume => exact congrFun h.advanceRun_eq run
  | apply step =>
    cases step with
    | start id database selection target => simp [changed, hstart]
    | drop id => rfl
    | gate call => rfl
    | release call => rfl
    | fail call chain => rfl
    | heal call => rfl
    | setColumns table records => rfl
    | setRelations records => rfl

theorem SameWorld.after_move (h : session.SameWorld other) (move : Move) :
    (session.move move).SameWorld (other.move move) := by
  obtain ⟨hoptions, hsource, hgates⟩ := h
  cases hstart : move.started? with
  | some started =>
    obtain ⟨id, request⟩ := started
    rw [move_of_started hstart, move_of_started hstart]
    exact ⟨hoptions, hsource, hgates⟩
  | none =>
    cases move with
    | resume => exact ⟨hoptions, hsource, hgates⟩
    | apply step =>
      cases step with
      | start id database selection target =>
        have htarget : Target.ofName? target = none := Option.map_eq_none_iff.mp hstart
        simp only [Session.move, apply, htarget]
        exact ⟨hoptions, hsource, hgates⟩
      | drop id => exact ⟨hoptions, hsource, hgates⟩
      | gate call => exact ⟨hoptions, hsource, congrArg (call :: ·) hgates⟩
      | release call => exact ⟨hoptions, hsource, congrArg (List.filter (· != call)) hgates⟩
      | fail call chain =>
        exact ⟨hoptions, congrArg (fun source : Source =>
          { source with failing := Source.put call chain source.failing }) hsource, hgates⟩
      | heal call =>
        exact ⟨hoptions, congrArg (fun source : Source =>
          { source with failing := source.failing.filter (·.1 != call) }) hsource, hgates⟩
      | setColumns table records =>
        exact ⟨hoptions, congrArg (fun source : Source =>
          { source with columns := Source.put table records source.columns }) hsource, hgates⟩
      | setRelations records =>
        exact ⟨hoptions, congrArg (fun source : Source =>
          { source with links := records }) hsource, hgates⟩

/-- Both sessions share everything but the exports that come first in one of them. -/
structure Agrees (ids : List String) (count : Nat) (session other : Session) : Prop where
  world : session.SameWorld other
  runs_eq : ∃ earlier, earlier.length = count ∧ session.runs = earlier ++ other.runs
  later_ids : ∀ id ∈ other.runs.map (·.id), id ∉ ids
  newest : session.NewestHolds
  other_newest : other.NewestHolds

theorem Agrees.move_of_not_started {count : Nat} (h : Agrees ids count session other)
    (hstart : move.started? = none) : Agrees ids count (session.move move) (other.move move) := by
  obtain ⟨earlier, hcount, hruns⟩ := h.runs_eq
  have hother : (other.move move).runs = other.runs.map (session.changed move 0) := by
    rw [runs_move_of_not_started other 0 hstart, h.world.changed_eq hstart]
  refine ⟨h.world.after_move move,
    ⟨earlier.map (session.changed move 0), by simpa using hcount, ?_⟩, ?_,
    h.newest.after_move move, h.other_newest.after_move move⟩
  · rw [runs_move_of_not_started session 0 hstart, hother, hruns, List.map_append]
  · have hids : (other.move move).runs.map (·.id) = other.runs.map (·.id) := by
      rw [hother, List.map_map]
      exact List.map_congr_left fun run _ => changed_id
    rw [hids]
    exact h.later_ids

theorem Agrees.move_of_started {count : Nat} {id : String} {request : Request}
    (h : Agrees ids count session other) (hstart : move.started? = some (id, request))
    (hid : id ∉ ids) : Agrees ids count (session.move move) (other.move move) := by
  have hworld := h.world.after_move move
  have hnewest := h.newest.after_move move
  have hotherNewest := h.other_newest.after_move move
  rw [Session.move_of_started hstart, Session.move_of_started hstart] at *
  obtain ⟨earlier, hcount, hruns⟩ := h.runs_eq
  refine ⟨hworld, ?_, ?_, hnewest, hotherNewest⟩
  · rw [runs_startRun, runs_startRun, h.world.firstRun_eq, h.newest.cancelCurrent_eq,
      h.other_newest.cancelCurrent_eq]
    by_cases hnone : other.runs = []
    -- the first of the later exports takes the place of an earlier one, which it cancels
    · refine ⟨session.cancelCurrent, ?_, ?_⟩
      · rw [length_cancelCurrent, hruns, hnone, List.append_nil, hcount]
      · rw [h.newest.cancelCurrent_eq, hnone]
        rfl
    · refine ⟨earlier, hcount, ?_⟩
      rw [hruns, List.modifyLast_append_of_right_ne_nil _ _ _ hnone, List.append_assoc]
  · intro other_id hmem
    rw [runs_startRun, List.map_append, ids_cancelCurrent] at hmem
    rcases List.mem_append.mp hmem with hmem | hmem
    · exact h.later_ids other_id hmem
    · rw [List.map_singleton, firstRun_id, List.mem_singleton] at hmem
      rw [hmem]
      exact hid

/-- A drop that concerns only earlier exports does nothing to the later ones. -/
theorem Agrees.drop {count : Nat} {id : String} (h : Agrees ids count session other)
    (hid : id ∈ ids) : Agrees ids count (session.move (.apply (.drop id))) other := by
  obtain ⟨earlier, hcount, hruns⟩ := h.runs_eq
  have hlater : other.runs.map (dropRun id) = other.runs := by
    have hsame : ∀ run ∈ other.runs, dropRun id run = run := by
      intro run hrun
      have hne : run.id ≠ id := by
        rintro rfl
        exact h.later_ids _ (List.mem_map_of_mem hrun) hid
      simp [dropRun, hne]
    rw [List.map_congr_left hsame, List.map_id']
  have hmoved : (session.move (.apply (.drop id))).runs = session.runs.map (dropRun id) := rfl
  refine ⟨⟨h.world.options_eq, h.world.source_eq, h.world.gates_eq⟩,
    ⟨earlier.map (dropRun id), by simpa using hcount, ?_⟩, h.later_ids,
    h.newest.after_move _, h.other_newest⟩
  rw [hmoved, hruns, List.map_append, hlater]

end Session

theorem Move.concerns_cases {ids : List String} {move : Move} (h : move.concerns ids = true) :
    (∃ id request, move.started? = some (id, request) ∧ id ∈ ids) ∨
      ∃ id, move = .apply (.drop id) ∧ id ∈ ids := by
  cases move with
  | resume => cases h
  | apply step =>
    cases step with
    | start id database selection target =>
      rw [concerns, Step.concerns, Bool.and_eq_true, List.contains_iff_mem] at h
      obtain ⟨kind, hkind⟩ := Option.isSome_iff_exists.mp h.1
      exact Or.inl ⟨id, ⟨database, selection, kind⟩, by simp [started?, hkind], h.2⟩
    | drop id =>
      rw [concerns, Step.concerns, List.contains_iff_mem] at h
      exact Or.inr ⟨id, rfl, h⟩
    | gate call => cases h
    | release call => cases h
    | fail call chain => cases h
    | heal call => cases h
    | setColumns table records => cases h
    | setRelations records => cases h

theorem Move.not_mem_of_not_concerns {ids : List String} {move : Move} {id : String}
    {request : Request} (h : move.concerns ids = false)
    (hstart : move.started? = some (id, request)) : id ∉ ids := by
  obtain ⟨target, rfl, htarget⟩ := Session.exists_start_of_started hstart
  simpa [concerns, Step.concerns, htarget] using h

namespace Session

variable {options : Options} {source : Source} {session other : Session} {ids : List String}
  {count : Nat}

theorem agrees_new (ids : List String) (options : Options) (source : Source) :
    Agrees ids 0 (new options source) (new options source) where
  world := ⟨rfl, rfl, rfl⟩
  runs_eq := ⟨[], rfl, rfl⟩
  later_ids _ h := nomatch h
  newest := newestHolds_new options source
  other_newest := newestHolds_new options source

theorem Agrees.runs_eq_nil (h : Agrees ids session.runs.length session other) :
    other.runs = [] := by
  obtain ⟨earlier, hcount, hruns⟩ := h.runs_eq
  have hlength := congrArg List.length hruns
  rw [List.length_append] at hlength
  exact List.length_eq_zero_iff.mp (by omega)

/-- As long as only the named exports are started, the other session has none at all. -/
theorem Agrees.move_before (h : Agrees ids session.runs.length session other) (move : Move)
    (hids : ∀ id request, move.started? = some (id, request) → id ∈ ids) :
    Agrees ids (session.move move).runs.length (session.move move)
      (other.play ([move].filter (!Move.concerns ids ·))) := by
  cases hconcerns : move.concerns ids with
  | true =>
    rw [List.filter_cons_of_neg (by simp [hconcerns]), List.filter_nil, play_nil]
    rcases Move.concerns_cases hconcerns with ⟨id, request, hstart, _⟩ | ⟨id, rfl, hid⟩
    · have hnewest := h.newest.after_move move
      rw [Session.move_of_started hstart] at hnewest ⊢
      refine ⟨⟨h.world.options_eq, h.world.source_eq, h.world.gates_eq⟩, ⟨_, rfl, ?_⟩,
        h.later_ids, hnewest, h.other_newest⟩
      rw [h.runs_eq_nil, List.append_nil]
    · have hlength : (session.move (.apply (.drop id))).runs.length = session.runs.length :=
        length_move_of_not_started session rfl
      rw [hlength]
      exact h.drop hid
  | false =>
    rw [List.filter_cons_of_pos (by simp [hconcerns]), List.filter_nil, play_cons, play_nil]
    cases hstart : move.started? with
    | none =>
      rw [length_move_of_not_started session hstart]
      exact h.move_of_not_started hstart
    | some started =>
      obtain ⟨id, request⟩ := started
      exact absurd (hids id request hstart) (Move.not_mem_of_not_concerns hconcerns hstart)

theorem agrees_play_before (options : Options) (source : Source) (moves : List Move)
    (hids : ∀ id ∈ startedIds moves, id ∈ ids) :
    Agrees ids ((new options source).play moves).runs.length ((new options source).play moves)
      ((new options source).play (moves.filter (!Move.concerns ids ·))) := by
  -- from the end, so that the exports of the session so far are all earlier ones
  induction moves using List.reverseRecOn with
  | nil => exact agrees_new ids options source
  | append_singleton moves move ih =>
    have hearlier := ih fun id hid => hids id (by
      rw [startedIds, List.filterMap_append]
      exact List.mem_append_left _ hid)
    rw [List.filter_append, play_append, play_append]
    exact hearlier.move_before move fun id request hstart =>
      hids id (mem_startedIds (List.mem_append_right _ List.mem_cons_self) hstart)

theorem Agrees.move_after (h : Agrees ids count session other) (move : Move)
    (hids : ∀ id request, move.started? = some (id, request) → id ∉ ids) :
    Agrees ids count (session.move move) (other.play ([move].filter (!Move.concerns ids ·))) := by
  cases hconcerns : move.concerns ids with
  | true =>
    rw [List.filter_cons_of_neg (by simp [hconcerns]), List.filter_nil, play_nil]
    rcases Move.concerns_cases hconcerns with ⟨id, request, hstart, hid⟩ | ⟨id, rfl, hid⟩
    · exact absurd hid (hids id request hstart)
    · exact h.drop hid
  | false =>
    rw [List.filter_cons_of_pos (by simp [hconcerns]), List.filter_nil, play_cons, play_nil]
    cases hstart : move.started? with
    | none => exact h.move_of_not_started hstart
    | some started =>
      obtain ⟨id, request⟩ := started
      exact h.move_of_started hstart (hids id request hstart)

theorem Agrees.play_after (h : Agrees ids count session other) (moves : List Move)
    (hids : ∀ id ∈ startedIds moves, id ∉ ids) :
    Agrees ids count (session.play moves)
      (other.play (moves.filter (!Move.concerns ids ·))) := by
  induction moves generalizing session other with
  | nil => exact h
  | cons move rest ih =>
    have hfirst := h.move_after move fun id request hstart =>
      hids id (mem_startedIds List.mem_cons_self hstart)
    have hrest : ∀ id ∈ startedIds rest, id ∉ ids := by
      intro id hid
      obtain ⟨later, hlater, hname⟩ := List.mem_filterMap.mp hid
      exact hids id (List.mem_filterMap.mpr ⟨later, List.mem_cons_of_mem _ hlater, hname⟩)
    rw [← List.singleton_append, List.filter_append, play_append, play_append]
    exact ih hfirst hrest

/-- Earlier exports leave no trace in later ones. Take any session whose exports have different
names, and any point in it. If the exports started before that point are neither started nor
dropped, and all else stays in place, the exports started after it are the same, with the same
statuses. A top-level step of which nothing is left may still be made, or left out. -/
theorem later_exports_same_without_earlier (options : Options) (source : Source)
    (batches kept : List (List Step)) (before after : List Move)
    (hpoint : batches.flatMap movesOf = before ++ after)
    (hids : (startedIds (batches.flatMap movesOf)).Nodup)
    (hkept : kept.filter (!·.isEmpty) =
      (without (startedIds before) batches).filter (!·.isEmpty)) :
    ((new options source).stepAll kept).runs =
      ((new options source).stepAll batches).runs.drop (startedIds before).length := by
  have hdisjoint : ∀ id ∈ startedIds after, id ∉ startedIds before := by
    rw [hpoint, startedIds, List.filterMap_append] at hids
    exact fun id hafter hbefore =>
      (List.nodup_append.mp hids).2.2 id hbefore id hafter rfl
  have hother : (new options source).stepAll kept =
      (new options source).play
        ((before ++ after).filter (!Move.concerns (startedIds before) ·)) := by
    rw [← stepAll_filter, hkept, stepAll_filter, stepAll_eq_play, flatMap_movesOf_without, hpoint]
  have hbefore := agrees_play_before options source before fun id hid => hid
  have hafter := hbefore.play_after after hdisjoint
  obtain ⟨earlier, hcount, hruns⟩ := hafter.runs_eq
  have hlength : earlier.length = (startedIds before).length := by
    rw [hcount, length_runs_play]
    simp [new]
  rw [hother, stepAll_eq_play, hpoint, List.filter_append, play_append, play_append, hruns,
    ← hlength, List.drop_left]

/-- The first export still waits for its relations when the second one takes its place. The
point lies between the two starts, in the middle of the second top-level step. -/
theorem export_begun_behind_a_waiting_one :
    let source : Source := ⟨[("orders", [])], [], []⟩
    let batches : List (List Step) :=
      [[.gate "relations", .start "early" "shop" ["orders"] "sql"],
        [.setColumns "orders" [⟨"id", "int", "NO", "PRI", none, ""⟩],
          .start "late" "shop" ["orders"] "sql"],
        [.drop "early"], [.release "relations"]]
    let before := (batches.flatMap movesOf).take 4
    let after := (batches.flatMap movesOf).drop 4
    let kept : List (List Step) :=
      [[.gate "relations"],
        [.setColumns "orders" [⟨"id", "int", "NO", "PRI", none, ""⟩],
          .start "late" "shop" ["orders"] "sql"],
        [.release "relations"]]
    (batches.flatMap movesOf = before ++ after ∧ (startedIds (batches.flatMap movesOf)).Nodup ∧
      kept.filter (!·.isEmpty) = (without (startedIds before) batches).filter (!·.isEmpty)) ∧
    startedIds before = ["early"] ∧
    ((new {} source).stepAll kept).runs =
      ((new {} source).stepAll batches).runs.drop (startedIds before).length ∧
    ((new {} source).stepAll kept).runs.map (·.status) =
      [.done (Target.sql.render {}
        [⟨"orders", [{ Column.ofType "id" "int" with key := .primary }], []⟩])] := by
  intro source batches before after kept
  have hpoint : batches.flatMap movesOf = before ++ after := (List.take_append_drop 4 _).symm
  have hids : (startedIds (batches.flatMap movesOf)).Nodup := by decide +kernel
  have hkept : kept.filter (!·.isEmpty) =
      (without (startedIds before) batches).filter (!·.isEmpty) := by with_unfolding_all rfl
  exact ⟨⟨hpoint, hids, hkept⟩, by decide +kernel,
    later_exports_same_without_earlier {} source batches kept before after hpoint hids hkept,
    by decide +kernel⟩

end Session

end Schemata.Export
