import Mathlib.Data.List.Induction
import Schemata.Proofs.Catalogue.Links
import Schemata.Proofs.Export.Fetches
import Schemata.Proofs.Export.Newest
import Schemata.Proofs.Traversals

/-!
What an export sees of a catalogue that changes under it. An export is taken up when it
starts and whenever the waiting exports are, and each of its fetches is answered in the first
of these states in which its gate is open. So the columns of a table come from one version
of it and all relations from one version of the links, and an export fails only by the first
fetch in order that is let through and refused. Where many tables stand in a queue such a
failure may be an old one, kept until all columns before it were answered.
-/
namespace Schemata.Catalogue.Source

variable {source : Source} {table : String} {chain : List String}

/-- Why a call is refused: it was set to fail, or it asks for a table that is not there. -/
def refusal? (source : Source) (call : Call) : Option (List String) :=
  match source.failure? call, call with
  | some chain, _ => some chain
  | none, .relations => none
  | none, .columns table =>
    if (source.columns.lookup table).isSome then none else some ["unknown table " ++ table]

theorem fetchLinks_ok {links : List LinkRecord} (h : source.fetchLinks = .ok links) :
    source.refusal? .relations = none ∧ source.links = links := by
  unfold fetchLinks at h
  unfold refusal?
  cases hfailure : source.failure? .relations with
  | some chain => simp [hfailure] at h
  | none => simpa [hfailure] using h

theorem fetchLinks_error (h : source.fetchLinks = .error chain) :
    source.refusal? .relations = some chain := by
  unfold fetchLinks at h
  unfold refusal?
  cases hfailure : source.failure? .relations with
  | some chain => simpa [hfailure] using h
  | none => simp [hfailure] at h

theorem fetchColumns_ok {records : List ColumnRecord}
    (h : source.fetchColumns table = .ok records) :
    source.refusal? (.columns table) = none ∧ source.columns.lookup table = some records := by
  unfold fetchColumns at h
  unfold refusal?
  cases hfailure : source.failure? (.columns table) with
  | some chain => simp [hfailure] at h
  | none =>
    cases hrecords : source.columns.lookup table with
    | some records => simpa [hfailure, hrecords] using h
    | none => simp [hfailure, hrecords] at h

theorem fetchColumns_error (h : source.fetchColumns table = .error chain) :
    source.refusal? (.columns table) = some chain := by
  unfold fetchColumns at h
  unfold refusal?
  cases hfailure : source.failure? (.columns table) with
  | some chain => simpa [hfailure] using h
  | none =>
    cases hrecords : source.columns.lookup table with
    | some records => simp [hfailure, hrecords] at h
    | none => simpa [hfailure, hrecords] using h

theorem fetchLinks_eq_error_iff :
    source.fetchLinks = .error chain ↔ source.refusal? .relations = some chain := by
  refine ⟨fetchLinks_error, fun h => ?_⟩
  cases hfetch : source.fetchLinks with
  | error reason =>
    rw [fetchLinks_error hfetch, Option.some.injEq] at h
    rw [h]
  | ok links =>
    rw [(fetchLinks_ok hfetch).1] at h
    cases h

theorem fetchColumns_eq_error_iff :
    source.fetchColumns table = .error chain ↔ source.refusal? (.columns table) = some chain := by
  refine ⟨fetchColumns_error, fun h => ?_⟩
  cases hfetch : source.fetchColumns table with
  | error reason =>
    rw [fetchColumns_error hfetch, Option.some.injEq] at h
    rw [h]
  | ok records =>
    rw [(fetchColumns_ok hfetch).1] at h
    cases h

end Schemata.Catalogue.Source

namespace Schemata.Export

open Catalogue

/-- The failure of an export whose fetch was refused. -/
def Failure.ofCall (database : String) : Call → List String → Failure
  | .relations, chain => .relations database chain
  | .columns table, chain => .columns database table chain

def Failure.isOfFetch : Failure → Bool
  | .relations .. => true
  | .columns .. => true
  | _ => false

namespace Session

/-- The move takes up the export at a place: it starts it, or finds it waiting. -/
def takesUp (place : Nat) (session : Session) : Move → Bool
  | .resume => (session.runs[place]?).any Run.isPending
  | .apply step => (Move.apply step).started?.isSome && session.runs.length == place

/-- The states in which the moves take up the export at a place, from its start to its end. -/
def visits (place : Nat) (session : Session) : List Move → List Session
  | [] => []
  | move :: moves =>
    (if session.takesUp place move then [session] else []) ++ visits place (session.move move) moves

/-- The gate of the call is open, and the call is not refused. -/
def Answers (session : Session) (call : Call) : Prop :=
  session.gated call = false ∧ session.source.refusal? call = none

end Session

/-- The first state that finds the gate of the call open, in which its fetch is made. -/
def firstOpen? (seen : List Session) (call : Call) : Option Session :=
  seen.find? fun state => !state.gated call

def Completed (seen : List Session) (call : Call) : Prop :=
  ∃ state, firstOpen? seen call = some state ∧ state.source.refusal? call = none

/-- A table of the given name, with the columns of one version that was met and with relations
out of the links of another state. -/
def TableFrom (seen : List Session) (linked : Session) (name : String) (table : Table) : Prop :=
  ∃ read ∈ seen, read.Answers (.columns name) ∧ ∃ records,
    read.source.columns.lookup name = some records ∧
      table = ⟨name, records.map ColumnRecord.column,
        (linked.source.links.filter (·.table == name)).map LinkRecord.relation⟩

/-- The text is that of the selected tables in their order, with one version of the links. -/
def WrittenFrom (options : Options) (seen : List Session) (request : Request)
    (text : String) : Prop :=
  ∃ linked ∈ seen, linked.Answers .relations ∧ ∃ tables,
    List.Forall₂ (TableFrom seen linked) request.selection tables ∧
      text = request.target.render options tables

/-- The failure is that of a fetch of the request which was refused in the last state, and
had not been answered before; those before it in order were answered, or still wait. -/
def StoppedBy (seen : List Session) (request : Request) (failure : Failure) : Prop :=
  ∃ earlier last before call after chain,
    seen = earlier ++ [last] ∧ Assembly.calls request.selection = before ++ call :: after ∧
      failure = .ofCall request.database call chain ∧ last.gated call = false ∧
      last.source.refusal? call = some chain ∧ ¬Completed earlier call ∧
      ∀ other ∈ before, Completed seen other ∨ last.gated other = true

/-- The failure is that of a column fetch which was refused in an earlier state and has not
been made again. It was kept behind a fetch that still waited, until in the last state all
columns before it were answered. -/
def KeptBy (seen : List Session) (request : Request) (failure : Failure) : Prop :=
  ∃ earlier last before table after chain refusing,
    seen = earlier ++ [last] ∧ request.selection = before ++ table :: after ∧
      failure = .columns request.database table chain ∧
      firstOpen? earlier (.columns table) = some refusing ∧
      refusing.source.refusal? (.columns table) = some chain ∧
      ¬Completed seen (.columns table) ∧
      (∃ other ∈ before, firstOpen? earlier (.columns other) = none) ∧
      (∀ other ∈ before, Completed seen (.columns other)) ∧
      (Completed seen .relations ∨ last.gated .relations = true)

section FirstOpen

variable {seen : List Session} {state met : Session} {call : Call}

theorem mem_of_firstOpen? (h : firstOpen? seen call = some met) : met ∈ seen :=
  List.mem_of_find?_eq_some h

theorem gated_of_firstOpen? (h : firstOpen? seen call = some met) : met.gated call = false := by
  simpa using List.find?_some h

theorem firstOpen?_concat (seen : List Session) (state : Session) (call : Call) :
    firstOpen? (seen ++ [state]) call =
      (firstOpen? seen call).or (if state.gated call then none else some state) := by
  unfold firstOpen?
  rw [List.find?_append, List.find?_singleton]
  cases state.gated call with
  | true => rfl
  | false => rfl

theorem not_completed_of_firstOpen?_eq_none (h : firstOpen? seen call = none) :
    ¬Completed seen call := by
  rintro ⟨state, hopen, _⟩
  rw [h] at hopen
  cases hopen

theorem not_completed_of_refused {chain : List String} (hopen : firstOpen? seen call = some met)
    (hrefused : met.source.refusal? call = some chain) : ¬Completed seen call := by
  rintro ⟨state, hsame, hanswers⟩
  rw [hopen, Option.some.injEq] at hsame
  rw [hsame, hanswers] at hrefused
  cases hrefused

theorem gated_of_firstOpen?_concat_eq_none (h : firstOpen? (seen ++ [state]) call = none) :
    state.gated call = true := by
  rw [firstOpen?_concat, Option.or_eq_none_iff] at h
  by_contra hopen
  rw [if_neg hopen] at h
  cases h.2

end FirstOpen

namespace Fetch

variable {α : Type} {seen : List Session} {state : Session} {call : Call}
  {result : Source → Except (List String) α} {answer : α} {chain : List String}

/-- What a fetch has come to in the given states, which is decided by the first of them that
lets it through. -/
def after (seen : List Session) (call : Call) (result : Source → Except (List String) α) :
    Fetch α :=
  match firstOpen? seen call with
  | some state => ofResult (result state.source)
  | none => waiting

theorem poll_after (seen : List Session) (state : Session) (call : Call)
    (result : Source → Except (List String) α) :
    (after seen call result).poll (state.gated call) (result state.source) =
      after (seen ++ [state]) call result := by
  unfold after
  rw [firstOpen?_concat]
  cases firstOpen? seen call with
  | some met => exact poll_ofResult (result met.source)
  | none =>
    cases state.gated call with
    | true => rfl
    | false => rfl

theorem after_eq_answered (h : after seen call result = answered answer) :
    ∃ met, firstOpen? seen call = some met ∧ result met.source = .ok answer := by
  unfold after at h
  split at h
  · rename_i met hmet
    exact ⟨met, hmet, ofResult_eq_answered_iff.mp h⟩
  · cases h

theorem after_eq_refused (h : after seen call result = refused chain) :
    ∃ met, firstOpen? seen call = some met ∧ result met.source = .error chain := by
  unfold after at h
  split at h
  · rename_i met hmet
    exact ⟨met, hmet, ofResult_eq_refused_iff.mp h⟩
  · cases h

theorem after_eq_waiting (h : after seen call result = waiting) : firstOpen? seen call = none := by
  unfold after at h
  split at h
  · exact absurd h ofResult_ne_waiting
  · assumption

/-- A refusal is new, or was kept from an earlier state. -/
theorem after_concat_eq_refused (h : after (seen ++ [state]) call result = refused chain) :
    after seen call result = refused chain ∨
      firstOpen? seen call = none ∧ state.gated call = false ∧
        result state.source = .error chain := by
  cases hopen : firstOpen? seen call with
  | some met =>
    have hsame : after (seen ++ [state]) call result = after seen call result := by
      simp only [after, firstOpen?_concat, hopen, Option.some_or]
    exact Or.inl (hsame ▸ h)
  | none =>
    obtain ⟨met, hmet, hrefused⟩ := after_eq_refused h
    rw [firstOpen?_concat, hopen, Option.none_or] at hmet
    cases hgate : state.gated call with
    | true => simp [hgate] at hmet
    | false =>
      simp only [hgate, Bool.false_eq_true, if_false, Option.some.injEq] at hmet
      exact Or.inr ⟨rfl, rfl, hmet ▸ hrefused⟩

theorem completed_of_answered
    (hresult : ∀ source answer, result source = .ok answer → source.refusal? call = none)
    (h : after seen call result = answered answer) : Completed seen call := by
  obtain ⟨met, hmet, hok⟩ := after_eq_answered h
  exact ⟨met, hmet, hresult _ _ hok⟩

/-- A fetch that is not refused has been answered, or its gate is closed to the last. -/
theorem completed_or_gated
    (hresult : ∀ source answer, result source = .ok answer → source.refusal? call = none)
    (h : ∀ chain, after (seen ++ [state]) call result ≠ refused chain) :
    Completed (seen ++ [state]) call ∨ state.gated call = true := by
  cases hafter : after (seen ++ [state]) call result with
  | waiting => exact Or.inr (gated_of_firstOpen?_concat_eq_none (after_eq_waiting hafter))
  | answered answer => exact Or.inl (completed_of_answered hresult hafter)
  | refused chain => exact absurd hafter (h chain)

end Fetch

namespace Assembly

variable {seen : List Session} {state : Session} {selection : List String}
  {assembly : Assembly} {database : String} {failure : Failure}

def tableAfter (seen : List Session) (table : String) : String × Fetch (List ColumnRecord) :=
  (table, .after seen (.columns table) (·.fetchColumns table))

/-- What an assembly of the given tables holds when it was taken up in the given states. -/
def after (seen : List Session) (selection : List String) : Assembly :=
  ⟨.after seen .relations Source.fetchLinks, selection.map (tableAfter seen)⟩

theorem poll_after (seen : List Session) (state : Session) (selection : List String) :
    (after seen selection).poll state.source state.gated = after (seen ++ [state]) selection := by
  simp only [after, poll, Fetch.poll_after, List.map_map, Assembly.mk.injEq, true_and]
  refine List.map_congr_left fun table _ => congrArg (Prod.mk table) ?_
  exact Fetch.poll_after seen state (.columns table) (·.fetchColumns table)

theorem names_after (seen : List Session) (selection : List String) :
    (after seen selection).names = selection := by
  rw [names, after, List.map_map]
  exact List.map_id selection

/-- Where a refused table stands in an assembly it stands in the selection. -/
theorem selection_eq_of_columns_after {before rest : List (String × Fetch (List ColumnRecord))}
    {entry : String × Fetch (List ColumnRecord)}
    (h : (after seen selection).columns = before ++ entry :: rest) :
    ∃ earlier table later, selection = earlier ++ table :: later ∧
      before = earlier.map (tableAfter seen) ∧ entry = tableAfter seen table := by
  obtain ⟨earlier, others, rfl, rfl, hothers⟩ := List.map_eq_append_iff.mp h
  obtain ⟨table, later, rfl, rfl, rfl⟩ := List.map_eq_cons_iff.mp hothers
  exact ⟨earlier, table, later, rfl, rfl, rfl⟩

/-- What an assembly that goes on was taken up in. -/
structure Follows (seen : List Session) (selection : List String) (assembly : Assembly) :
    Prop where
  eq_after : assembly = .after seen selection
  links : ∀ chain, assembly.links ≠ .refused chain
  held : assembly.HeldBack

theorem follows_start (selection : List String) : (start selection).Follows [] selection where
  eq_after := rfl
  links _ := nofun
  held := heldBack_start selection

theorem Follows.names (h : assembly.Follows seen selection) : assembly.names = selection := by
  rw [h.eq_after, names_after]

theorem Follows.advance {after : Assembly} (h : assembly.Follows seen selection)
    (hok : (assembly.advance state.source state.gated database).2 = .ok after) :
    after.Follows (seen ++ [state]) selection := by
  obtain ⟨hafter, hlinks, hheld⟩ := advance_ok hok
  refine ⟨?_, hlinks, hheld⟩
  rw [hafter, h.eq_after, poll_after]

theorem Follows.stoppedBy_links {request : Request} {chain : List String}
    (h : assembly.Follows seen request.selection)
    (hlinks : (after (seen ++ [state]) request.selection).links = .refused chain) :
    StoppedBy (seen ++ [state]) request (.relations request.database chain) := by
  rcases Fetch.after_concat_eq_refused hlinks with hkept | ⟨hwaits, hgate, hfetch⟩
  · exact absurd (h.eq_after ▸ hkept) (h.links chain)
  · exact ⟨seen, state, [], .relations, _, chain, rfl, rfl, rfl, hgate,
      Source.fetchLinks_error hfetch, not_completed_of_firstOpen?_eq_none hwaits,
      fun _ hother => nomatch hother⟩

/-- A refusal that is new stops the export at once. -/
theorem stoppedBy_of_new {request : Request} {before rest : List String} {table : String}
    {chain : List String} (hselection : request.selection = before ++ table :: rest)
    (hwaits : firstOpen? seen (.columns table) = none)
    (hgate : state.gated (.columns table) = false)
    (hfetch : state.source.fetchColumns table = .error chain)
    (hlinks : Completed (seen ++ [state]) .relations ∨ state.gated .relations = true)
    (hbefore : ∀ other ∈ before, Completed (seen ++ [state]) (.columns other) ∨
      state.gated (.columns other) = true) :
    StoppedBy (seen ++ [state]) request (.columns request.database table chain) := by
  have hcalls : calls request.selection =
      (.relations :: before.map .columns) ++ .columns table :: rest.map .columns := by
    rw [hselection, calls, List.map_append]
    rfl
  refine ⟨seen, state, _, .columns table, _, chain, rfl, hcalls, rfl, hgate,
    Source.fetchColumns_error hfetch, not_completed_of_firstOpen?_eq_none hwaits, ?_⟩
  rw [List.forall_mem_cons, List.forall_mem_map]
  exact ⟨hlinks, hbefore⟩

/-- A refusal that is kept stands behind a fetch that still waits. -/
theorem Follows.exists_waiting {before rest : List String} {table : String} {chain : List String}
    (h : assembly.Follows seen selection) (hselection : selection = before ++ table :: rest)
    (hkept : Fetch.after seen (.columns table) (·.fetchColumns table) = .refused chain) :
    30 < selection.length ∧ ∃ other ∈ before, firstOpen? seen (.columns other) = none := by
  have hcolumns : assembly.columns =
      before.map (tableAfter seen) ++ (table, .refused chain) :: rest.map (tableAfter seen) := by
    rw [h.eq_after, after, hselection, List.map_append, List.map_cons, ← hkept]
    rfl
  obtain ⟨hmany, entry, hentry, hwaits⟩ := h.held _ _ _ _ hcolumns
  obtain ⟨other, hother, rfl⟩ := List.mem_map.mp hentry
  have hafter : Fetch.after seen (.columns other) (·.fetchColumns other) = .waiting := hwaits
  rw [h.names] at hmany
  exact ⟨hmany, other, hother, Fetch.after_eq_waiting hafter⟩

theorem Follows.keptBy {request : Request} {before rest : List String} {table : String}
    {chain : List String} (h : assembly.Follows seen request.selection)
    (hselection : request.selection = before ++ table :: rest)
    (hkept : Fetch.after seen (.columns table) (·.fetchColumns table) = .refused chain)
    (hlinks : Completed (seen ++ [state]) .relations ∨ state.gated .relations = true)
    (hpass : ∀ other ∈ before,
      (tableAfter (seen ++ [state]) other).2.passes (30 < request.selection.length) = true) :
    30 < request.selection.length ∧
      KeptBy (seen ++ [state]) request (.columns request.database table chain) := by
  obtain ⟨refusing, hopen, hfetch⟩ := Fetch.after_eq_refused hkept
  have hrefused := Source.fetchColumns_error hfetch
  obtain ⟨hmany, hwaiting⟩ := h.exists_waiting hselection hkept
  have hstill : firstOpen? (seen ++ [state]) (.columns table) = some refusing := by
    rw [firstOpen?_concat, hopen, Option.some_or]
  have hcompleted : ∀ other ∈ before, Completed (seen ++ [state]) (.columns other) := by
    intro other hother
    have hpassed := hpass other hother
    rw [decide_eq_true hmany] at hpassed
    obtain ⟨records, hanswered⟩ := Fetch.exists_answered_of_passes hpassed
    exact Fetch.completed_of_answered (fun _ _ hok => (Source.fetchColumns_ok hok).1) hanswered
  exact ⟨hmany, seen, state, before, table, rest, chain, refusing, rfl, hselection, rfl, hopen,
    hrefused, not_completed_of_refused hstill hrefused, hwaiting, hcompleted, hlinks⟩

/-- An export that ends by a failure has met a refusal, new or kept. -/
theorem Follows.stopped {request : Request} (h : assembly.Follows seen request.selection)
    (herror : (assembly.advance state.source state.gated request.database).2 = .error failure) :
    StoppedBy (seen ++ [state]) request failure ∨
      30 < request.selection.length ∧ KeptBy (seen ++ [state]) request failure := by
  have hpolled : assembly.poll state.source state.gated =
      after (seen ++ [state]) request.selection := by rw [h.eq_after, poll_after]
  have hmany : (after (seen ++ [state]) request.selection).isQueued =
      decide (30 < request.selection.length) := by
    rw [isQueued, ← length_names, names_after]
  rcases advance_error herror with ⟨chain, hlinks, rfl⟩ |
    ⟨hlinks, entries, table, chain, rest, hcolumns, hpass, rfl⟩
  · rw [hpolled] at hlinks
    exact Or.inl (h.stoppedBy_links hlinks)
  · rw [hpolled] at hlinks hcolumns hpass
    rw [hmany] at hpass
    obtain ⟨before, name, later, hselection, rfl, hentry⟩ := selection_eq_of_columns_after hcolumns
    obtain ⟨rfl, hrefused⟩ := Prod.ext_iff.mp hentry
    have hafter : Fetch.after (seen ++ [state]) (.columns table) (·.fetchColumns table) =
      .refused chain := hrefused.symm
    rw [List.forall_mem_map] at hpass
    have hfirst : Completed (seen ++ [state]) .relations ∨ state.gated .relations = true :=
      Fetch.completed_or_gated (fun _ _ hok => (Source.fetchLinks_ok hok).1) hlinks
    rcases Fetch.after_concat_eq_refused hafter with hkept | ⟨hwaits, hgate, hfetch⟩
    · exact Or.inr (h.keptBy hselection hkept hfirst hpass)
    · refine Or.inl (stoppedBy_of_new hselection hwaits hgate hfetch hfirst fun other hother => ?_)
      exact Fetch.completed_or_gated (fun _ _ hok => (Source.fetchColumns_ok hok).1)
        fun reason => Fetch.ne_refused_of_passes (hpass other hother)

theorem tableFrom_of_entry {links : List LinkRecord} {linked : Session} {name : String}
    {table : Table} (hlinks : linked.source.links = links)
    (htable : tableOfEntry (groupLinks links) (tableAfter seen name) = some table) :
    TableFrom seen linked name table := by
  obtain ⟨records, hrecords, rfl⟩ := Option.map_eq_some_iff.mp htable
  have hafter : Fetch.after seen (.columns name) (·.fetchColumns name) = .answered records :=
    Fetch.answer?_eq_some_iff.mp hrecords
  obtain ⟨read, hopen, hfetch⟩ := Fetch.after_eq_answered hafter
  obtain ⟨hanswers, hlookup⟩ := Source.fetchColumns_ok hfetch
  refine ⟨read, mem_of_firstOpen? hopen, ⟨gated_of_firstOpen? hopen, hanswers⟩, records,
    hlookup, ?_⟩
  rw [tableOf, relationsOf_groupLinks, hlinks]
  rfl

/-- The tables of an assembly come from the states in which it was taken up. -/
theorem Follows.writtenFrom {request : Request} {tables : List Table}
    (h : assembly.Follows seen request.selection) (htables : assembly.tables? = some tables)
    (options : Options) :
    WrittenFrom options seen request (request.target.render options tables) := by
  rw [h.eq_after] at htables
  obtain ⟨links, hanswer, hmapped⟩ := Option.bind_eq_some_iff.mp htables
  obtain ⟨linked, hopen, hfetch⟩ := Fetch.after_eq_answered (Fetch.answer?_eq_some_iff.mp hanswer)
  obtain ⟨hanswers, hlinks⟩ := Source.fetchLinks_ok hfetch
  have hentries : List.Forall₂ (fun name table =>
      tableOfEntry (groupLinks links) (tableAfter seen name) = some table)
      request.selection tables :=
    List.forall₂_map_left_iff.mp (mapM_eq_some_iff.mp hmapped)
  exact ⟨linked, mem_of_firstOpen? hopen, ⟨gated_of_firstOpen? hopen, hanswers⟩, tables,
    hentries.imp fun _ _ => tableFrom_of_entry hlinks, rfl⟩

end Assembly

/-- What can be said of an export from the states in which it was taken up. -/
def Accounted (options : Options) (seen : List Session) (request : Request) :
    Status → Assembly → Prop
  | .pending, assembly => assembly.Follows seen request.selection
  | .done text, _ => WrittenFrom options seen request text
  | .failed failure, _ => failure.isOfFetch = true → StoppedBy seen request failure ∨
      30 < request.selection.length ∧ KeptBy seen request failure
  | .dropped, _ => True

namespace Run

variable {options : Options} {seen : List Session} {state : Session} {run : Run}

def IsAccounted (options : Options) (seen : List Session) (run : Run) : Prop :=
  Accounted options seen run.request run.status run.assembly

theorem isAccounted_superseded (run : Run) :
    (run.fail .superseded).IsAccounted options seen :=
  fun h => nomatch h

/-- An export that has all its answers is written from them, and waits otherwise. -/
theorem isAccounted_settle (hpending : run.status = .pending)
    (hfollows : run.assembly.Follows seen run.request.selection) :
    (run.settle options).IsAccounted options seen := by
  unfold settle
  split
  · rename_i tables htables
    dsimp only
    split
    · exact isAccounted_superseded run
    · exact hfollows.writtenFrom htables options
  · unfold IsAccounted
    rw [hpending]
    exact hfollows

theorem IsAccounted.advance (h : run.IsAccounted options seen) (hpending : run.status = .pending) :
    (run.advance options state.source state.gated).2.IsAccounted options (seen ++ [state]) := by
  have hfollows : run.assembly.Follows seen run.request.selection := by
    unfold IsAccounted at h
    rw [hpending] at h
    exact h
  unfold Run.advance
  split
  · exact isAccounted_superseded run
  · split
    · rename_i calls failure hresult
      exact fun _ => hfollows.stopped (by rw [hresult])
    · rename_i calls assembly hresult
      have hafter : assembly.Follows (seen ++ [state]) run.request.selection :=
        hfollows.advance (by rw [hresult])
      exact isAccounted_settle hpending hafter

end Run

namespace Session

variable {session : Session} {options : Options} {source : Source} {moves : List Move}
  {move : Move} {place : Nat} {run : Run}

theorem visits_append (session : Session) (moves more : List Move) :
    visits place session (moves ++ more) =
      visits place session moves ++ visits place (session.play moves) more := by
  induction moves generalizing session with
  | nil => rfl
  | cons move moves ih =>
    rw [List.cons_append, visits, visits, ih, List.append_assoc]
    rfl

theorem visits_concat (session : Session) (moves : List Move) (move : Move) :
    visits place session (moves ++ [move]) =
      visits place session moves ++
        if (session.play moves).takesUp place move then [session.play moves] else [] := by
  rw [visits_append, visits, visits, List.append_nil]

theorem length_le_length_move (session : Session) (move : Move) :
    session.runs.length ≤ (session.move move).runs.length := by
  cases hstart : move.started? with
  | none => exact Nat.le_of_eq (length_move_of_not_started session hstart).symm
  | some started =>
    obtain ⟨id, request⟩ := started
    rw [move_of_started hstart, length_startRun]
    omega

/-- Nothing is seen of a place at which no export has started. -/
theorem visits_eq_nil (session : Session) (moves : List Move)
    (h : (session.play moves).runs.length ≤ place) :
    visits place session moves = [] := by
  induction moves using List.reverseRecOn with
  | nil => rfl
  | append_singleton moves move ih =>
    rw [play_append] at h
    have hgrows := length_le_length_move (session.play moves) move
    have hbefore : (session.play moves).runs.length ≤ place := Nat.le_trans hgrows h
    have hidle : (session.play moves).takesUp place move = false := by
      cases move with
      | resume => simp [takesUp, List.getElem?_eq_none hbefore]
      | apply step =>
        cases hstart : (Move.apply step).started? with
        | none => simp [takesUp, hstart]
        | some started =>
          obtain ⟨id, request⟩ := started
          have hlength : (session.play moves).runs.length + 1 ≤ place := by
            rw [← length_startRun _ id request, ← move_of_started hstart]
            exact h
          have hne : (session.play moves).runs.length ≠ place := by omega
          simp [takesUp, hne]
    rw [visits_concat, ih hbefore, hidle]
    rfl

theorem isAccounted_firstRun (session : Session) (id : String) (request : Request) :
    (session.firstRun id request).2.IsAccounted session.options [session] := by
  unfold firstRun
  dsimp only
  split
  · exact fun h => nomatch h
  · have hfresh : Run.IsAccounted session.options []
        ⟨id, request, false, .start request.selection, .pending⟩ :=
      Assembly.follows_start request.selection
    exact hfresh.advance rfl

theorem isAccounted_changed (move : Move) (hrun : session.runs[place]? = some run)
    {seen : List Session} (h : run.IsAccounted session.options seen) :
    (session.changed move place run).IsAccounted session.options
      (seen ++ if session.takesUp place move then [session] else []) := by
  have hlt : place < session.runs.length := (List.getElem?_eq_some_iff.mp hrun).1
  cases move with
  | resume =>
    cases hwaits : run.isPending with
    | true =>
      have hseen : session.takesUp place .resume = true := by simp [takesUp, hrun, hwaits]
      have hchanged : session.changed .resume place run =
          (run.advance session.options session.source session.gated).2 := by
        simp [changed, advanceRun, hwaits]
      rw [hseen, hchanged]
      exact h.advance (run.isPending_iff.mp hwaits)
    | false =>
      have hseen : session.takesUp place .resume = false := by simp [takesUp, hrun, hwaits]
      have hchanged : session.changed .resume place run = run := by
        simp [changed, advanceRun, hwaits]
      rw [hseen, hchanged]
      simpa using h
  | apply step =>
    have hne : session.runs.length ≠ place := by omega
    have hseen : session.takesUp place (.apply step) = false := by simp [takesUp, hne]
    rw [hseen, if_neg Bool.false_ne_true, List.append_nil]
    rcases changed_cases session (.apply step) place run with
      heq | ⟨_, heq⟩ | ⟨id, _, heq⟩ | ⟨hresume, _⟩
    · rw [heq]
      exact h
    · rw [heq]
      exact h
    · rw [heq, dropRun]
      split
      · exact trivial
      · exact h
    · cases hresume

theorem isAccounted_play (options : Options) (source : Source) (moves : List Move)
    (hrun : ((new options source).play moves).runs[place]? = some run) :
    run.IsAccounted options (visits place (new options source) moves) := by
  induction moves using List.reverseRecOn generalizing run with
  | nil => simp [new] at hrun
  | append_singleton moves move ih =>
    have hoptions : ((new options source).play moves).options = options :=
      options_play (new options source) moves
    rw [play_append] at hrun
    rw [visits_concat]
    rcases exists_run_before_move hrun with ⟨old, hold, rfl⟩ | ⟨id, request, hstart, rfl, rfl⟩
    · have hchanged := isAccounted_changed move hold (by rw [hoptions]; exact ih hold)
      rw [hoptions] at hchanged
      exact hchanged
    -- the export starts with this move, and no earlier state was seen by it
    · have hnone := visits_eq_nil (new options source) moves (Nat.le_refl _)
      have hseen : ((new options source).play moves).takesUp
          ((new options source).play moves).runs.length move = true := by
        obtain ⟨target, rfl, _⟩ := exists_start_of_started hstart
        simp [takesUp, hstart]
      have hfirst := isAccounted_firstRun ((new options source).play moves) id request
      rw [hnone, hseen]
      rw [hoptions] at hfirst
      exact hfirst

/-- No answer is torn, whatever happens to the catalogue on the way. A text is written from
one version of the columns of each selected table and one version of the links, each met by
the export between its start and its end. A failure is that of the first fetch in order which
was let through in the last of these states and refused there. Only where more than thirty
tables stand in a queue it may also be a failure of an earlier state, kept until all columns
before it were answered. -/
theorem answer_from_single_versions (options : Options) (source : Source) (moves : List Move)
    (place : Nat) (run : Run)
    (hrun : ((new options source).play moves).runs[place]? = some run) :
    let seen := visits place (new options source) moves
    (∀ text, run.status = .done text → WrittenFrom options seen run.request text) ∧
    (∀ failure, run.status = .failed failure → failure.isOfFetch = true →
      StoppedBy seen run.request failure ∨
        30 < run.request.selection.length ∧ KeptBy seen run.request failure) := by
  intro seen
  have haccounted : run.IsAccounted options seen := isAccounted_play options source moves hrun
  unfold Run.IsAccounted at haccounted
  constructor
  · intro text hdone
    rw [hdone] at haccounted
    exact haccounted
  · intro failure hfailed hfetch
    rw [hfailed] at haccounted
    exact haccounted hfetch

def threeTables : Source := ⟨[("orders", []), ("users", []), ("items", [])], [], []⟩

/-- Thirty-one tables are asked for. The second one is refused while the first one waits, and
no longer when the first one is let through. -/
def healedBehindAWaitingTable : List Move :=
  [.apply (.gate "columns:orders"), .resume, .apply (.fail "columns:users" ["lost"]), .resume,
    .apply (.start "x" "shop" ("orders" :: "users" :: List.replicate 29 "items") "sql"), .resume,
    .apply (.heal "columns:users"), .resume, .apply (.release "columns:orders"), .resume]

theorem status_of_healed :
    ((new {} threeTables).play healedBehindAWaitingTable).runs[0]?.map (·.status) =
      some (.failed (.columns "shop" "users" ["lost"])) := by
  decide +kernel

theorem not_stoppedBy_of_healed {request : Request} {chain : List String} :
    ¬StoppedBy (visits 0 (new {} threeTables) healedBehindAWaitingTable) request
      (.columns "shop" "users" chain) := by
  rintro ⟨earlier, last, before, call, after, reason, hseen, _, hcall, _, hrefused, _⟩
  have hhealed : (visits 0 (new {} threeTables) healedBehindAWaitingTable).getLast?.map
      (·.source.refusal? (.columns "users")) = some none := by decide +kernel
  have husers : call = .columns "users" := by
    cases call with
    | relations => simp [Failure.ofCall] at hcall
    | columns table =>
      simp only [Failure.ofCall, Failure.columns.injEq] at hcall
      rw [hcall.2.1]
  rw [hseen, List.getLast?_concat, Option.map_some, ← husers, hrefused] at hhealed
  cases hhealed

/-- One table gets a column after it was fetched, while the export waits for another one. In a
long export a table is no longer refused by the time that its failure is met. -/
theorem tables_changed_behind_waiting_exports :
    let source : Source := ⟨[("a", []), ("b", [])], [], []⟩
    let moves : List Move :=
      [.apply (.gate "columns:b"), .apply (.start "x" "shop" ["a", "b"] "sql"), .resume,
        .apply (.setColumns "a" [⟨"id", "int", "NO", "PRI", none, ""⟩]),
        .apply (.release "columns:b"), .resume]
    let text := Target.sql.render {} [⟨"a", [], []⟩, ⟨"b", [], []⟩]
    let failure : Failure := .columns "shop" "users" ["lost"]
    (∃ run : Run, ((new {} source).play moves).runs[0]? = some run ∧ run.status = .done text ∧
      WrittenFrom {} (visits 0 (new {} source) moves) run.request text) ∧
    ∃ run : Run, ((new {} threeTables).play healedBehindAWaitingTable).runs[0]? = some run ∧
      run.status = .failed failure ∧
      KeptBy (visits 0 (new {} threeTables) healedBehindAWaitingTable) run.request failure := by
  intro source moves text failure
  have hdone : ((new {} source).play moves).runs[0]?.map (·.status) = some (.done text) := by
    decide +kernel
  obtain ⟨run, hrun, hstatus⟩ := Option.map_eq_some_iff.mp hdone
  obtain ⟨other, hother, hend⟩ := Option.map_eq_some_iff.mp status_of_healed
  obtain ⟨hwritten, _⟩ := answer_from_single_versions {} source moves 0 run hrun
  obtain ⟨_, hstopped⟩ :=
    answer_from_single_versions {} threeTables healedBehindAWaitingTable 0 other hother
  refine ⟨⟨run, hrun, hstatus, hwritten text hstatus⟩, other, hother, hend, ?_⟩
  rcases hstopped failure hend rfl with hnow | ⟨_, hkept⟩
  · exact absurd hnow not_stoppedBy_of_healed
  · exact hkept

/-- The failure that ends a long export may be one that is no longer there. -/
theorem healed_table_stops_a_long_export :
    let failure : Failure := .columns "shop" "users" ["lost"]
    ∃ run : Run, ((new {} threeTables).play healedBehindAWaitingTable).runs[0]? = some run ∧
      run.status = .failed failure ∧ failure.isOfFetch = true ∧
      ¬StoppedBy (visits 0 (new {} threeTables) healedBehindAWaitingTable) run.request failure := by
  intro failure
  obtain ⟨run, hrun, hstatus⟩ := Option.map_eq_some_iff.mp status_of_healed
  exact ⟨run, hrun, hstatus, rfl, not_stoppedBy_of_healed⟩

end Session

end Schemata.Export
