import Schemata.Proofs.Export.Calls

/-!
What an assembly without gates comes to. It has tables just when no fetch is refused, one for
each selected name in the order of the selection, each with its columns and with all links
that start at it. Otherwise it fails by the first refused fetch, the links coming before all
tables.
-/
namespace Schemata.Catalogue.Source

open Export

variable {source : Source} {table : String}

theorem refusal_columns_eq_none_iff :
    source.refusal? (.columns table) = none ↔
      source.failure? (.columns table) = none ∧ (source.columns.lookup table).isSome := by
  unfold refusal?
  cases source.failure? (.columns table) with
  | some chain => simp
  | none => simp

theorem refusal_relations (source : Source) :
    source.refusal? .relations = source.failure? .relations := by
  unfold refusal?
  cases source.failure? .relations with
  | some chain => rfl
  | none => rfl

theorem isSome_fetchLinks_iff :
    (Fetch.ofResult source.fetchLinks).answer?.isSome ↔ source.refusal? .relations = none := by
  cases hfetch : source.fetchLinks with
  | ok links => simp [Fetch.ofResult, (fetchLinks_ok hfetch).1]
  | error chain => simp [Fetch.ofResult, Fetch.answer?, fetchLinks_error hfetch]

theorem isSome_fetchColumns_iff :
    (Fetch.ofResult (source.fetchColumns table)).answer?.isSome ↔
      source.refusal? (.columns table) = none := by
  cases hfetch : source.fetchColumns table with
  | ok records => simp [Fetch.ofResult, (fetchColumns_ok hfetch).1]
  | error chain => simp [Fetch.ofResult, Fetch.answer?, fetchColumns_error hfetch]

end Schemata.Catalogue.Source

namespace Schemata.Export

open Catalogue

/-- The table of a name, with all of its columns and all links that start at it. -/
def TableOf (source : Source) (name : String) (table : Table) : Prop :=
  ∃ records, source.columns.lookup name = some records ∧
    table = ⟨name, records.map ColumnRecord.column,
      (source.links.filter (·.table == name)).map LinkRecord.relation⟩

namespace Assembly

variable {source : Source} {gated : Call → Bool} {database table : String}
  {selection : List String} {tables : List Table} {failure : Failure} {chain : List String}

theorem complete_full_iff :
    (full source selection).Complete ↔
      source.failure? .relations = none ∧ ∀ table ∈ selection,
        source.failure? (.columns table) = none ∧ (source.columns.lookup table).isSome := by
  have htables : (∀ entry ∈ (full source selection).columns, entry.2.answer?.isSome) ↔
      ∀ table ∈ selection, source.refusal? (.columns table) = none := by
    simp only [full, List.forall_mem_map, Source.isSome_fetchColumns_iff]
  rw [Complete, htables, full, Source.isSome_fetchLinks_iff, Source.refusal_relations]
  simp only [Source.refusal_columns_eq_none_iff]

theorem exists_ok_iff_complete :
    (∃ tables, (assemble source database selection).2 = .ok tables) ↔
      (full source selection).Complete := by
  rcases assemble_cases source database selection with ⟨failure, herror, hfails⟩ | ⟨hcomplete, hok⟩
  · simp [herror, not_complete_of_fetchFails hfails]
  · exact ⟨fun _ => hcomplete, fun _ => ⟨_, hok⟩⟩

theorem tableOf_of_entry {links : List LinkRecord} (hlinks : source.fetchLinks = .ok links)
    {name : String} {table : Table}
    (h : tableOfEntry (groupLinks links) (name, .ofResult (source.fetchColumns name)) =
      some table) :
    TableOf source name table := by
  obtain ⟨records, hrecords, rfl⟩ := Option.map_eq_some_iff.mp h
  have hfetch : source.fetchColumns name = .ok records :=
    Fetch.ofResult_eq_answered_iff.mp (Fetch.answer?_eq_some_iff.mp hrecords)
  refine ⟨records, (Source.fetchColumns_ok hfetch).2, ?_⟩
  rw [tableOf, relationsOf_groupLinks, (Source.fetchLinks_ok hlinks).2]

theorem forall₂_tableOf (h : (full source selection).tables? = some tables) :
    List.Forall₂ (TableOf source) selection tables := by
  obtain ⟨links, hanswer, hmapped⟩ := Option.bind_eq_some_iff.mp h
  have hlinks : source.fetchLinks = .ok links :=
    Fetch.ofResult_eq_answered_iff.mp (Fetch.answer?_eq_some_iff.mp hanswer)
  have hentries := List.forall₂_map_left_iff.mp (mapM_eq_some_iff.mp hmapped)
  exact hentries.imp fun _ _ => tableOf_of_entry hlinks

theorem forall₂_of_assemble_ok (h : (assemble source database selection).2 = .ok tables) :
    List.Forall₂ (TableOf source) selection tables := by
  rcases assemble_cases source database selection with ⟨failure, herror, _⟩ | ⟨hcomplete, hok⟩
  · rw [h] at herror
    cases herror
  · obtain ⟨full, hfull⟩ := Option.isSome_iff_exists.mp (isSome_tables_iff.mpr hcomplete)
    rw [h, hfull] at hok
    cases hok
    exact forall₂_tableOf hfull

theorem assemble_eq_join (source : Source) (database : String) (selection : List String) :
    (assemble source database selection).2 =
      ((full source selection).join database).2.map fun assembly => assembly.tables?.getD [] := by
  rw [assemble, advance, poll_start_open]

theorem assemble_error_of_links (h : source.refusal? .relations = some chain) :
    (assemble source database selection).2 = .error (.relations database chain) := by
  have hlinks : (full source selection).links = .refused chain :=
    Fetch.ofResult_eq_refused_iff.mpr (Source.fetchLinks_eq_error_iff.mpr h)
  rw [assemble_eq_join, join_of_links hlinks]
  rfl

theorem assemble_error_of_table {before after : List String}
    (hlinks : source.refusal? .relations = none)
    (hbefore : ∀ other ∈ before, source.refusal? (.columns other) = none)
    (h : source.refusal? (.columns table) = some chain) :
    (assemble source database (before ++ table :: after)).2 =
      .error (.columns database table chain) := by
  have hopen : ∀ reason, (full source (before ++ table :: after)).links ≠ .refused reason := by
    intro reason hrefused
    have hsome := Source.fetchLinks_error (Fetch.ofResult_eq_refused_iff.mp hrefused)
    rw [hlinks] at hsome
    cases hsome
  have hcolumns : (full source (before ++ table :: after)).columns =
      (full source before).columns ++ (table, .refused chain) :: (full source after).columns := by
    simp [full, Source.fetchColumns_eq_error_iff.mpr h, Fetch.ofResult]
  have hpass : ∀ entry ∈ (full source before).columns,
      entry.2.passes (full source (before ++ table :: after)).isQueued = true := by
    rw [full, List.forall_mem_map]
    exact fun other hother =>
      Fetch.passes_of_answer? (Source.isSome_fetchColumns_iff.mpr (hbefore other hother))
  rw [assemble_eq_join, join_of_table hopen hcolumns hpass]
  rfl

/-- An assembly without gates answers as its fetches do one after another. It has tables just
when the links are not refused and each selected table is there and not refused, and then one
for each selected name. Otherwise it fails by the links, or else by the first selected table
that is refused, with all messages of the cause. -/
theorem assemble_answers_in_order (source : Source) (database : String)
    (selection : List String) :
    let answer := (assemble source database selection).2
    ((∃ tables, answer = .ok tables) ↔ source.failure? .relations = none ∧
      ∀ table ∈ selection, source.failure? (.columns table) = none ∧
        (source.columns.lookup table).isSome) ∧
    (∀ tables, answer = .ok tables → List.Forall₂ (TableOf source) selection tables) ∧
    (∀ chain, source.refusal? .relations = some chain →
      answer = .error (.relations database chain) ∧
      (Failure.relations database chain).message =
        "failed to fetch relations for `" ++ database ++ "`: " ++ String.intercalate ": " chain) ∧
    (source.refusal? .relations = none → ∀ before table after chain,
      selection = before ++ table :: after →
      (∀ other ∈ before, source.refusal? (.columns other) = none) →
      source.refusal? (.columns table) = some chain →
      answer = .error (.columns database table chain) ∧
      (Failure.columns database table chain).message =
        "failed to fetch columns for `" ++ database ++ "`.`" ++ table ++ "`: " ++
          String.intercalate ": " chain) := by
  intro answer
  refine ⟨exists_ok_iff_complete.trans complete_full_iff, fun _ => forall₂_of_assemble_ok,
    fun chain h => ⟨assemble_error_of_links h, rfl⟩, ?_⟩
  rintro hlinks before table after chain rfl hbefore htable
  exact ⟨assemble_error_of_table hlinks hbefore htable, rfl⟩

/-- Links of one table of a selection that repeats it, and a table that is not there. -/
theorem repeated_selection_answers_in_order :
    let source : Source :=
      ⟨[("a", []), ("b", [])], [⟨"a", "x", "b", "id"⟩, ⟨"c", "y", "a", "id"⟩, ⟨"a", "z", "a", "id"⟩],
        [("columns:d", ["lost", "gone"])]⟩
    let a : Table := ⟨"a", [], [⟨"x", "b", "id"⟩, ⟨"z", "a", "id"⟩]⟩
    (assemble source "shop" ["a", "b", "a"]).2 = .ok [a, ⟨"b", [], []⟩, a] ∧
      List.Forall₂ (TableOf source) ["a", "b", "a"] [a, ⟨"b", [], []⟩, a] ∧
      source.refusal? (.columns "c") = some ["unknown table c"] ∧
      (assemble source "shop" ["a", "c", "d"]).2 =
        .error (.columns "shop" "c" ["unknown table c"]) := by
  intro source a
  have hok : (assemble source "shop" ["a", "b", "a"]).2 = .ok [a, ⟨"b", [], []⟩, a] := rfl
  have hmissing : source.refusal? (.columns "c") = some ["unknown table c"] := rfl
  obtain ⟨_, htables, _, _⟩ := assemble_answers_in_order source "shop" ["a", "b", "a"]
  obtain ⟨_, _, _, hfirst⟩ := assemble_answers_in_order source "shop" ["a", "c", "d"]
  exact ⟨hok, htables _ hok, hmissing,
    (hfirst rfl ["a"] "c" ["d"] _ rfl (by decide +kernel) hmissing).1⟩

end Assembly

end Schemata.Export
