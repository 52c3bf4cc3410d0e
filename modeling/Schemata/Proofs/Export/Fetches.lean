import Mathlib.Data.List.TakeWhile
import Schemata.Export.Assembly

/-!
What an assembly holds, fetch by fetch. A join of fetches ends by the first refusal that is
met, or goes on with all refusals held back. While the catalogue stays the same, an assembly
that is taken up any number of times holds only what the catalogue answers, ends only by a
fetch that fails, and once all fetches have answered gives the tables of an assembly without
gates.
-/
namespace Schemata.Export

open Catalogue

/-- The failure is that of a fetch of the given tables which the catalogue refuses. -/
def FetchFails (source : Source) (database : String) (selection : List String) : Failure → Prop
  | .relations name chain => name = database ∧ source.fetchLinks = .error chain
  | .columns name table chain =>
    name = database ∧ table ∈ selection ∧ source.fetchColumns table = .error chain
  | _ => False

namespace Fetch

variable {α : Type} {gated queued : Bool} {result : Except (List String) α} {fetch : Fetch α}
  {answer : α} {chain : List String}

@[simp] theorem passes_answered : (answered answer).passes queued = true := rfl

@[simp] theorem passes_refused : (refused chain : Fetch α).passes queued = false := rfl

@[simp] theorem passes_waiting : (waiting : Fetch α).passes queued = !queued := rfl

@[simp] theorem answer?_answered : (answered answer).answer? = some answer := rfl

theorem answer?_eq_some_iff : fetch.answer? = some answer ↔ fetch = answered answer := by
  cases fetch with
  | waiting => simp [answer?]
  | answered other => simp
  | refused chain => simp [answer?]

theorem ne_refused_of_passes (h : fetch.passes queued = true) : fetch ≠ refused chain := by
  rintro rfl
  cases h

theorem passes_of_answer? (h : fetch.answer?.isSome) : fetch.passes queued = true := by
  obtain ⟨answer, hanswer⟩ := Option.isSome_iff_exists.mp h
  rw [answer?_eq_some_iff.mp hanswer, passes_answered]

/-- In a queue only a fetch that has answered is passed. -/
theorem exists_answered_of_passes (h : fetch.passes true = true) :
    ∃ answer, fetch = answered answer := by
  cases fetch with
  | answered answer => exact ⟨answer, rfl⟩
  | waiting => cases h
  | refused chain => cases h

/-- What has come of a fetch stays. -/
theorem poll_ofResult (earlier : Except (List String) α) :
    (ofResult earlier).poll gated result = ofResult earlier := by
  cases earlier with
  | ok answer => rfl
  | error chain => rfl

/-- Nothing is left to do for a fetch that was just taken up. -/
theorem poll_poll : (fetch.poll gated result).poll gated result = fetch.poll gated result := by
  cases fetch with
  | answered answer => rfl
  | refused chain => rfl
  | waiting =>
    cases gated with
    | true => rfl
    | false => exact poll_ofResult result

theorem poll_open_ne_waiting : fetch.poll false result ≠ waiting := by
  cases fetch with
  | answered answer => simp [poll]
  | refused chain => simp [poll]
  | waiting =>
    cases result with
    | ok answer => simp [poll, ofResult]
    | error chain => simp [poll, ofResult]

theorem ofResult_eq_answered_iff : ofResult result = answered answer ↔ result = .ok answer := by
  cases result with
  | ok other => simp [ofResult]
  | error chain => simp [ofResult]

theorem ofResult_eq_refused_iff : ofResult result = refused chain ↔ result = .error chain := by
  cases result with
  | ok answer => simp [ofResult]
  | error other => simp [ofResult]

theorem ofResult_ne_waiting : ofResult result ≠ waiting := by
  cases result with
  | ok answer => simp [ofResult]
  | error chain => simp [ofResult]

/-- The fetch waits, or has brought the given result. -/
def Holds (result : Except (List String) α) (fetch : Fetch α) : Prop :=
  fetch = waiting ∨ fetch = ofResult result

theorem Holds.poll (h : fetch.Holds result) : (fetch.poll gated result).Holds result := by
  rcases h with rfl | rfl
  · cases gated with
    | true => exact Or.inl rfl
    | false => exact Or.inr rfl
  · exact Or.inr (poll_ofResult result)

theorem Holds.eq_of_refused (h : (refused chain).Holds result) : result = .error chain := by
  rcases h with h | h
  · cases h
  · exact ofResult_eq_refused_iff.mp h.symm

theorem Holds.eq_ofResult (h : fetch.Holds result) (hanswer : fetch.answer?.isSome) :
    fetch = ofResult result := by
  rcases h with rfl | h
  · cases hanswer
  · exact h

/-- With its gate open a fetch does not wait, so that it has answered unless it is refused. -/
theorem isSome_answer?_of_open (h : ∀ chain, fetch.poll false result ≠ refused chain) :
    (fetch.poll false result).answer?.isSome := by
  cases hpolled : fetch.poll false result with
  | waiting => exact absurd hpolled poll_open_ne_waiting
  | answered answer => rfl
  | refused chain => exact absurd hpolled (h chain)

end Fetch

namespace Assembly

variable {source : Source} {gated : Call → Bool} {database table : String}
  {selection : List String} {assembly after : Assembly} {failure : Failure} {chain : List String}
  {before rest : List (String × Fetch (List ColumnRecord))}

@[simp] theorem names_poll (source : Source) (gated : Call → Bool) (assembly : Assembly) :
    (assembly.poll source gated).names = assembly.names := by
  simp [names, poll, pollTable]

@[simp] theorem names_start (selection : List String) : (start selection).names = selection := by
  rw [names, start, List.map_map]
  exact List.map_id selection

theorem length_names (assembly : Assembly) : assembly.names.length = assembly.columns.length :=
  List.length_map _

theorem isQueued_iff : assembly.isQueued = true ↔ 30 < assembly.names.length := by
  simp [isQueued, length_names]

theorem poll_poll (source : Source) (gated : Call → Bool) (assembly : Assembly) :
    (assembly.poll source gated).poll source gated = assembly.poll source gated := by
  simp [poll, pollTable, Fetch.poll_poll]

theorem mem_columns_poll {entry : String × Fetch (List ColumnRecord)}
    (h : entry ∈ (assembly.poll source gated).columns) :
    ∃ old ∈ assembly.columns, entry = pollTable source gated old := by
  obtain ⟨old, hold, rfl⟩ := List.mem_map.mp h
  exact ⟨old, hold, rfl⟩

/-- A refusal that an assembly holds stands in a queue, behind a fetch that waits. -/
def HeldBack (assembly : Assembly) : Prop :=
  ∀ before table chain rest, assembly.columns = before ++ (table, .refused chain) :: rest →
    30 < assembly.names.length ∧ ∃ entry ∈ before, entry.2 = .waiting

theorem heldBack_start (selection : List String) : (start selection).HeldBack := by
  intro before table chain rest h
  have hmem : (table, .refused chain) ∈ (start selection).columns := by simp [h]
  simp [start] at hmem

/-- A fetch that waits holds back all refusals behind it. -/
theorem heldBack_of_waiting (hmany : 30 < assembly.names.length)
    (hcolumns : assembly.columns = before ++ (table, .waiting) :: rest)
    (hbefore : ∀ entry ∈ before, ∀ chain, entry.2 ≠ .refused chain) : assembly.HeldBack := by
  intro others name chain later hother
  refine ⟨hmany, (table, .waiting), ?_, rfl⟩
  rw [hcolumns, List.append_eq_append_iff] at hother
  rcases hother with ⟨between, rfl, hrest⟩ | ⟨between, rfl, hlater⟩
  · cases between with
    | nil => cases hrest
    | cons entry between =>
      cases hrest
      exact List.mem_append_right _ List.mem_cons_self
  · cases between with
    | nil => cases hlater
    | cons entry between =>
      cases hlater
      exact absurd rfl (hbefore (name, .refused chain) (by simp) chain)

/-- Where no refusal is met, the first fetch that is not passed waits and holds back the others. -/
theorem heldBack_of_front
    (hfront : ∀ table chain rest, assembly.columns.dropWhile
      (fun entry => entry.2.passes assembly.isQueued) ≠ (table, .refused chain) :: rest) :
    assembly.HeldBack := by
  intro before table chain rest hcolumns
  rw [hcolumns, List.dropWhile_append] at hfront
  cases hbefore : before.dropWhile fun entry => entry.2.passes assembly.isQueued with
  | nil => simp [hbefore] at hfront
  | cons entry later =>
    obtain ⟨name, fetch⟩ := entry
    have hmem : (name, fetch) ∈ before :=
      (List.dropWhile_suffix _).mem (hbefore ▸ List.mem_cons_self)
    have hstops := List.head_dropWhile_not
      (fun entry : String × Fetch (List ColumnRecord) => entry.2.passes assembly.isQueued)
      (by rw [hbefore]; exact List.cons_ne_nil _ _)
    simp only [hbefore, List.head_cons] at hstops
    cases fetch with
    | answered records => cases hstops
    | refused reason =>
      refine absurd ?_ (hfront name reason (later ++ (table, .refused chain) :: rest))
      rw [hbefore]
      rfl
    | waiting =>
      have hqueued : assembly.isQueued = true := by simpa using hstops
      exact ⟨isQueued_iff.mp hqueued, _, hmem, rfl⟩

/-- What a join comes to, with the calls that it has reached. -/
inductive Joined (database : String) (assembly : Assembly) :
    List Call × Except Failure Assembly → Prop
  | links {chain : List String} (hlinks : assembly.links = .refused chain) :
    Joined database assembly ([.relations], .error (.relations database chain))
  | table {before rest : List (String × Fetch (List ColumnRecord))} {table : String}
    {chain : List String} (hlinks : ∀ chain, assembly.links ≠ .refused chain)
    (hcolumns : assembly.columns = before ++ (table, .refused chain) :: rest)
    (hpass : ∀ entry ∈ before, entry.2.passes assembly.isQueued = true) :
    Joined database assembly
      (calls (before.map Prod.fst ++ [table]), .error (.columns database table chain))
  | goesOn (hlinks : ∀ chain, assembly.links ≠ .refused chain) (hheld : assembly.HeldBack) :
    Joined database assembly (calls assembly.names, .ok assembly)

theorem joined_join (database : String) (assembly : Assembly) :
    Joined database assembly (assembly.join database) := by
  unfold join
  dsimp only
  split
  · rename_i chain hlinks
    exact .links hlinks
  · rename_i hlinks
    split
    · rename_i table chain rest hdrop
      have hcolumns := List.takeWhile_append_dropWhile
        (p := fun entry => entry.2.passes assembly.isQueued) (l := assembly.columns)
      rw [hdrop] at hcolumns
      exact .table hlinks hcolumns.symm fun entry => List.mem_takeWhile_imp
    · rename_i hdrop
      exact .goesOn hlinks (heldBack_of_front hdrop)

theorem join_of_links (h : assembly.links = .refused chain) :
    assembly.join database = ([.relations], .error (.relations database chain)) := by
  simp [join, h]

/-- Fetches that are passed leave the failure to the first one that is refused. -/
theorem join_of_table (hlinks : ∀ chain, assembly.links ≠ .refused chain)
    (hcolumns : assembly.columns = before ++ (table, .refused chain) :: rest)
    (hpass : ∀ entry ∈ before, entry.2.passes assembly.isQueued = true) :
    assembly.join database =
      (calls (before.map Prod.fst ++ [table]), .error (.columns database table chain)) := by
  unfold join
  dsimp only
  split
  · rename_i reason hrefused
    exact absurd hrefused (hlinks reason)
  · rw [hcolumns, List.dropWhile_append_of_pos hpass, List.takeWhile_append_of_pos hpass]
    simp

theorem join_of_heldBack (hlinks : ∀ chain, assembly.links ≠ .refused chain)
    (hheld : assembly.HeldBack) :
    assembly.join database = (calls assembly.names, .ok assembly) := by
  have hjoined := joined_join database assembly
  generalize assembly.join database = outcome at hjoined
  cases hjoined with
  | links hrefused => exact absurd hrefused (hlinks _)
  | goesOn _ _ => rfl
  | table _ hcolumns hpass =>
    obtain ⟨hmany, entry, hentry, hwaits⟩ := hheld _ _ _ _ hcolumns
    have hstops := hpass entry hentry
    rw [hwaits, isQueued_iff.mpr hmany] at hstops
    cases hstops

theorem joined_advance (source : Source) (gated : Call → Bool) (database : String)
    (assembly : Assembly) :
    Joined database (assembly.poll source gated) (assembly.advance source gated database) :=
  joined_join database _

/-- An assembly that goes on holds what its fetches have come to, and no refusal that is met. -/
theorem advance_ok (h : (assembly.advance source gated database).2 = .ok after) :
    after = assembly.poll source gated ∧ (∀ chain, after.links ≠ .refused chain) ∧
      after.HeldBack := by
  have hjoined := joined_advance source gated database assembly
  generalize assembly.advance source gated database = outcome at h hjoined
  cases hjoined with
  | links _ => cases h
  | table _ _ _ => cases h
  | goesOn hlinks hheld =>
    cases h
    exact ⟨rfl, hlinks, hheld⟩

/-- An assembly that ends early holds the refusal that is met. -/
theorem advance_error (h : (assembly.advance source gated database).2 = .error failure) :
    (∃ chain, (assembly.poll source gated).links = .refused chain ∧
      failure = .relations database chain) ∨
    (∀ chain, (assembly.poll source gated).links ≠ .refused chain) ∧
      ∃ before table chain rest,
        (assembly.poll source gated).columns = before ++ (table, .refused chain) :: rest ∧
        (∀ entry ∈ before, entry.2.passes (assembly.poll source gated).isQueued = true) ∧
        failure = .columns database table chain := by
  have hjoined := joined_advance source gated database assembly
  generalize assembly.advance source gated database = outcome at h hjoined
  cases hjoined with
  | links hlinks =>
    cases h
    exact Or.inl ⟨_, hlinks, rfl⟩
  | table hlinks hcolumns hpass =>
    cases h
    exact Or.inr ⟨hlinks, _, _, _, _, hcolumns, hpass, rfl⟩
  | goesOn _ _ => cases h

/-- All that an assembly holds is what the catalogue answers. -/
structure Holds (source : Source) (selection : List String) (assembly : Assembly) : Prop where
  names : assembly.names = selection
  links : assembly.links.Holds source.fetchLinks
  columns : ∀ entry ∈ assembly.columns, entry.2.Holds (source.fetchColumns entry.1)

theorem holds_start (source : Source) (selection : List String) :
    (start selection).Holds source selection where
  names := names_start selection
  links := Or.inl rfl
  columns entry hentry := by
    obtain ⟨table, _, rfl⟩ := List.mem_map.mp hentry
    exact Or.inl rfl

theorem Holds.poll (h : assembly.Holds source selection) :
    (assembly.poll source gated).Holds source selection where
  names := (names_poll source gated assembly).trans h.names
  links := h.links.poll
  columns entry hentry := by
    obtain ⟨old, hold, rfl⟩ := mem_columns_poll hentry
    exact (h.columns old hold).poll

theorem Holds.advance (h : assembly.Holds source selection)
    (hok : (assembly.advance source gated database).2 = .ok after) :
    after.Holds source selection := by
  rw [(advance_ok hok).1]
  exact h.poll

theorem Holds.mem_selection (h : assembly.Holds source selection)
    {entry : String × Fetch (List ColumnRecord)} (hentry : entry ∈ assembly.columns) :
    entry.1 ∈ selection := by
  rw [← h.names]
  exact List.mem_map_of_mem hentry

/-- An assembly that ends early ends by a fetch that fails. -/
theorem Holds.fetchFails (h : assembly.Holds source selection)
    (herror : (assembly.advance source gated database).2 = .error failure) :
    FetchFails source database selection failure := by
  have hpolled : (assembly.poll source gated).Holds source selection := h.poll
  rcases advance_error herror with ⟨chain, hlinks, rfl⟩ |
    ⟨_, before, table, chain, rest, hcolumns, _, rfl⟩
  · have hholds := hpolled.links
    rw [hlinks] at hholds
    exact ⟨rfl, hholds.eq_of_refused⟩
  · have hmem : (table, .refused chain) ∈ (assembly.poll source gated).columns := by
      rw [hcolumns]
      exact List.mem_append_right _ List.mem_cons_self
    exact ⟨rfl, hpolled.mem_selection hmem, (hpolled.columns _ hmem).eq_of_refused⟩

/-- All fetches have answered. -/
def Complete (assembly : Assembly) : Prop :=
  assembly.links.answer?.isSome ∧ ∀ entry ∈ assembly.columns, entry.2.answer?.isSome

/-- Where no fetch waits no refusal is held back, so that all have answered. -/
theorem HeldBack.isSome_answer? (h : assembly.HeldBack)
    (hdone : ∀ entry ∈ assembly.columns, entry.2 ≠ .waiting)
    {entry : String × Fetch (List ColumnRecord)} (hentry : entry ∈ assembly.columns) :
    entry.2.answer?.isSome := by
  obtain ⟨table, fetch⟩ := entry
  cases fetch with
  | waiting => exact absurd rfl (hdone _ hentry)
  | answered records => rfl
  | refused chain =>
    obtain ⟨before, rest, hcolumns⟩ := List.append_of_mem hentry
    obtain ⟨_, other, hother, hwaits⟩ := h before table chain rest hcolumns
    refine absurd hwaits (hdone other ?_)
    rw [hcolumns]
    exact List.mem_append_left _ hother

/-- With the gates of its calls open, an assembly that does not end early is complete. -/
theorem Holds.complete_advance (h : assembly.Holds source selection)
    (hopen : ∀ call ∈ calls selection, gated call = false)
    (hok : (assembly.advance source gated database).2 = .ok after) : after.Complete := by
  obtain ⟨rfl, hlinks, hheld⟩ := advance_ok hok
  constructor
  · have hgate := hopen .relations List.mem_cons_self
    simp only [Assembly.poll, hgate] at hlinks ⊢
    exact Fetch.isSome_answer?_of_open hlinks
  · refine fun entry => hheld.isSome_answer? fun other hother => ?_
    obtain ⟨old, hold, rfl⟩ := mem_columns_poll hother
    have hgate := hopen (.columns old.1)
      (List.mem_cons_of_mem _ (List.mem_map_of_mem (h.mem_selection hold)))
    rw [pollTable, hgate]
    exact Fetch.poll_open_ne_waiting

/-- The assembly of all that the catalogue answers. -/
def full (source : Source) (selection : List String) : Assembly :=
  ⟨.ofResult source.fetchLinks,
    selection.map fun table => (table, .ofResult (source.fetchColumns table))⟩

theorem poll_start_open (source : Source) (selection : List String) :
    (start selection).poll source (fun _ => false) = full source selection := by
  simp [start, Assembly.poll, pollTable, full, Fetch.poll]

/-- There is only one complete assembly, however its answers came in. -/
theorem Holds.eq_full (h : assembly.Holds source selection) (hcomplete : assembly.Complete) :
    assembly = full source selection := by
  obtain ⟨links, columns⟩ := assembly
  rw [full, Assembly.mk.injEq, ← h.names]
  refine ⟨h.links.eq_ofResult hcomplete.1, ?_⟩
  rw [Assembly.names, List.map_map]
  refine (List.map_id columns).symm.trans (List.map_congr_left fun entry hentry => ?_)
  exact Prod.ext rfl ((h.columns entry hentry).eq_ofResult (hcomplete.2 entry hentry))

/-- The table of an entry, once its columns are there. -/
def tableOfEntry (groups : RelationGroups) (entry : String × Fetch (List ColumnRecord)) :
    Option Table :=
  entry.2.answer?.map (tableOf groups entry.1)

theorem isSome_mapM_iff (groups : RelationGroups)
    (columns : List (String × Fetch (List ColumnRecord))) :
    (columns.mapM (tableOfEntry groups)).isSome ↔ ∀ entry ∈ columns, entry.2.answer?.isSome := by
  induction columns with
  | nil => simp
  | cons entry rest ih =>
    rw [List.forall_mem_cons, ← ih, List.mapM_cons, tableOfEntry]
    cases entry.2.answer? with
    | none => simp
    | some answer =>
      cases rest.mapM (tableOfEntry groups) with
      | none => simp
      | some tables => simp

/-- The tables are there as soon as all fetches have answered, and not before. -/
theorem isSome_tables_iff : assembly.tables?.isSome ↔ assembly.Complete := by
  unfold tables? Complete
  cases assembly.links.answer? with
  | none => simp
  | some answer =>
    rw [Option.isSome_some, eq_self, true_and]
    exact isSome_mapM_iff (groupLinks answer) assembly.columns

theorem not_complete_of_fetchFails (h : FetchFails source database selection failure) :
    ¬(full source selection).Complete := by
  rintro ⟨hlinks, hcolumns⟩
  cases failure with
  | relations name chain => simp [full, h.2, Fetch.ofResult, Fetch.answer?] at hlinks
  | columns name table chain =>
    have hmem : (table, .ofResult (source.fetchColumns table)) ∈
        (full source selection).columns := List.mem_map_of_mem h.2.1
    have hsome := hcolumns _ hmem
    simp [h.2.2, Fetch.ofResult, Fetch.answer?] at hsome
  | emptySelection => exact h
  | superseded => exact h
  | unknownTarget name => exact h

/-- Without gates either a fetch fails, or all answer and give the tables. -/
theorem assemble_cases (source : Source) (database : String) (selection : List String) :
    (∃ failure, (assemble source database selection).2 = .error failure ∧
      FetchFails source database selection failure) ∨
      (full source selection).Complete ∧
        (assemble source database selection).2 = .ok ((full source selection).tables?.getD []) := by
  have hstart := holds_start source selection
  cases hresult : ((start selection).advance source (fun _ => false) database).2 with
  | error failure =>
    refine Or.inl ⟨failure, ?_, hstart.fetchFails hresult⟩
    simp [assemble, hresult, Except.map]
  | ok after =>
    have hcomplete := hstart.complete_advance (fun _ _ => rfl) hresult
    have hfull := (hstart.advance hresult).eq_full hcomplete
    refine Or.inr ⟨hfull ▸ hcomplete, ?_⟩
    simp [assemble, hresult, Except.map, hfull]

/-- What an assembly that was taken up many times gives is what one without gates gives. -/
theorem Holds.assemble_eq {tables : List Table} (h : assembly.Holds source selection)
    (htables : assembly.tables? = some tables) (database : String) :
    (assemble source database selection).2 = .ok tables := by
  have hcomplete : assembly.Complete := isSome_tables_iff.mp (by rw [htables]; rfl)
  have hfull := h.eq_full hcomplete
  rcases assemble_cases source database selection with ⟨failure, _, hfails⟩ | ⟨_, hok⟩
  · exact absurd (hfull ▸ hcomplete) (not_complete_of_fetchFails hfails)
  · rw [hok, ← hfull, htables]
    rfl

theorem assemble_error_of_fetchFails (h : FetchFails source database selection failure) :
    ∃ first, (assemble source database selection).2 = .error first := by
  rcases assemble_cases source database selection with ⟨first, herror, _⟩ | ⟨hcomplete, _⟩
  · exact ⟨first, herror⟩
  · exact absurd hcomplete (not_complete_of_fetchFails h)

end Assembly

end Schemata.Export
