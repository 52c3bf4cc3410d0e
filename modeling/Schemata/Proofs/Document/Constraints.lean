import Mathlib.Data.List.Nodup
import Mathlib.Data.List.Pairwise
import Schemata.Proofs.Document.CreateTable
import Schemata.Proofs.Text.Reader

/-!
Names of foreign keys. The name of a constraint is put together from the table and the column
with the separator that names may hold themselves, so that two tables can arrive at the same
name. That happens in one way only: the name of one table goes on where the name of the other
ends, and the column of the other begins with what it goes on with.
-/
namespace Schemata.Document.CreateTable

/-- The name that a line of a statement gives to a constraint. -/
def constraintOf? (line : String) : Option String := do
  let _ ← Text.after? "  CONSTRAINT " line.toList
  let tokens ← tokens? line
  return (← tokens.head?).text

/-- The names that the statements for the tables give to constraints. -/
def constraintNames (tables : List Table) : List String :=
  (tables.flatMap lines).filterMap constraintOf?

theorem constraintOf_columnLine (column : Column) : constraintOf? (columnLine column) = none := by
  have hstart : Text.after? "  CONSTRAINT " (columnLine column).toList = none := by
    unfold columnLine quoted
    simp [Text.after?, List.dropPrefix?]
  rw [constraintOf?, hstart]
  rfl

theorem constraintOf_foreignKeyLine (table : Table) (relation : Relation) :
    constraintOf? (foreignKeyLine table relation) = some (constraintName table relation) := by
  have htokens : tokens? (foreignKeyLine table relation) =
      some ((relationNames table relation).map (⟨.backtick, ·⟩)) :=
    (gives_foreignKeyLine table relation).tokensFrom_eq
  have hstart : ∃ rest, Text.after? "  CONSTRAINT " (foreignKeyLine table relation).toList =
      some rest := by
    unfold foreignKeyLine
    simp only [String.toList_append, List.append_assoc]
    exact ⟨_, Text.after_append _ _⟩
  obtain ⟨rest, hrest⟩ := hstart
  rw [constraintOf?, hrest, htokens]
  rfl

theorem constraintNames_eq (tables : List Table) :
    constraintNames tables =
      tables.flatMap fun table => table.relations.map (constraintName table) := by
  have hlines : ∀ table : Table, (lines table).filterMap constraintOf? =
      table.relations.map (constraintName table) := by
    intro table
    have hcolumns : (table.columns.map columnLine).filterMap constraintOf? = [] := by
      rw [List.filterMap_eq_nil_iff]
      intro line hline
      obtain ⟨column, _, rfl⟩ := List.mem_map.mp hline
      exact constraintOf_columnLine column
    rw [lines, List.filterMap_append, hcolumns, List.nil_append, List.filterMap_map,
      ← List.filterMap_eq_map]
    exact List.filterMap_congr fun relation _ => constraintOf_foreignKeyLine table relation
  rw [constraintNames, List.filterMap_flatMap]
  exact congrArg (tables.flatMap ·) (funext hlines)

/-- The name of a table goes on where the name of another one ends, and a column of the other
one begins with what it goes on with. -/
def SharesName (table other : Table) (relation further : Relation) : Prop :=
  ∃ shared, other.name = table.name ++ "_" ++ shared ∧
    relation.column = shared ++ "_" ++ further.column

def Overlaps (table other : Table) : Prop :=
  ∃ relation ∈ table.relations, ∃ further ∈ other.relations,
    SharesName table other relation further

/-- Two texts around a separator are the same as two others in one way only, unless they are
the same texts: one of the first texts goes on behind the other. -/
theorem append_separator_eq_iff {separator : Char} {s t c d : List Char} (hne : s ≠ t) :
    s ++ separator :: c = t ++ separator :: d ↔
      (∃ shared, t = s ++ separator :: shared ∧ c = shared ++ separator :: d) ∨
        ∃ shared, s = t ++ separator :: shared ∧ d = shared ++ separator :: c := by
  constructor
  · intro heq
    rcases List.append_eq_append_iff.mp heq with ⟨gap, ht, hc⟩ | ⟨gap, hs, hd⟩
    · cases gap with
      | nil => exact absurd (by simpa using ht.symm) hne
      | cons first shared =>
        obtain ⟨rfl, hcolumn⟩ := List.cons.inj hc
        exact Or.inl ⟨shared, ht, hcolumn⟩
    · cases gap with
      | nil => exact absurd (by simpa using hs) hne
      | cons first shared =>
        obtain ⟨rfl, hcolumn⟩ := List.cons.inj hd
        exact Or.inr ⟨shared, hs, hcolumn⟩
  · rintro (⟨shared, rfl, rfl⟩ | ⟨shared, rfl, rfl⟩)
    · simp
    · simp

theorem toList_constraintName (table : Table) (relation : Relation) :
    (constraintName table relation).toList =
      "fk_".toList ++ (table.name.toList ++ '_' :: relation.column.toList) := by
  simp [constraintName]

theorem constraintName_inj {table : Table} {relation further : Relation} :
    constraintName table relation = constraintName table further ↔
      relation.column = further.column := by
  rw [← String.toList_inj, toList_constraintName, toList_constraintName]
  simp [String.toList_inj]

theorem sharesName_iff {table other : Table} {relation further : Relation} :
    SharesName table other relation further ↔
      ∃ shared, other.name.toList = table.name.toList ++ '_' :: shared ∧
        relation.column.toList = shared ++ '_' :: further.column.toList := by
  constructor
  · rintro ⟨shared, hname, hcolumn⟩
    refine ⟨shared.toList, ?_, ?_⟩
    · simp [hname]
    · simp [hcolumn]
  · rintro ⟨shared, hname, hcolumn⟩
    refine ⟨String.ofList shared, ?_, ?_⟩
    · rw [← String.toList_inj, hname]
      simp
    · rw [← String.toList_inj, hcolumn]
      simp

theorem constraintName_eq_iff {table other : Table} (hne : table.name ≠ other.name)
    {relation further : Relation} :
    constraintName table relation = constraintName other further ↔
      SharesName table other relation further ∨ SharesName other table further relation := by
  have hchars : table.name.toList ≠ other.name.toList := fun h => hne (String.toList_inj.mp h)
  rw [← String.toList_inj, toList_constraintName, toList_constraintName,
    List.append_cancel_left_eq, append_separator_eq_iff hchars, sharesName_iff, sharesName_iff]

theorem name_ne_of_sharesName {table other : Table} {relation further : Relation}
    (h : SharesName table other relation further) : table.name ≠ other.name := by
  obtain ⟨shared, hname, _⟩ := h
  intro heq
  have hlength := congrArg String.length (heq.trans hname)
  simp only [String.length_append] at hlength
  have hseparator : "_".length = 1 := by decide
  omega

/-- When the tables have different names, and the relations of each come from different
columns, two constraints have the same name just when two tables overlap. -/
theorem constraintNames_nodup_iff (tables : List Table) (hnames : (tables.map (·.name)).Nodup)
    (hcolumns : ∀ table ∈ tables, (table.relations.map (·.column)).Nodup) :
    (constraintNames tables).Nodup ↔
      ¬ ∃ table ∈ tables, ∃ other ∈ tables, Overlaps table other := by
  have heach : ∀ table ∈ tables, (table.relations.map (constraintName table)).Nodup := by
    intro table htable
    have hdifferent := List.pairwise_map.mp (hcolumns table htable)
    exact List.pairwise_map.mpr (hdifferent.imp fun hne heq => hne (constraintName_inj.mp heq))
  rw [constraintNames_eq, List.nodup_flatMap]
  constructor
  · rintro ⟨_, hdisjoint⟩ ⟨table, htable, other, hother, relation, hrelation, further, hfurther,
      hshares⟩
    have hname := name_ne_of_sharesName hshares
    have hne : table ≠ other := fun heq => hname (congrArg Table.name heq)
    have hsame := (constraintName_eq_iff hname).mpr (Or.inl hshares)
    -- The list only tells of tables in order; for two tables in any order it takes symmetry.
    have hsymm : Std.Symm (Function.onFun List.Disjoint fun table : Table =>
        table.relations.map (constraintName table)) := ⟨fun _ _ h => List.disjoint_symm h⟩
    have hparted := hdisjoint.forall htable hother hne
    exact hparted (List.mem_map_of_mem hrelation) (hsame ▸ List.mem_map_of_mem hfurther)
  · intro hnone
    refine ⟨heach, (List.pairwise_map.mp hnames).imp_of_mem ?_⟩
    intro table other htable hother hname constraint hconstraint hconstraint'
    obtain ⟨relation, hrelation, rfl⟩ := List.mem_map.mp hconstraint
    obtain ⟨further, hfurther, hsame⟩ := List.mem_map.mp hconstraint'
    rcases (constraintName_eq_iff hname).mp hsame.symm with hshares | hshares
    · exact hnone ⟨table, htable, other, hother, relation, hrelation, further, hfurther, hshares⟩
    · exact hnone ⟨other, hother, table, htable, further, hfurther, relation, hrelation, hshares⟩

/-- Users have a role, and the roles of users belong to users. -/
def usersAndRoles : List Table :=
  [{ name := "user", columns := [Column.ofType "role_id" "int"],
     relations := [⟨"role_id", "role", "id"⟩] },
    { name := "user_role", columns := [Column.ofType "id" "int"],
      relations := [⟨"id", "user", "id"⟩] }]

theorem usersAndRoles_clash :
    (usersAndRoles.map (·.name)).Nodup ∧
      (∀ table ∈ usersAndRoles, (table.relations.map (·.column)).Nodup) ∧
      ¬ (constraintNames usersAndRoles).Nodup := by
  refine ⟨by decide, by decide, ?_⟩
  rw [constraintNames_eq]
  decide

/-- Names that go on like those of users and roles, but for another column. -/
def usersAndGroups : List Table :=
  [{ name := "user", columns := [Column.ofType "role_id" "int", Column.ofType "id" "int"],
     relations := [⟨"role_id", "role", "id"⟩, ⟨"id", "person", "id"⟩] },
    { name := "user_role", columns := [Column.ofType "role_id" "int"],
      relations := [⟨"role_id", "role", "id"⟩] }]

theorem usersAndGroups_part :
    (usersAndGroups.map (·.name)).Nodup ∧
      (∀ table ∈ usersAndGroups, (table.relations.map (·.column)).Nodup) ∧
      (constraintNames usersAndGroups).Nodup ∧
      ¬ ∃ table ∈ usersAndGroups, ∃ other ∈ usersAndGroups, Overlaps table other := by
  have hnames : (usersAndGroups.map (·.name)).Nodup := by decide
  have hcolumns : ∀ table ∈ usersAndGroups, (table.relations.map (·.column)).Nodup := by decide
  have hconstraints : (constraintNames usersAndGroups).Nodup := by
    rw [constraintNames_eq]
    decide
  exact ⟨hnames, hcolumns, hconstraints,
    (constraintNames_nodup_iff usersAndGroups hnames hcolumns).mp hconstraints⟩

end Schemata.Document.CreateTable
