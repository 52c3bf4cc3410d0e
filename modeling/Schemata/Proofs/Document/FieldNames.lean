import Mathlib.Data.List.Nodup
import Schemata.Document.PrismaModel

/-!
Names of the fields of a Prisma model. The name for a relation is lengthened as long as a field
before it has the name. A lengthened name can only meet taken names of its own length or more,
so that there are fewer of them after every try, and the tries come to an end. What they end
with is free, and the names of the model stay apart from field to field.
-/
namespace Schemata.Document.PrismaModel

/-- From a name to the first one that is free, each try longer than the one before it. -/
inductive Lengthens (taken : List String) : String → String → Prop
  | free {name : String} (h : name ∉ taken) : Lengthens taken name name
  | again {name result : String} (h : name ∈ taken)
      (hlonger : Lengthens taken (name ++ "Rel") result) : Lengthens taken name result

theorem Lengthens.not_mem {taken : List String} {name result : String}
    (h : Lengthens taken name result) : result ∉ taken := by
  induction h with
  | free hfree => exact hfree
  | again _ _ ih => exact ih

/-- The taken names that the tries from a name on can still meet. -/
def ahead (taken : List String) (name : String) : List String :=
  taken.filter fun other => name.length ≤ other.length

theorem mem_ahead_self {taken : List String} {name : String} (h : name ∈ taken) :
    name ∈ ahead taken name :=
  List.mem_filter.mpr ⟨h, decide_eq_true (Nat.le_refl _)⟩

/-- A try that fails leaves the name it met behind. -/
theorem length_ahead_longer {taken : List String} {name : String} (h : name ∈ taken) :
    (ahead taken (name ++ "Rel")).length < (ahead taken name).length := by
  have hlength : (name ++ "Rel").length = name.length + 3 := by
    rw [String.length_append]
    rfl
  have hwithin : ahead taken (name ++ "Rel") =
      (ahead taken name).filter fun other => (name ++ "Rel").length ≤ other.length := by
    rw [ahead, ahead, List.filter_filter]
    refine List.filter_congr fun other _ => ?_
    rw [hlength, ← Bool.decide_and, decide_eq_decide]
    omega
  rw [hwithin, List.length_filter_lt_length_iff_exists]
  refine ⟨name, mem_ahead_self h, ?_⟩
  rw [hlength, decide_eq_true_eq]
  omega

theorem lengthens_freeName {taken : List String} {tries : Nat} {name : String}
    (h : (ahead taken name).length ≤ tries) :
    Lengthens taken name (freeName taken tries name) := by
  induction tries generalizing name with
  | zero =>
    refine .free fun hmem => ?_
    have hpos := List.length_pos_of_mem (mem_ahead_self hmem)
    omega
  | succ tries ih =>
    rw [freeName]
    by_cases hmem : name ∈ taken
    · rw [if_pos (List.contains_iff_mem.mpr hmem)]
      have hfewer := length_ahead_longer hmem
      exact .again hmem (ih (by omega))
    · rw [if_neg fun hcontains => hmem (List.contains_iff_mem.mp hcontains)]
      exact .free hmem

/-- The field that a relation asks for, under the first name that no field before it has. -/
structure FieldFor (table : Table) (taken : List String) (relation : Relation)
    (field : PrismaField) : Prop where
  lengthens : Lengthens taken (Naming.camel (relationBase relation)) field.name
  type_eq : field.type = Naming.pascal relation.referencedTable ++
    optionalMark ((table.column? relation.column).any (·.nullable))
  attributes_eq : field.attributes = "@relation(fields: [" ++ relation.column ++
    "], references: [" ++ relation.referencedColumn ++ "], onDelete: Cascade)"

theorem fieldFor_relationField (table : Table) (taken : List String) (relation : Relation) :
    FieldFor table taken relation (relationField table taken relation) where
  lengthens := lengthens_freeName (List.length_filter_le _ _)
  type_eq := rfl
  attributes_eq := rfl

theorem FieldFor.isEmpty_attributes {table : Table} {taken : List String} {relation : Relation}
    {field : PrismaField} (h : FieldFor table taken relation field) :
    field.attributes.isEmpty = false := by
  rw [← Bool.not_eq_true, String.isEmpty_iff, h.attributes_eq, ← String.toList_inj]
  simp

/-- One further field for each relation, in the order of the relations. -/
inductive Adds (table : Table) : List PrismaField → List Relation → List PrismaField → Prop
  | done (fields : List PrismaField) : Adds table fields [] []
  | next {fields more : List PrismaField} {field : PrismaField} {relation : Relation}
      {relations : List Relation}
      (hfield : FieldFor table (fields.map (·.name)) relation field)
      (hmore : Adds table (fields ++ [field]) relations more) :
      Adds table fields (relation :: relations) (field :: more)

theorem exists_adds (table : Table) (fields : List PrismaField) (relations : List Relation) :
    ∃ added, withRelations table fields relations = fields ++ added ∧
      Adds table fields relations added := by
  induction relations generalizing fields with
  | nil => exact ⟨[], (List.append_nil _).symm, .done fields⟩
  | cons relation relations ih =>
    obtain ⟨more, hfields, hmore⟩ :=
      ih (fields ++ [relationField table (fields.map (·.name)) relation])
    refine ⟨_, ?_, .next (fieldFor_relationField table _ relation) hmore⟩
    rw [withRelations, hfields, List.append_assoc, List.singleton_append]

theorem Adds.names_nodup {table : Table} {fields added : List PrismaField}
    {relations : List Relation} (h : Adds table fields relations added)
    (hnodup : (fields.map (·.name)).Nodup) : ((fields ++ added).map (·.name)).Nodup := by
  induction h with
  | done fields => rwa [List.append_nil]
  | @next fields more field relation relations hfield hmore ih =>
    have hnames : ((fields ++ [field]).map (·.name)).Nodup := by
      rw [List.map_append, List.map_singleton, ← List.concat_eq_append]
      exact hnodup.concat hfield.lengthens.not_mem
    have hall := ih hnames
    rwa [List.append_assoc, List.singleton_append] at hall

/-- Whether the table that a relation leads to is one of the exported ones. -/
def leadsInto (tables : List Table) (relation : Relation) : Bool :=
  tables.any (·.name == relation.referencedTable)

theorem leadsInto_eq (tables : List Table) (relation : Relation) :
    leadsInto tables relation = (Table.names tables).contains relation.referencedTable := by
  rw [leadsInto, Bool.eq_iff_iff, List.contains_iff_mem, Table.names, List.mem_map,
    List.any_eq_true]
  simp only [beq_iff_eq]

theorem relationsWithin_eq (tables : List Table) (table : Table) :
    table.relationsWithin tables = table.relations.filter (leadsInto tables) :=
  List.filter_congr fun relation _ => (leadsInto_eq tables relation).symm

/-- A model has the fields of the columns and then one for each relation to an exported table,
whose name the tries end with; no two fields have the same name. -/
theorem fields_named_apart (tables : List Table) (table : Table)
    (hcolumns : (table.columns.map (·.name)).Nodup) :
    ∃ added, (ofTable tables table).fields = table.columns.map columnField ++ added ∧
      Adds table (table.columns.map columnField) (table.relations.filter (leadsInto tables))
        added ∧
      (ofTable tables table).fields.map (·.name) =
        table.columns.map (·.name) ++ added.map (·.name) ∧
      ((ofTable tables table).fields.map (·.name)).Nodup := by
  have hnames : (table.columns.map columnField).map (·.name) = table.columns.map (·.name) := by
    rw [List.map_map]
    rfl
  obtain ⟨added, hfields, hadds⟩ :=
    exists_adds table (table.columns.map columnField) (table.relationsWithin tables)
  have hmodel : (ofTable tables table).fields = table.columns.map columnField ++ added := hfields
  refine ⟨added, hmodel, relationsWithin_eq tables table ▸ hadds, ?_, ?_⟩
  · rw [hmodel, List.map_append, hnames]
  · rw [hmodel]
    exact hadds.names_nodup (hnames ▸ hcolumns)

/-- Two relations from one column, with names that columns have already, one to a table without
a letter in its name, and one to a table that is not exported. -/
def reviews : Table where
  name := "reviews"
  columns := ["user", "user_id", "userRel", "", "_id"].map (Column.ofType · "int")
  relations := [⟨"user_id", "users", "id"⟩, ⟨"user_id", "users", "code"⟩,
    ⟨"order_id", "orders", "id"⟩, ⟨"_id", "_", "id"⟩]

def reviewed : List Table := ["users", "_", "reviews"].map fun name => { name, columns := [] }

theorem reviews_named_apart :
    (reviews.columns.map (·.name)).Nodup ∧
      ((ofTable reviewed reviews).fields.map (·.name)).Nodup ∧
      (ofTable reviewed reviews).fields.map (·.name) =
        ["user", "user_id", "userRel", "", "_id", "userRelRel", "userRelRelRel", "Rel"] := by
  have hcolumns : (reviews.columns.map (·.name)).Nodup := by decide
  obtain ⟨_, _, _, _, hnodup⟩ := fields_named_apart reviewed reviews hcolumns
  exact ⟨hcolumns, hnodup, by decide +kernel⟩

end Schemata.Document.PrismaModel
