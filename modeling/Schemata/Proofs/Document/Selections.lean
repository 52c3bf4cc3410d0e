import Mathlib.Data.List.Nodup
import Schemata.Proofs.Document.FieldAttributes
import Schemata.Proofs.Document.FieldNames
import Schemata.Proofs.Document.RelatedPairs
import Schemata.Proofs.Text.Blanks
import Schemata.Proofs.Text.Joined

/-!
The relations of a selection of tables. The fields for relations stand in the rows of a model
behind those of its columns and are known by their attribute, and a diagram joins the same pairs
of tables. When fewer tables are selected, a relation is kept just when both of its tables
are, so that both documents can be foretold from those of all tables.
-/
namespace Schemata.Document

variable {tables kept : List Table} {table : Table}

namespace PrismaModel

/-- Whether the field is one for a relation; those of columns have other attributes. -/
def isRelationField (field : PrismaField) : Bool :=
  Text.startsWith field.attributes "@relation("

def relationFields (model : PrismaModel) : List PrismaField := model.fields.filter isRelationField

def fieldRow (model : PrismaModel) (field : PrismaField) : String :=
  Text.trimEnd (rowText model.nameWidth model.typeWidth field)

/-- The rows of a model for the fields of relations. -/
def relationRows (model : PrismaModel) : List String :=
  (relationFields model).map (fieldRow model)

/-- The row of a field for the relation, whatever name the field has. -/
def RelationRow (table : Table) (relation : Relation) (row : String) : Prop :=
  ∃ name nameWidth typeWidth, row = "  " ++ padded nameWidth name ++ " " ++
    (padded typeWidth (Naming.pascal relation.referencedTable ++
      optionalMark ((table.column? relation.column).any (·.nullable))) ++ " " ++
        ("@relation(fields: [" ++ relation.column ++ "], references: [" ++
          relation.referencedColumn ++ "], onDelete: Cascade)"))

/-- The relations of a table that its model has fields for. -/
def drawn (tables : List Table) (table : Table) : List Relation :=
  table.relations.filter (leadsInto tables)

theorem head_of_mem_attributes {column : Column} {mark : String}
    (h : mark ∈ attributes column) :
    ∃ c rest, mark.toList = '@' :: c :: rest ∧ c ≠ 'r' := by
  rcases attribute_cases h with rfl | rfl | ⟨value, _, rfl⟩ | ⟨n, rfl⟩
  · exact ⟨'i', _, rfl, by decide⟩
  · exact ⟨'u', _, rfl, by decide⟩
  · rw [String.toList_append, String.toList_append]
    exact ⟨'d', _, rfl, by decide⟩
  · rw [String.toList_append, String.toList_append]
    exact ⟨'d', _, rfl, by decide⟩

theorem isRelationField_columnField (column : Column) :
    isRelationField (columnField column) = false := by
  have htext : (columnField column).attributes.toList =
      " ".toList.intercalate ((attributes column).map String.toList) :=
    String.toList_intercalate
  rw [isRelationField, Text.startsWith, htext]
  cases hattributes : attributes column with
  | nil => rfl
  | cons first more =>
    obtain ⟨c, rest, hfirst, hne⟩ :=
      head_of_mem_attributes (hattributes ▸ List.mem_cons_self : first ∈ attributes column)
    rw [List.map_cons, intercalate_cons_eq_flatMap, hfirst, ← Bool.not_eq_true,
      List.isPrefixOf_iff_prefix]
    rintro ⟨t, ht⟩
    exact hne (List.cons.inj (List.cons.inj ht).2).1.symm

theorem isRelationField_of_fieldFor {taken : List String} {relation : Relation}
    {field : PrismaField} (h : FieldFor table taken relation field) :
    isRelationField field = true := by
  have hmark : "@relation(".toList <+: "@relation(fields: [".toList := by decide
  rw [isRelationField, Text.startsWith, List.isPrefixOf_iff_prefix, h.attributes_eq]
  simp only [String.toList_append, List.append_assoc]
  exact hmark.trans (List.prefix_append _ _)

theorem Adds.forall₂ {fields added : List PrismaField} {relations : List Relation}
    (h : Adds table fields relations added) :
    List.Forall₂ (fun relation field => ∃ taken, FieldFor table taken relation field)
      relations added := by
  induction h with
  | done fields => exact .nil
  | next hfield _ ih => exact .cons ⟨_, hfield⟩ ih

/-- The text of a model has a row for each column and then one for each of the relations. -/
structure ModelShows (tables : List Table) (table : Table) (relations : List Relation) :
    Prop where
  exists_text : ∃ columnRows, columnRows.length = table.columns.length ∧
    modelText (ofTable tables table) = "model " ++ Naming.pascal table.name ++ " \x7b\n" ++
      String.join ((columnRows ++ relationRows (ofTable tables table)).map (· ++ "\n")) ++
      (if Naming.pascal table.name == table.name then ""
      else "\n  @@map(\"" ++ table.name ++ "\")\n") ++ "\x7d"
  relationRows : List.Forall₂ (RelationRow table) relations (relationRows (ofTable tables table))

/-- The schema of the tables has their models, and each one shows the relations that go with
its table. -/
def Shows (tables : List Table) (relationsOf : Table → List Relation) : Prop :=
  text tables = paragraphs (tables.map fun table => modelText (ofTable tables table)) ∧
    ∀ table ∈ tables, ModelShows tables table (relationsOf table)

theorem relationFields_ofTable (tables : List Table) (table : Table) :
    (ofTable tables table).fields =
        table.columns.map columnField ++ relationFields (ofTable tables table) ∧
      List.Forall₂ (fun relation field => ∃ taken, FieldFor table taken relation field)
        (drawn tables table) (relationFields (ofTable tables table)) := by
  obtain ⟨added, hfields, hadds⟩ :=
    exists_adds table (table.columns.map columnField) (table.relationsWithin tables)
  rw [relationsWithin_eq, ← drawn] at hadds
  have hmodel : (ofTable tables table).fields = table.columns.map columnField ++ added := hfields
  have hcolumns : ∀ field ∈ table.columns.map columnField, ¬isRelationField field = true := by
    refine List.forall_mem_map.mpr fun column _ => ?_
    rw [isRelationField_columnField]
    exact Bool.false_ne_true
  have hadded : ∀ field ∈ added, isRelationField field = true := by
    intro field hfield
    obtain ⟨_, _, _, hfor⟩ := exists_of_forall₂ hadds.forall₂.flip field hfield
    exact isRelationField_of_fieldFor hfor
  have hrelations : relationFields (ofTable tables table) = added := by
    rw [relationFields, hmodel, List.filter_append, List.filter_eq_nil_iff.mpr hcolumns,
      List.filter_eq_self.mpr hadded, List.nil_append]
  rw [hrelations]
  exact ⟨hmodel, hadds.forall₂⟩

end PrismaModel

/-- Both tables of the link are among the given ones. -/
def Link.within (tables : List Table) (link : Link) : Bool :=
  (Table.names tables).contains link.owner && (Table.names tables).contains link.referenced

namespace Diagram

end Diagram

end Schemata.Document
