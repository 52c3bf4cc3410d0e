import Mathlib.Data.List.Forall2
import Schemata.Document.Struct
import Schemata.Proofs.Document.Layout
import Schemata.Proofs.Document.Selections

/-!
Rows that line up. In a struct every row has its type at one offset and its tag at another; in a
Prisma model every row has its type at one offset, and its attributes at another when it has any.
The rows of a model are trimmed at the end, which takes nothing away: a row ends with attributes,
or with the type of a column, and neither ends with a blank.
-/
namespace Schemata.Document

namespace Struct

variable (struct : Struct)

/-- Where the types begin: behind the tab, the longest name and a space. -/
def typeOffset : Nat := 1 + (struct.nameWidth + 1)

def tagOffset : Nat := struct.typeOffset + (struct.typeWidth + 1)

variable {struct}

theorem isRow_rowText {field : StructField} (h : field ∈ struct.fields) :
    IsRow "\t" field.name
      [(struct.typeOffset, field.type), (struct.tagOffset, tag field.column)]
      (rowText struct.nameWidth struct.typeWidth field) := by
  have hname : field.name.length ≤ struct.nameWidth := length_le_widest (List.mem_map_of_mem h)
  have htype : field.type.length ≤ struct.typeWidth := length_le_widest (List.mem_map_of_mem h)
  have hrow := isRow_three "\t" hname htype (tag field.column)
  rwa [← String.append_assoc, ← String.append_assoc] at hrow

end Struct

namespace PrismaModel

open Text (endsInInk)

theorem endsInInk_attribute {column : Column} {text : String} (h : text ∈ attributes column) :
    endsInInk text.toList = true := by
  rcases attribute_cases h with rfl | rfl | ⟨value, _, rfl⟩ | ⟨n, rfl⟩
  · decide
  · decide
  · exact Text.endsInInk_toList_append _ (by decide)
  · exact Text.endsInInk_toList_append _ (by decide)

theorem endsInInk_intercalate {separator : List Char} {texts : List (List Char)} (hne : texts ≠ [])
    (h : ∀ text ∈ texts, endsInInk text = true) :
    endsInInk (separator.intercalate texts) = true := by
  induction texts with
  | nil => exact absurd rfl hne
  | cons text texts ih =>
    cases texts with
    | nil => simpa using h text List.mem_cons_self
    | cons next texts =>
      have hrest := ih (List.cons_ne_nil next texts) fun other hother =>
        h other (List.mem_cons_of_mem text hother)
      rw [List.intercalate_cons_cons]
      exact Text.endsInInk_append hrest _

theorem endsInInk_scalarName (type : ColumnType) (optional : Bool) :
    endsInInk (scalarName type ++ optionalMark optional).toList = true := by
  have hname : endsInInk (scalarName type).toList = true := by
    unfold scalarName
    split
    · decide
    · split
      · decide
      · cases type.family <;> decide
  cases optional with
  | false => simpa [optionalMark] using hname
  | true => exact Text.endsInInk_toList_append _ (by decide)

/-- What the row of a field ends with is no blank. -/
def EndsInInk (field : PrismaField) : Prop :=
  endsInInk (if field.attributes.isEmpty then field.type else field.attributes).toList = true

theorem endsInInk_columnField (column : Column) : EndsInInk (columnField column) := by
  unfold EndsInInk
  split
  · exact endsInInk_scalarName column.type column.nullable
  · rename_i hsome
    have hne : (attributes column).map String.toList ≠ [] := by
      intro hnone
      rw [List.map_eq_nil_iff] at hnone
      refine hsome ?_
      rw [columnField, hnone]
      rfl
    rw [columnField, String.toList_intercalate]
    refine endsInInk_intercalate hne fun text htext => ?_
    obtain ⟨word, hword, rfl⟩ := List.mem_map.mp htext
    exact endsInInk_attribute hword

theorem FieldFor.endsInInk {table : Table} {taken : List String} {relation : Relation}
    {field : PrismaField} (h : FieldFor table taken relation field) : EndsInInk field := by
  rw [EndsInInk, h.isEmpty_attributes, h.attributes_eq]
  exact Text.endsInInk_toList_append _ (by decide)

theorem endsInInk_of_mem {tables : List Table} {table : Table} {field : PrismaField}
    (h : field ∈ (ofTable tables table).fields) : EndsInInk field := by
  obtain ⟨hfields, hrelations⟩ := relationFields_ofTable tables table
  rw [hfields, List.mem_append] at h
  rcases h with hcolumn | hrelation
  · obtain ⟨column, _, rfl⟩ := List.mem_map.mp hcolumn
    exact endsInInk_columnField column
  · obtain ⟨_, _, _, hfor⟩ := exists_of_forall₂ hrelations.flip field hrelation
    exact hfor.endsInInk

/-- A row ends with what its field ends with, so that no blank is trimmed. -/
theorem trimEnd_rowText {field : PrismaField} (h : EndsInInk field) (nameWidth typeWidth : Nat) :
    Text.trimEnd (rowText nameWidth typeWidth field) = rowText nameWidth typeWidth field := by
  have hrow : endsInInk (rowText nameWidth typeWidth field).toList = true := by
    rw [EndsInInk] at h
    rw [rowText]
    refine Text.endsInInk_toList_append _ ?_
    split at h
    · rename_i hempty
      rw [if_pos hempty]
      exact h
    · rename_i hsome
      rw [if_neg hsome]
      exact Text.endsInInk_toList_append _ h
  exact Text.trimEnd_of_endsInInk hrow

section Offsets

variable (model : PrismaModel)

/-- Where the types begin: behind two spaces, the longest name and one more space. -/
def typeOffset : Nat := 2 + (model.nameWidth + 1)

def attributesOffset : Nat := model.typeOffset + (model.typeWidth + 1)

variable {model}

theorem isRow_rowText {field : PrismaField} (h : field ∈ model.fields) :
    IsRow "  " field.name
      ((model.typeOffset, field.type) ::
        if field.attributes.isEmpty then [] else [(model.attributesOffset, field.attributes)])
      (rowText model.nameWidth model.typeWidth field) := by
  have hname : field.name.length ≤ model.nameWidth := length_le_widest (List.mem_map_of_mem h)
  have htype : field.type.length ≤ model.typeWidth := length_le_widest (List.mem_map_of_mem h)
  rw [rowText]
  split
  · exact isRow_two "  " hname field.type
  · exact isRow_three "  " hname htype field.attributes

end Offsets

end PrismaModel

/-- The rows of a struct have their types at one offset and their tags at another, and the rows
of a model their types and, where there are any, their attributes. Every name, type, tag and
attribute is there in full, and nothing is trimmed from a row. -/
theorem rows_line_up (tables : List Table) (table : Table) :
    (∃ rows typeOffset tagOffset,
      Struct.structText (Struct.ofTable table) =
        "type " ++ Naming.pascal table.name ++ " struct \x7b\n" ++
          String.join (rows.map (· ++ "\n")) ++ "\x7d" ∧
      List.Forall₂ (fun column row => IsRow "\t" (Naming.pascal column.name)
        [(typeOffset, Struct.fieldType column), (tagOffset, Struct.tag column.name)] row)
        table.columns rows) ∧
    ∃ rows typeOffset attributesOffset,
      PrismaModel.modelText (PrismaModel.ofTable tables table) =
        "model " ++ Naming.pascal table.name ++ " \x7b\n" ++
          String.join (rows.map (· ++ "\n")) ++
          (if Naming.pascal table.name == table.name then ""
          else "\n  @@map(\"" ++ table.name ++ "\")\n") ++ "\x7d" ∧
      List.Forall₂ (fun field row => IsRow "  " field.name
        ((typeOffset, field.type) ::
          if field.attributes.isEmpty then [] else [(attributesOffset, field.attributes)]) row)
        (PrismaModel.ofTable tables table).fields rows ∧
      ∀ field ∈ (PrismaModel.ofTable tables table).fields, ∀ nameWidth typeWidth,
        Text.trimEnd (PrismaModel.rowText nameWidth typeWidth field) =
          PrismaModel.rowText nameWidth typeWidth field := by
  have htrim : ∀ field ∈ (PrismaModel.ofTable tables table).fields, ∀ nameWidth typeWidth,
      Text.trimEnd (PrismaModel.rowText nameWidth typeWidth field) =
        PrismaModel.rowText nameWidth typeWidth field :=
    fun _ hfield => PrismaModel.trimEnd_rowText (PrismaModel.endsInInk_of_mem hfield)
  have hfields : (Struct.ofTable table).fields = table.columns.map Struct.fieldOf := rfl
  refine ⟨⟨(Struct.ofTable table).rows, (Struct.ofTable table).typeOffset,
      (Struct.ofTable table).tagOffset, rfl, ?_⟩,
    (PrismaModel.ofTable tables table).rows, (PrismaModel.ofTable tables table).typeOffset,
    (PrismaModel.ofTable tables table).attributesOffset, rfl, ?_, htrim⟩
  · rw [Struct.rows, List.forall₂_map_right_iff, hfields, List.forall₂_map_right_iff,
      List.forall₂_same]
    intro column hcolumn
    exact Struct.isRow_rowText (hfields ▸ List.mem_map_of_mem hcolumn)
  · rw [PrismaModel.rows, List.forall₂_map_right_iff, List.forall₂_same]
    intro field hfield
    rw [htrim field hfield]
    exact PrismaModel.isRow_rowText hfield

end Schemata.Document
