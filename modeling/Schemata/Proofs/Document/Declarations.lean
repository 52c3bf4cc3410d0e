import Schemata.Proofs.Document.EloquentClass
import Schemata.Proofs.Document.Imports
import Schemata.Proofs.Naming
import Schemata.Target

/-!
The types that documents declare. Five kinds of documents write every table as a block that
declares a type for it. The name of the type is read from the text of the block, and for
canonical names it is the pascal form, so that tables with different names get types with
different names. The fields of a struct keep the columns of a table apart in the same way.
-/
namespace Schemata.Document

open Naming Text

/-- The letters and digits of ASCII that a text begins with. -/
def identifier (s : List Char) : String := String.ofList (s.takeWhile Char.isAlphanum)

def identifierAfter? (word : String) (s : List Char) : Option String :=
  (after? word s).map identifier

/-- The name of the type that a block of the document declares. An inferred type stands on the
last line of its block, and a class stands behind its namespace and its imports. -/
def declaredName? (options : Options) (target : Target) (block : String) : Option String :=
  match target with
  | .typeScript => identifierAfter? "export interface " block.toList
  | .zod => do
    let (_, line) ← cutLast '\n' block.toList
    identifierAfter? "export type " line
  | .go => identifierAfter? "type " block.toList
  | .prisma => identifierAfter? "model " block.toList
  | .model => do
    let rest ← after? ("<?php\n\nnamespace " ++ options.modelNamespace ++ ";\n\n") block.toList
    let (_, rest) ← EloquentModel.readImports rest
    identifierAfter? "\nclass " rest
  | _ => none

/-- The name of the field in a row of a struct. -/
def fieldName? (row : String) : Option String := identifierAfter? "\t" row.toList

theorem identifier_append {word behind : String} (h : ∀ c ∈ word.toList, c.isAlphanum = true)
    (hbehind : behind.toList.head?.any (!·.isAlphanum) = true) (rest : List Char) :
    identifier (word.toList ++ (behind.toList ++ rest)) = word := by
  have hend : (behind.toList ++ rest).takeWhile Char.isAlphanum = [] := by
    cases hchars : behind.toList with
    | nil =>
      rw [hchars] at hbehind
      cases hbehind
    | cons c chars =>
      rw [hchars] at hbehind
      rw [List.cons_append, List.takeWhile_cons_of_neg]
      simpa using hbehind
  rw [identifier, List.takeWhile_append_of_pos h, hend, List.append_nil, String.ofList_toList]

theorem identifierAfter_append {word name behind : String}
    (h : ∀ c ∈ name.toList, c.isAlphanum = true)
    (hbehind : behind.toList.head?.any (!·.isAlphanum) = true) (rest : List Char) :
    identifierAfter? word (word.toList ++ (name.toList ++ (behind.toList ++ rest))) =
      some name := by
  rw [identifierAfter?, after_append, Option.map_some, identifier_append h hbehind]

section Blocks

variable {table : Table} (h : Canonical table.name)
include h

theorem declaredName_interface (options : Options) :
    declaredName? options .typeScript (Interface.ofTable table) = some (pascal table.name) := by
  change identifierAfter? "export interface " (Interface.ofTable table).toList = _
  unfold Interface.ofTable
  simp only [String.toList_append, List.append_assoc]
  exact identifierAfter_append (isAlphanum_pascal h) (by decide) _

theorem declaredName_struct (options : Options) :
    declaredName? options .go (Struct.structText (Struct.ofTable table)) =
      some (pascal table.name) := by
  change identifierAfter? "type " (Struct.structText (Struct.ofTable table)).toList = _
  unfold Struct.structText Struct.ofTable
  simp only [String.toList_append, List.append_assoc]
  exact identifierAfter_append (isAlphanum_pascal h) (by decide) _

theorem declaredName_prisma (options : Options) (tables : List Table) :
    declaredName? options .prisma (PrismaModel.modelText (PrismaModel.ofTable tables table)) =
      some (pascal table.name) := by
  change identifierAfter? "model "
    (PrismaModel.modelText (PrismaModel.ofTable tables table)).toList = _
  unfold PrismaModel.modelText
  simp only [String.toList_append, List.append_assoc]
  exact identifierAfter_append (isAlphanum_pascal h) (by decide) _

/-- The last line of a schema has no other name in it, and so no line break. -/
theorem declaredName_schema (options : Options) :
    declaredName? options .zod (Validator.ofTable table) = some (pascal table.name) := by
  have halnum := isAlphanum_pascal h
  have hname : '\n' ∉ (pascal table.name).toList := fun hmem => absurd (halnum _ hmem) (by decide)
  obtain ⟨line, hlineText⟩ : ∃ line, line = "export type ".toList ++ ((pascal table.name).toList ++
    (" = z.infer<typeof ".toList ++ ((pascal table.name).toList ++ "Schema>;".toList))) := ⟨_, rfl⟩
  have hline : '\n' ∉ line := by
    simp [hlineText, hname]
  obtain ⟨before, htext⟩ : ∃ before, (Validator.ofTable table).toList = before ++ '\n' :: line := by
    have hbreak : "\x7d);\n\n".toList = "\x7d);\n".toList ++ ['\n'] := by decide
    unfold Validator.ofTable
    simp only [String.toList_append, List.append_assoc, hbreak, List.cons_append]
    rw [← hlineText]
    simp only [← List.append_assoc]
    exact ⟨_, rfl⟩
  have hreader (block : String) : declaredName? options .zod block =
      (cutLast '\n' block.toList).bind fun (_, line) => identifierAfter? "export type " line := rfl
  rw [hreader, htext, cutLast_append hline, Option.bind_some, hlineText]
  exact identifierAfter_append halnum (by decide) _

theorem declaredName_class (options : Options) :
    declaredName? options .model (EloquentModel.classText options.modelNamespace
      (EloquentModel.ofTable table)) = some (pascal table.name) := by
  have hreader (block : String) : declaredName? options .model block =
      (after? ("<?php\n\nnamespace " ++ options.modelNamespace ++ ";\n\n") block.toList).bind
        fun rest => (EloquentModel.readImports rest).bind
          fun (_, rest) => identifierAfter? "\nclass " rest := rfl
  rw [hreader, EloquentModel.toList_classText, after_append, Option.bind_some]
  simp only [String.toList_append, List.append_assoc]
  rw [EloquentModel.readImports_append _ (List.prefix_append _ _), Option.bind_some]
  exact identifierAfter_append (isAlphanum_pascal h) (by decide) _

end Blocks

theorem fieldName_rowText {column : Column} (h : Canonical column.name)
    (nameWidth typeWidth : Nat) :
    fieldName? (Struct.rowText nameWidth typeWidth (Struct.fieldOf column)) =
      some (pascal column.name) := by
  rw [fieldName?, Struct.rowText]
  simp only [String.toList_append, List.append_assoc]
  change identifierAfter? "\t" ("\t".toList ++ ((padded nameWidth _).toList ++ ' ' :: _)) = _
  rw [padded_append]
  have hspace (s : List Char) : ' ' :: s = " ".toList ++ s := rfl
  rw [hspace]
  exact identifierAfter_append (isAlphanum_pascal h) (by decide) _

/-- What a document says before the texts of the tables. -/
def headingOf (options : Options) (tables : List Table) : Target → String
  | .zod => Validator.heading
  | .go => "package " ++ options.goPackage ++ "\n\n" ++
      Struct.importText (Struct.imports (tables.map Struct.ofTable))
  | _ => ""

/-- The text that a document puts a table into. -/
def blockOf (options : Options) (tables : List Table) (target : Target) (table : Table) : String :=
  match target with
  | .typeScript => Interface.ofTable table
  | .zod => Validator.ofTable table
  | .go => Struct.structText (Struct.ofTable table)
  | .prisma => PrismaModel.modelText (PrismaModel.ofTable tables table)
  | .model => EloquentModel.classText options.modelNamespace (EloquentModel.ofTable table)
  | _ => ""

/-- The documents that declare a type for each table. -/
def declaring : List Target := [.typeScript, .zod, .go, .prisma, .model]

theorem render_eq_blocks (options : Options) (tables : List Table) {target : Target}
    (htarget : target ∈ declaring) :
    target.render options tables = headingOf options tables target ++
      paragraphs (tables.map (blockOf options tables target)) ++
        if target = .go then "\n" else "" := by
  have hplain (text : String) : text = "" ++ text ++ "" := by
    rw [String.empty_append, String.append_empty]
  simp only [declaring, List.mem_cons, List.not_mem_nil, or_false] at htarget
  rcases htarget with rfl | rfl | rfl | rfl | rfl
  · exact hplain (Interface.text tables)
  · exact String.append_empty.symm
  · rw [Target.render, Struct.text, List.map_map]
    rfl
  · exact hplain (PrismaModel.text tables)
  · exact hplain (EloquentModel.text options.modelNamespace tables)

theorem declaredName_blockOf (options : Options) (tables : List Table) {target : Target}
    (htarget : target ∈ declaring) {table : Table} (h : Canonical table.name) :
    declaredName? options target (blockOf options tables target table) =
      some (pascal table.name) := by
  simp only [declaring, List.mem_cons, List.not_mem_nil, or_false] at htarget
  rcases htarget with rfl | rfl | rfl | rfl | rfl
  · exact declaredName_interface h options
  · exact declaredName_schema h options
  · exact declaredName_struct h options
  · exact declaredName_prisma h options tables
  · exact declaredName_class h options

/-- Items with different canonical names have different names once these are capitalised. -/
theorem nodup_map_some_pascal {α : Type} {items : List α} {name : α → String}
    (hnames : (items.map name).Nodup) (h : ∀ item ∈ items, Canonical (name item)) :
    (items.map fun item => some (pascal (name item))).Nodup := by
  have hapart := nodup_map_pascal hnames (List.forall_mem_map.mpr h)
  rw [List.map_map] at hapart
  have hread := hapart.map (Option.some_injective String)
  rwa [List.map_map] at hread

theorem fieldNames_rows {table : Table} (h : ∀ column ∈ table.columns, Canonical column.name) :
    (Struct.rows (Struct.ofTable table)).map fieldName? =
      table.columns.map fun column => some (pascal column.name) := by
  have hfields : (Struct.ofTable table).fields = table.columns.map Struct.fieldOf := rfl
  rw [Struct.rows, hfields, List.map_map, List.map_map]
  refine List.map_congr_left fun column hcolumn => ?_
  simp only [Function.comp_apply, fieldName_rowText (h column hcolumn)]

/-- Canonical names are known by their pascal forms and by their camel forms. So the types that
a document declares for tables with different names have different names, and so have the
fields of a struct for columns with different names. -/
theorem canonical_names_stay_apart :
    Set.InjOn pascal {name | Canonical name} ∧ Set.InjOn camel {name | Canonical name} ∧
      (∀ (options : Options) (tables : List Table), (tables.map (·.name)).Nodup →
        (∀ table ∈ tables, Canonical table.name) → ∀ target ∈ declaring,
          target.render options tables = headingOf options tables target ++
            paragraphs (tables.map (blockOf options tables target)) ++
              (if target = .go then "\n" else "") ∧
          (∀ table ∈ tables, declaredName? options target (blockOf options tables target table) =
            some (pascal table.name)) ∧
          (tables.map fun table =>
            declaredName? options target (blockOf options tables target table)).Nodup) ∧
      ∀ table : Table, (table.columns.map (·.name)).Nodup →
        (∀ column ∈ table.columns, Canonical column.name) →
          (Struct.rows (Struct.ofTable table)).map fieldName? =
            table.columns.map (fun column => some (pascal column.name)) ∧
          ((Struct.rows (Struct.ofTable table)).map fieldName?).Nodup := by
  refine ⟨pascal_injOn, camel_injOn, ?_, ?_⟩
  · intro options tables hnames hcanonical target htarget
    have hdeclared : ∀ table ∈ tables,
        declaredName? options target (blockOf options tables target table) =
          some (pascal table.name) :=
      fun table htable => declaredName_blockOf options tables htarget (hcanonical table htable)
    refine ⟨render_eq_blocks options tables htarget, hdeclared, ?_⟩
    rw [List.map_congr_left hdeclared]
    exact nodup_map_some_pascal hnames hcanonical
  · intro table hnames hcanonical
    refine ⟨fieldNames_rows hcanonical, ?_⟩
    rw [fieldNames_rows hcanonical]
    exact nodup_map_some_pascal hnames hcanonical

/-- Names with the same letters, in segments that a digit or a single letter tells apart. -/
def orders : List Table :=
  ["order", "order2", "o_rder2", "order_item", "orderitem"].map fun name =>
    { name, columns := ["id", "order_id", "orderid", "a1", "a_b1"].map (Column.ofType · "int") }

theorem orders_stay_apart :
    (orders.map (·.name)).Nodup ∧ (∀ table ∈ orders, Canonical table.name) ∧
      (∀ target ∈ declaring, (orders.map fun table =>
        declaredName? {} target (blockOf {} orders target table)).Nodup) ∧
      ∀ table ∈ orders, (Struct.rows (Struct.ofTable table)).map fieldName? =
        ["Id", "OrderId", "Orderid", "A1", "AB1"].map some := by
  have hnames : (orders.map (·.name)).Nodup := by decide
  have hcanonical : ∀ table ∈ orders, Canonical table.name := by decide +kernel
  have hcolumns : ∀ table ∈ orders, (table.columns.map (·.name)).Nodup ∧
      ∀ column ∈ table.columns, Canonical column.name := by decide +kernel
  have hfields : ∀ table ∈ orders, (table.columns.map fun column => some (pascal column.name)) =
      ["Id", "OrderId", "Orderid", "A1", "AB1"].map some := by decide +kernel
  obtain ⟨_, _, htypes, hrows⟩ := canonical_names_stay_apart
  refine ⟨hnames, hcanonical, fun target htarget => ?_, fun table htable => ?_⟩
  · exact (htypes {} orders hnames hcanonical target htarget).2.2
  · obtain ⟨hunique, hsegments⟩ := hcolumns table htable
    rw [← hfields table htable]
    exact (hrows table hunique hsegments).1

end Schemata.Document
