import Schemata.Proofs.Document.Imports
import Schemata.Target

/-!
Documents of two lists of tables put behind each other. Most documents write every table by
itself, so that the document of all tables is that of the first ones, an empty line, and that of
the others. A heading or a clause of imports comes only once, and a model depends on the other
tables through the relations that lead to them.
-/
namespace Schemata.Document

variable {a b : List Table}

theorem paragraphs_map_append (ha : a ≠ []) (hb : b ≠ []) (block : Table → String) :
    paragraphs ((a ++ b).map block) =
      paragraphs (a.map block) ++ "\n\n" ++ paragraphs (b.map block) := by
  rw [List.map_append]
  exact String.intercalate_append_of_ne_nil (List.map_eq_nil_iff.not.mpr ha)
    (List.map_eq_nil_iff.not.mpr hb)

/-- The documents that are nothing but the texts of the tables, each of its own. -/
def tableByTable : List Target := [.sql, .migration, .model, .typeScript]

theorem exists_block_of_mem {target : Target} (htarget : target ∈ tableByTable)
    (options : Options) :
    ∃ block : Table → String, ∀ tables,
      target.render options tables = paragraphs (tables.map block) := by
  simp only [tableByTable, List.mem_cons, List.not_mem_nil, or_false] at htarget
  rcases htarget with rfl | rfl | rfl | rfl
  · exact ⟨CreateTable.statement, fun _ => rfl⟩
  · exact ⟨Migration.ofTable, fun _ => rfl⟩
  · exact ⟨fun table => EloquentModel.classText options.modelNamespace
      (EloquentModel.ofTable table), fun _ => rfl⟩
  · exact ⟨Interface.ofTable, fun _ => rfl⟩

namespace Struct

/-- The structs of the tables, without what a file says before them. -/
def structs (tables : List Table) : String :=
  paragraphs (tables.map fun table => structText (ofTable table))

def importsOf (tables : List Table) : List String := imports (tables.map ofTable)

/-- A file of a package has a clause for its imports, structs, and the end of a line. -/
def IsFile (package : String) (paths : List String) (structs file : String) : Prop :=
  ∃ clause, ImportClause paths clause ∧
    file = "package " ++ package ++ "\n\n" ++ clause ++ structs ++ "\n"

theorem isFile_text (package : String) (tables : List Table) :
    IsFile package (importsOf tables) (structs tables) (text package tables) := by
  refine ⟨_, importClause_importText _, ?_⟩
  rw [text, List.map_map]
  rfl

theorem mem_importsOf_append (path : String) :
    path ∈ importsOf (a ++ b) ↔ path ∈ importsOf a ∨ path ∈ importsOf b := by
  simp only [importsOf, mem_imports_iff, emittedTypes, List.flatMap_append, List.mem_append,
    or_and_right, exists_or]

end Struct

namespace PrismaModel

/-- Relations of the first tables to one that is named like one of the others lead to one of the
first tables already. -/
def StaysInside (own other : List Table) : Prop :=
  ∀ table ∈ own, ∀ relation ∈ table.relations,
    relation.referencedTable ∈ Table.names other → relation.referencedTable ∈ Table.names own

/-- More tables change nothing for a model when its relations lead to none of them. -/
theorem ofTable_of_subset {own all : List Table} {table : Table}
    (hsub : Table.names own ⊆ Table.names all)
    (h : ∀ relation ∈ table.relations, relation.referencedTable ∈ Table.names all →
      relation.referencedTable ∈ Table.names own) :
    ofTable all table = ofTable own table := by
  have hsame : table.relationsWithin all = table.relationsWithin own := by
    refine List.filter_congr fun relation hrelation => ?_
    rw [Bool.eq_iff_iff, List.contains_iff_mem, List.contains_iff_mem]
    exact ⟨h relation hrelation, fun hown => hsub hown⟩
  rw [ofTable, ofTable, hsame]

theorem text_append (ha : a ≠ []) (hb : b ≠ []) (hfirst : StaysInside a b)
    (hsecond : StaysInside b a) : text (a ++ b) = text a ++ "\n\n" ++ text b := by
  have hnames : Table.names (a ++ b) = Table.names a ++ Table.names b := List.map_append
  have hleft : ∀ table ∈ a, modelText (ofTable (a ++ b) table) = modelText (ofTable a table) := by
    intro table htable
    rw [ofTable_of_subset (hnames ▸ List.subset_append_left _ _)]
    intro relation hrelation hmem
    rw [hnames, List.mem_append] at hmem
    exact hmem.elim id (hfirst table htable relation hrelation)
  have hright : ∀ table ∈ b, modelText (ofTable (a ++ b) table) = modelText (ofTable b table) := by
    intro table htable
    rw [ofTable_of_subset (hnames ▸ List.subset_append_right _ _)]
    intro relation hrelation hmem
    rw [hnames, List.mem_append] at hmem
    exact hmem.elim (hsecond table htable relation hrelation) id
  rw [text, paragraphs_map_append ha hb, List.map_congr_left hleft, List.map_congr_left hright]
  rfl

end PrismaModel

/-- The document of two lists of tables is put together from those of the lists. Where relations
stay in their list this is also so for models. -/
theorem render_append :
    ∀ (options : Options) (a b : List Table), a ≠ [] → b ≠ [] →
      (∀ target ∈ tableByTable, target.render options (a ++ b) =
        target.render options a ++ "\n\n" ++ target.render options b) ∧
      (∃ schemas, Target.zod.render options b = "import \x7b z \x7d from 'zod';\n\n" ++ schemas ∧
        Target.zod.render options (a ++ b) =
          Target.zod.render options a ++ "\n\n" ++ schemas) ∧
      ((∀ tables, Struct.IsFile options.goPackage (Struct.importsOf tables)
          (Struct.structs tables) (Target.go.render options tables)) ∧
        Struct.structs (a ++ b) = Struct.structs a ++ "\n\n" ++ Struct.structs b ∧
        (Struct.importsOf (a ++ b)).Pairwise (· < ·) ∧
        ∀ path, path ∈ Struct.importsOf (a ++ b) ↔
          path ∈ Struct.importsOf a ∨ path ∈ Struct.importsOf b) ∧
      (PrismaModel.StaysInside a b → PrismaModel.StaysInside b a →
        Target.prisma.render options (a ++ b) =
          Target.prisma.render options a ++ "\n\n" ++ Target.prisma.render options b) := by
  intro options a b ha hb
  refine ⟨fun target htarget => ?_, ⟨_, rfl, ?_⟩,
    ⟨Struct.isFile_text options.goPackage, paragraphs_map_append ha hb _,
      Struct.pairwise_imports _, fun _ => Struct.mem_importsOf_append _⟩,
    PrismaModel.text_append ha hb⟩
  · obtain ⟨block, hblock⟩ := exists_block_of_mem htarget options
    rw [hblock, hblock, hblock, paragraphs_map_append ha hb]
  · rw [Target.render, Validator.text, paragraphs_map_append ha hb]
    simp only [String.append_assoc]
    rfl

def postsAndUsers : List Table :=
  [ { name := "posts", columns := [Column.ofType "user_id" "int", Column.ofType "seen" "date"],
      relations := [⟨"user_id", "users", "id"⟩, ⟨"topic_id", "topics", "id"⟩] },
    { name := "users", columns := [Column.ofType "id" "int"] }]

def notesAndUsers : List Table :=
  [ { name := "users", columns := [{ Column.ofType "born" "date" with nullable := true }] },
    { name := "notes", columns := [Column.ofType "user_id" "int"],
      relations := [⟨"user_id", "users", "id"⟩, ⟨"note_id", "notes", "id"⟩] }]

/-- Both lists have a table of users, and each refers to its own. -/
theorem posts_and_notes_put_together :
    postsAndUsers ≠ [] ∧ notesAndUsers ≠ [] ∧
      PrismaModel.StaysInside postsAndUsers notesAndUsers ∧
      PrismaModel.StaysInside notesAndUsers postsAndUsers ∧
      (∀ target ∈ .prisma :: tableByTable, target.render {} (postsAndUsers ++ notesAndUsers) =
        target.render {} postsAndUsers ++ "\n\n" ++ target.render {} notesAndUsers) ∧
      "time" ∈ Struct.importsOf (postsAndUsers ++ notesAndUsers) ∧
      "database/sql" ∈ Struct.importsOf (postsAndUsers ++ notesAndUsers) := by
  have hposts : postsAndUsers ≠ [] := List.cons_ne_nil _ _
  have hnotes : notesAndUsers ≠ [] := List.cons_ne_nil _ _
  have hfirst : PrismaModel.StaysInside postsAndUsers notesAndUsers := by
    unfold PrismaModel.StaysInside
    decide +kernel
  have hsecond : PrismaModel.StaysInside notesAndUsers postsAndUsers := by
    unfold PrismaModel.StaysInside
    decide +kernel
  obtain ⟨hplain, _, ⟨_, _, _, himports⟩, hprisma⟩ :=
    render_append {} postsAndUsers notesAndUsers hposts hnotes
  refine ⟨hposts, hnotes, hfirst, hsecond, ?_, ?_, ?_⟩
  · exact List.forall_mem_cons.mpr ⟨hprisma hfirst hsecond, hplain⟩
  · exact (himports "time").mpr (Or.inl (by decide +kernel))
  · exact (himports "database/sql").mpr (Or.inr (by decide +kernel))

end Schemata.Document
