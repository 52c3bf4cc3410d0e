import Schemata.Document.Struct
import Schemata.Proofs.Document.Layout
import Schemata.Proofs.Text.Reader

/-!
The imports of a file of structs. What a struct shows of its fields is read from its text, when
the names of the table and its columns are known, which may hold any text. The types that
are read there name the packages they are from, and these are the packages that the
file imports.
-/
namespace Schemata.Document.Struct

/-- The package before the dot of a type, which may be a pointer or a slice. -/
def qualifier? (type : String) : Option String :=
  (Text.cut ['.'] (type.toList.dropWhile fun c => "*[]".toList.contains c)).map
    fun (package, _) => String.ofList package

/-- The paths of packages with the names that qualify their types. -/
def standardPackages : List (String × String) :=
  [("database/sql", "sql"), ("encoding/json", "json"), ("time", "time")]

/-- Imports are left out, stand on one line, or stand in a block when there are several. -/
inductive ImportClause : List String → String → Prop
  | none : ImportClause [] ""
  | line (path : String) : ImportClause [path] ("import \"" ++ path ++ "\"\n\n")
  | block (first second : String) (more : List String) :
      ImportClause (first :: second :: more)
        ("import (\n" ++ String.join ((first :: second :: more).map ("\t\"" ++ · ++ "\"\n")) ++
          ")\n\n")

theorem importClause_importText (paths : List String) : ImportClause paths (importText paths) := by
  match paths with
  | [] => exact .none
  | [path] => exact .line path
  | first :: second :: more => exact .block first second more

def dropSpaces (s : List Char) : List Char := s.dropWhile (· == ' ')

/-- The type in the row of a field: the only word between the name and the tag. -/
def readType (column : Column) (s : List Char) : Option (String × List Char) := do
  let rest ← Text.after? ("\t" ++ Naming.pascal column.name) s
  let type := (dropSpaces rest).takeWhile (· != ' ')
  let rest := (dropSpaces rest).dropWhile (· != ' ')
  let rest ← Text.after? (tag column.name ++ "\n") (dropSpaces rest)
  return (String.ofList type, rest)

def readRows : List Column → List Char → Option (List String × List Char)
  | [], s => some ([], s)
  | column :: columns, s => do
    let (type, rest) ← readType column s
    let (types, rest) ← readRows columns rest
    return (type :: types, rest)

/-- The types of the fields of a struct, from its text. -/
def readTypes (table : Table) (text : String) : Option (List String) := do
  let rest ← Text.after? ("type " ++ Naming.pascal table.name ++ " struct \x7b\n") text.toList
  let (types, rest) ← readRows table.columns rest
  if rest = ['\x7d'] then some types else none

/-- All types that fields can have. -/
def possibleTypes : List String :=
  ["int64", "uint64", "float64", "bool", "time.Time", "string", "json.RawMessage", "[]byte",
    "sql.NullInt64", "sql.NullFloat64", "sql.NullBool", "sql.NullTime", "sql.NullString",
    "*json.RawMessage", "*[]byte"]

theorem fieldType_mem_possibleTypes (column : Column) : fieldType column ∈ possibleTypes := by
  unfold fieldType plainType Column.family
  cases column.nullable <;> cases column.type.family <;> cases column.type.unsigned <;> decide

/-- A type is one word, and the mark that the imports look for is in it just when it is from the
package. -/
theorem of_mem_possibleTypes {type : String} (h : type ∈ possibleTypes) :
    (type ≠ "" ∧ ' ' ∉ type.toList) ∧
      (∀ package ∈ standardPackages,
        Text.contains type (package.2 ++ ".") = true ↔ qualifier? type = some package.2) ∧
      ∀ name, qualifier? type = some name → name ∈ standardPackages.map (·.2) := by
  have hwords : ∀ type ∈ possibleTypes, type ≠ "" ∧ ' ' ∉ type.toList := by decide +kernel
  have hmarks : ∀ type ∈ possibleTypes, ∀ package ∈ standardPackages,
      Text.contains type (package.2 ++ ".") = true ↔ qualifier? type = some package.2 := by
    decide +kernel
  have hnames : ∀ type ∈ possibleTypes, ∀ name ∈ qualifier? type,
      name ∈ standardPackages.map (·.2) := by
    decide +kernel
  exact ⟨hwords type h, hmarks type h, hnames type h⟩

theorem dropSpaces_gap (n : Nat) {s : List Char} (h : s.head? ≠ some ' ') :
    dropSpaces (' ' :: (List.replicate n ' ' ++ s)) = s := by
  have hspaces : ∀ c ∈ List.replicate (n + 1) ' ', (c == ' ') = true := by
    intro c hc
    rw [List.eq_of_mem_replicate hc]
    rfl
  rw [dropSpaces, ← List.cons_append, ← List.replicate_succ, List.dropWhile_append_of_pos hspaces]
  cases s with
  | nil => rfl
  | cons c s =>
    rw [List.dropWhile_cons_of_neg]
    simpa using h

/-- A word ends before the first space behind it. -/
theorem word_append {word : List Char} (h : ' ' ∉ word) (rest : List Char) :
    (word ++ ' ' :: rest).takeWhile (· != ' ') = word ∧
      (word ++ ' ' :: rest).dropWhile (· != ' ') = ' ' :: rest := by
  have hword : ∀ c ∈ word, (c != ' ') = true := by
    intro c hc
    rw [bne_iff_ne]
    rintro rfl
    exact h hc
  rw [List.takeWhile_append_of_pos hword, List.dropWhile_append_of_pos hword]
  exact ⟨List.append_nil word, rfl⟩

theorem readType_rowText (nameWidth typeWidth : Nat) (column : Column) (rest : List Char) :
    readType column ((rowText nameWidth typeWidth (fieldOf column) ++ "\n").toList ++ rest) =
      some (fieldType column, rest) := by
  obtain ⟨⟨hne, hspace⟩, _⟩ := of_mem_possibleTypes (fieldType_mem_possibleTypes column)
  have hrow : (rowText nameWidth typeWidth (fieldOf column) ++ "\n").toList ++ rest =
      ("\t" ++ Naming.pascal column.name).toList ++
        ' ' :: (List.replicate (nameWidth - (Naming.pascal column.name).length) ' ' ++
        ((fieldType column).toList ++
          ' ' :: (List.replicate (typeWidth - (fieldType column).length) ' ' ++
          ((tag column.name ++ "\n").toList ++ rest)))) := by
    simp only [rowText, fieldOf, String.toList_append, List.append_assoc]
    change "\t".toList ++ ((padded nameWidth (Naming.pascal column.name)).toList ++ ' ' ::
      ((padded typeWidth (fieldType column)).toList ++ ' ' :: _)) = _
    rw [padded_append, padded_append]
    rfl
  have htype (s : List Char) : ((fieldType column).toList ++ s).head? ≠ some ' ' := by
    obtain ⟨c, word, hword⟩ := List.exists_cons_of_ne_nil (String.toList_eq_nil_iff.not.mpr hne)
    rw [hword] at hspace ⊢
    intro hhead
    exact hspace (Option.some.inj hhead ▸ List.mem_cons_self)
  have htag (s : List Char) : ((tag column.name ++ "\n").toList ++ s).head? ≠ some ' ' := by
    simp [tag]
  rw [readType, hrow]
  simp only [Text.after_append, Option.bind_eq_bind, Option.bind_some, dropSpaces_gap _ (htype _),
    word_append hspace, dropSpaces_gap _ (htag _), String.ofList_toList, Option.pure_def]

/-- The rows are read one after another, whatever widths they are padded to. -/
theorem readRows_rowTexts (nameWidth typeWidth : Nat) (columns : List Column) (rest : List Char) :
    readRows columns ((String.join ((columns.map fieldOf).map
      fun field => rowText nameWidth typeWidth field ++ "\n")).toList ++ rest) =
        some (columns.map fieldType, rest) := by
  induction columns with
  | nil => rfl
  | cons column columns ih =>
    rw [List.map_cons, List.map_cons, String.join_cons, String.toList_append, List.append_assoc,
      readRows, readType_rowText]
    simp only [Option.bind_eq_bind, Option.bind_some, ih, Option.pure_def, List.map_cons]

theorem readTypes_structText (table : Table) :
    readTypes table (structText (ofTable table)) = some (table.columns.map fieldType) := by
  have htext : (structText (ofTable table)).toList =
      ("type " ++ Naming.pascal table.name ++ " struct \x7b\n").toList ++
        ((String.join ((table.columns.map fieldOf).map fun field =>
          rowText (ofTable table).nameWidth (ofTable table).typeWidth field ++ "\n")).toList ++
            ['\x7d']) := by
    simp only [structText, rows, ofTable, List.map_map, String.toList_append, List.append_assoc]
    rfl
  rw [readTypes, htext]
  simp only [Text.after_append, Option.bind_eq_bind, Option.bind_some, readRows_rowTexts, if_true]

/-- The types that are read from the structs of the tables. -/
def emittedTypes (tables : List Table) : List String :=
  tables.flatMap fun table => (readTypes table (structText (ofTable table))).getD []

theorem emittedTypes_eq (tables : List Table) :
    emittedTypes tables =
      (tables.map ofTable).flatMap fun struct => struct.fields.map (·.type) := by
  rw [emittedTypes, List.flatMap_map]
  refine congrArg (tables.flatMap ·) (funext fun table => ?_)
  rw [readTypes_structText, ofTable, List.map_map]
  rfl

theorem mem_possibleTypes_of_emitted {tables : List Table} {type : String}
    (h : type ∈ emittedTypes tables) : type ∈ possibleTypes := by
  obtain ⟨table, _, htype⟩ := List.mem_flatMap.mp h
  rw [readTypes_structText, Option.getD_some] at htype
  obtain ⟨column, _, rfl⟩ := List.mem_map.mp htype
  exact fieldType_mem_possibleTypes column

theorem packages_eq :
    packages = standardPackages.map fun package => (package.1, package.2 ++ ".") := by
  decide

theorem mem_imports_iff (tables : List Table) (path : String) :
    path ∈ imports (tables.map ofTable) ↔
      ∃ type ∈ emittedTypes tables, ∃ name,
        qualifier? type = some name ∧ (path, name) ∈ standardPackages := by
  have hqualified {package : String × String} (hpackage : package ∈ standardPackages)
      {type : String} (htype : type ∈ emittedTypes tables) :
      Text.contains type (package.2 ++ ".") = true ↔ qualifier? type = some package.2 :=
    (of_mem_possibleTypes (mem_possibleTypes_of_emitted htype)).2.1 package hpackage
  have hfiltered : path ∈ imports (tables.map ofTable) ↔
      ∃ package ∈ standardPackages,
        (∃ type ∈ emittedTypes tables, Text.contains type (package.2 ++ ".") = true) ∧
          package.1 = path := by
    rw [imports, ← emittedTypes_eq, packages_eq]
    simp only [List.filter_map, List.map_map, List.mem_map, List.mem_filter, Function.comp_apply,
      List.any_eq_true, and_assoc]
  rw [hfiltered]
  constructor
  · rintro ⟨package, hpackage, ⟨type, htype, hcontains⟩, rfl⟩
    exact ⟨type, htype, package.2, (hqualified hpackage htype).mp hcontains, hpackage⟩
  · rintro ⟨type, htype, name, hname, hpackage⟩
    exact ⟨_, hpackage, ⟨type, htype, (hqualified hpackage htype).mpr hname⟩, rfl⟩

theorem qualifies_iff (tables : List Table) (name : String) :
    (∃ type ∈ emittedTypes tables, qualifier? type = some name) ↔
      ∃ path ∈ imports (tables.map ofTable), (path, name) ∈ standardPackages := by
  have hpaths : ∀ one ∈ standardPackages, ∀ other ∈ standardPackages,
      one.1 = other.1 → one = other := by
    decide
  constructor
  · rintro ⟨type, htype, hname⟩
    obtain ⟨_, _, hstandard⟩ := of_mem_possibleTypes (mem_possibleTypes_of_emitted htype)
    obtain ⟨⟨path, _⟩, hpackage, rfl⟩ := List.mem_map.mp (hstandard name hname)
    exact ⟨path, (mem_imports_iff tables path).mpr ⟨type, htype, _, hname, hpackage⟩, hpackage⟩
  · rintro ⟨path, hpath, hpackage⟩
    obtain ⟨type, htype, other, hother, hsame⟩ := (mem_imports_iff tables path).mp hpath
    have heq := hpaths _ hsame _ hpackage rfl
    exact ⟨type, htype, (Prod.mk.inj heq).2 ▸ hother⟩

theorem pairwise_imports (structs : List Struct) : (imports structs).Pairwise (· < ·) := by
  have hpaths : (packages.map (·.1)).Pairwise (· < ·) := by decide
  exact hpaths.sublist (List.filter_sublist.map _)

/-- A file imports the packages that the types in its structs are from, each one once and in
order, in the form that goes with their number, and no type is from a package that is not
imported. -/
theorem imports_qualify_types (package : String) (tables : List Table) :
    (∃ clause, ImportClause (imports (tables.map ofTable)) clause ∧
      text package tables = "package " ++ package ++ "\n\n" ++ clause ++
        paragraphs (tables.map fun table => structText (ofTable table)) ++ "\n") ∧
      (∀ table, readTypes table (structText (ofTable table)) =
        some (table.columns.map fieldType)) ∧
      (imports (tables.map ofTable)).Pairwise (· < ·) ∧
      (∀ path, path ∈ imports (tables.map ofTable) ↔
        ∃ type ∈ emittedTypes tables, ∃ name,
          qualifier? type = some name ∧ (path, name) ∈ standardPackages) ∧
      ∀ name, (∃ type ∈ emittedTypes tables, qualifier? type = some name) ↔
        ∃ path ∈ imports (tables.map ofTable), (path, name) ∈ standardPackages := by
  refine ⟨⟨_, importClause_importText _, ?_⟩, readTypes_structText, pairwise_imports _,
    mem_imports_iff tables, qualifies_iff tables⟩
  rw [text, List.map_map]
  rfl

/-- A wrapped time is from another package than a bare one. -/
example : imports [ofTable { name := "visits", columns := [
      { Column.ofType "seen" "datetime" with nullable := true },
      Column.ofType "opened" "time" ] }] = ["database/sql", "time"] := by
  decide +kernel

end Schemata.Document.Struct
