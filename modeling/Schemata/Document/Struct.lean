import Schemata.Document.Layout
import Schemata.Document.TypeNames
import Schemata.Naming
import Schemata.Table
import Schemata.Text.Search

/-!
Go structs. A nullable column takes the wrapper of its family, or a pointer when there is
none. The file imports the packages that qualify some field type, and no others.
-/
namespace Schemata.Document

structure StructField where
  name : String
  type : String
  column : String
  deriving DecidableEq, Repr

structure Struct where
  name : String
  fields : List StructField
  deriving DecidableEq, Repr

namespace Struct

def typeNames : TypeNames where
  entries := [(.integer, "int64"), (.float, "float64"), (.boolean, "bool"),
    (.temporal, "time.Time"), (.text, "string"), (.json, "json.RawMessage"), (.binary, "[]byte")]
  fallback := "string"

def nullableNames : TypeNames where
  entries := [(.integer, "sql.NullInt64"), (.float, "sql.NullFloat64"),
    (.boolean, "sql.NullBool"), (.temporal, "sql.NullTime"), (.text, "sql.NullString"),
    (.unknown, "sql.NullString")]
  fallback := ""

def plainType (type : ColumnType) : String :=
  if type.family == .integer && type.unsigned then "uint64" else typeNames.name type.family

def fieldType (column : Column) : String :=
  if !column.nullable then plainType column.type
  else
    let wrapper := nullableNames.name column.family
    if wrapper.isEmpty then "*" ++ plainType column.type else wrapper

def fieldOf (column : Column) : StructField :=
  ⟨Naming.pascal column.name, fieldType column, column.name⟩

def ofTable (table : Table) : Struct := ⟨Naming.pascal table.name, table.columns.map fieldOf⟩

def packages : List (String × String) :=
  [("database/sql", "sql."), ("encoding/json", "json."), ("time", "time.")]

def imports (structs : List Struct) : List String :=
  let types := structs.flatMap fun struct => struct.fields.map (·.type)
  (packages.filter fun (_, qualifier) => types.any (Text.contains · qualifier)).map (·.1)

def importText : List String → String
  | [] => ""
  | [package] => "import \"" ++ package ++ "\"\n\n"
  | packages =>
    "import (\n" ++ String.join (packages.map fun package => "\t\"" ++ package ++ "\"\n") ++ ")\n\n"

def nameWidth (struct : Struct) : Nat := widest (struct.fields.map (·.name))

def typeWidth (struct : Struct) : Nat := widest (struct.fields.map (·.type))

def tag (column : String) : String :=
  "`db:\"" ++ column ++ "\" json:\"" ++ column ++ "\"`"

def rowText (nameWidth typeWidth : Nat) (field : StructField) : String :=
  "\t" ++ padded nameWidth field.name ++ " " ++ padded typeWidth field.type ++ " " ++
    tag field.column

def rows (struct : Struct) : List String :=
  struct.fields.map (rowText struct.nameWidth struct.typeWidth)

def structText (struct : Struct) : String :=
  "type " ++ struct.name ++ " struct \x7b\n" ++ String.join ((rows struct).map (· ++ "\n")) ++
    "\x7d"

def text (package : String) (tables : List Table) : String :=
  let structs := tables.map ofTable
  "package " ++ package ++ "\n\n" ++ importText (imports structs) ++
    paragraphs (structs.map structText) ++ "\n"

end Struct

end Schemata.Document
