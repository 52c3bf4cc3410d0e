import Schemata.Document.Layout
import Schemata.Document.Literal
import Schemata.Document.TypeNames
import Schemata.Naming
import Schemata.Table

/-!
TypeScript interfaces, with one property for each column.
-/
namespace Schemata.Document.Interface

def typeNames : TypeNames where
  entries := [(.integer, "number"), (.float, "number"), (.boolean, "boolean"),
    (.temporal, "Date"), (.text, "string"), (.json, "unknown"), (.binary, "Uint8Array")]
  fallback := "string"

def propertyType (column : Column) : String :=
  typeNames.name column.family ++ (if column.nullable then " | null" else "")

def propertyLine (column : Column) : String :=
  "    " ++ propertyKey column.name ++ ": " ++ propertyType column ++ ";\n"

def ofTable (table : Table) : String :=
  "export interface " ++ Naming.pascal table.name ++ " \x7b\n" ++
    String.join (table.columns.map propertyLine) ++ "\x7d"

def text (tables : List Table) : String := paragraphs (tables.map ofTable)

end Schemata.Document.Interface
