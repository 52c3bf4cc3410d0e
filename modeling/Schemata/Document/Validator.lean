import Schemata.Document.Layout
import Schemata.Document.Literal
import Schemata.Document.TypeNames
import Schemata.Naming
import Schemata.Table

/-!
Zod schemas, each followed by the type inferred from it.
-/
namespace Schemata.Document.Validator

def typeNames : TypeNames where
  entries := [(.integer, "z.number().int()"), (.float, "z.number()"), (.boolean, "z.boolean()"),
    (.temporal, "z.date()"), (.text, "z.string()"), (.json, "z.unknown()"),
    (.binary, "z.instanceof(Uint8Array)")]
  fallback := "z.string()"

def expression (column : Column) : String :=
  typeNames.name column.family ++ (if column.nullable then ".nullable()" else "")

def propertyLine (column : Column) : String :=
  "  " ++ propertyKey column.name ++ ": " ++ expression column ++ ",\n"

def ofTable (table : Table) : String :=
  let name := Naming.pascal table.name
  "export const " ++ name ++ "Schema = z.object(\x7b\n" ++
    String.join (table.columns.map propertyLine) ++ "\x7d);\n\n" ++
    "export type " ++ name ++ " = z.infer<typeof " ++ name ++ "Schema>;"

def heading : String := "import \x7b z \x7d from 'zod';\n\n"

def text (tables : List Table) : String := heading ++ paragraphs (tables.map ofTable)

end Schemata.Document.Validator
