import Schemata.Json.Value
import Schemata.Table

/-!
Tables as JSON values. Counts that a type does not have are left out, and everything else
is always present.
-/
namespace Schemata.Interchange

def optionalCount (key : String) : Option UInt32 → List (String × Json)
  | some n => [(key, .number (.natural n.toNat))]
  | none => []

def ofType (type : ColumnType) : Json :=
  .object ([("base", .string type.family.name), ("token", .string type.token)] ++
    optionalCount "length" type.length ++ optionalCount "precision" type.precision ++
    optionalCount "scale" type.scale ++ [("unsigned", .boolean type.unsigned)])

def ofOption : Option String → Json
  | some s => .string s
  | none => .null

def ofColumn (column : Column) : Json :=
  .object [("name", .string column.name),
    ("rawType", .string column.rawType),
    ("parsedType", ofType column.type),
    ("nullable", .boolean column.nullable),
    ("key", .string column.key.name),
    ("defaultValue", ofOption column.default?),
    ("autoIncrement", .boolean column.autoIncrement),
    ("extraFlags", .array (column.flags.toList.map .string))]

def ofRelation (relation : Relation) : Json :=
  .object [("sourceColumn", .string relation.column),
    ("referencedTable", .string relation.referencedTable),
    ("referencedColumn", .string relation.referencedColumn)]

def ofTable (table : Table) : Json :=
  .object [("name", .string table.name),
    ("columns", .array (table.columns.map ofColumn)),
    ("relations", .array (table.relations.map ofRelation))]

def ofTables (tables : List Table) : Json := .array (tables.map ofTable)

def text (tables : List Table) : String := (ofTables tables).document

end Schemata.Interchange
