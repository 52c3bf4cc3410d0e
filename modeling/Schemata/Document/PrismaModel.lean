import Schemata.Document.Layout
import Schemata.Document.Literal
import Schemata.Document.TypeNames
import Schemata.Naming
import Schemata.Table

/-!
Prisma models. Each column is a field, and each relation to a table of the same schema is
one more field, under a name that no earlier field of the model has.
-/
namespace Schemata.Document

structure PrismaField where
  name : String
  type : String
  attributes : String
  deriving DecidableEq, Repr

structure PrismaModel where
  name : String
  tableName : String
  fields : List PrismaField
  deriving DecidableEq, Repr

namespace PrismaModel

def typeNames : TypeNames where
  entries := [(.integer, "Int"), (.float, "Float"), (.boolean, "Boolean"),
    (.temporal, "DateTime"), (.text, "String"), (.json, "Json"), (.binary, "Bytes")]
  fallback := "String"

def scalarName (type : ColumnType) : String :=
  if type.family == .integer && ["bigint", "bigserial"].contains type.token then "BigInt"
  else if type.family == .float && type.isDecimal then "Decimal"
  else typeNames.name type.family

def booleanDefault? (word : String) : Option String :=
  match Text.lower word with
  | "1" | "true" => some "true"
  | "0" | "false" => some "false"
  | _ => none

/-- What the schema language can say of a default. Other defaults are left to the database. -/
def defaultValue? (family : Family) (value : String) : Option String :=
  match family with
  | .integer | .float => if isNumber (Text.trim value) then some (Text.trim value) else none
  | .boolean => booleanDefault? (Text.trim value)
  | .text => some (doubleQuoted value)
  | _ => none

def defaultArgument? (column : Column) : Option String :=
  if column.autoIncrement then some "autoincrement()"
  else if column.defaultsToNow then some "now()"
  else column.default?.bind (defaultValue? column.family)

def attributes (column : Column) : List String :=
  (if column.key == .primary then ["@id"] else []) ++
    (if column.key == .unique then ["@unique"] else []) ++
    ((defaultArgument? column).map fun value => "@default(" ++ value ++ ")").toList ++
    (if column.type.token == "varchar" then
      (column.type.length.map fun n => "@db.VarChar(" ++ toString n ++ ")").toList
    else [])

def optionalMark (optional : Bool) : String := if optional then "?" else ""

def columnField (column : Column) : PrismaField where
  name := column.name
  type := scalarName column.type ++ optionalMark column.nullable
  attributes := String.intercalate " " (attributes column)

/-- The column without its id ending, unless nothing else is left of it. -/
def relationBase (relation : Relation) : String :=
  let name := relation.column.toList
  let ending := "_id".toList
  if ending.isSuffixOf name && ending.length < name.length then
    String.ofList (name.take (name.length - ending.length))
  else relation.referencedTable

/-- As many endings as it takes to be free. One try for each taken name is enough, because
the tries differ in length. -/
def freeName (taken : List String) : Nat → String → String
  | 0, name => name
  | tries + 1, name => if taken.contains name then freeName taken tries (name ++ "Rel") else name

def relationField (table : Table) (taken : List String) (relation : Relation) : PrismaField where
  name := freeName taken taken.length (Naming.camel (relationBase relation))
  type := Naming.pascal relation.referencedTable ++
    optionalMark ((table.column? relation.column).any (·.nullable))
  attributes := "@relation(fields: [" ++ relation.column ++ "], references: [" ++
    relation.referencedColumn ++ "], onDelete: Cascade)"

def withRelations (table : Table) (fields : List PrismaField) : List Relation → List PrismaField
  | [] => fields
  | relation :: rest =>
    withRelations table
      (fields ++ [relationField table (fields.map (·.name)) relation]) rest

def ofTable (tables : List Table) (table : Table) : PrismaModel where
  name := Naming.pascal table.name
  tableName := table.name
  fields := withRelations table (table.columns.map columnField) (table.relationsWithin tables)

def nameWidth (model : PrismaModel) : Nat := widest (model.fields.map (·.name))

def typeWidth (model : PrismaModel) : Nat := widest (model.fields.map (·.type))

def rowText (nameWidth typeWidth : Nat) (field : PrismaField) : String :=
  "  " ++ padded nameWidth field.name ++ " " ++
    (if field.attributes.isEmpty then field.type
    else padded typeWidth field.type ++ " " ++ field.attributes)

def rows (model : PrismaModel) : List String :=
  model.fields.map fun field => Text.trimEnd (rowText model.nameWidth model.typeWidth field)

def modelText (model : PrismaModel) : String :=
  "model " ++ model.name ++ " \x7b\n" ++ String.join ((rows model).map (· ++ "\n")) ++
    (if model.name == model.tableName then ""
    else "\n  @@map(\"" ++ model.tableName ++ "\")\n") ++ "\x7d"

def text (tables : List Table) : String :=
  paragraphs (tables.map fun table => modelText (ofTable tables table))

end PrismaModel

end Schemata.Document
