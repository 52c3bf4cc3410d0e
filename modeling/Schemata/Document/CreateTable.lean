import Schemata.Document.Layout
import Schemata.Document.Literal
import Schemata.Table

/-!
Statements that create the tables in a database. Identifiers stand between backticks and
strings between single quotes, each with the closing mark doubled inside. Every foreign key
cascades on delete, whatever the rule of the live constraint.
-/
namespace Schemata.Document.CreateTable

def quoted (name : String) : String := "`" ++ Text.doubled '\x60' name ++ "`"

def isKeyword (value : String) : Bool :=
  let word := Text.upper value
  ["NULL", "TRUE", "FALSE", "CURRENT_TIMESTAMP", "CURRENT_DATE", "CURRENT_TIME",
      "NOW()"].contains word ||
    Text.startsWith word "CURRENT_TIMESTAMP("

def isCall (value : String) : Bool :=
  value.toList.getLast? == some ')' && value.toList.contains '(' && !value.toList.contains ' '

def stringLiteral (value : String) : String := "'" ++ Text.doubled '\'' value ++ "'"

/-- Keywords and numbers stand as they are and other calls in parentheses; everything else
is a string. -/
def defaultLiteral (value : String) : String :=
  let word := Text.trim value
  if isKeyword word || isNumber word then word
  else if isCall word then "(" ++ word ++ ")"
  else stringLiteral value

def typeText (column : Column) : String :=
  if column.family == .unknown || column.type.isEnumerated then Text.trim column.rawType
  else column.type.native

def isUpdateRule (flag : String) : Bool := Text.startsWith (Text.lower flag) "on update"

def defaultClause (column : Column) : String :=
  match column.default? with
  | some value => " DEFAULT " ++ defaultLiteral value
  | none => ""

def updateClauses (flags : Flags) : String :=
  String.join ((flags.toList.filter isUpdateRule).map fun flag => " " ++ Text.upper flag)

def keyClause : Key → String
  | .primary => " PRIMARY KEY"
  | .unique => " UNIQUE"
  | .multiple | .plain => ""

def columnLine (column : Column) : String :=
  "  " ++ quoted column.name ++ " " ++ typeText column ++
    (if column.nullable then " NULL" else " NOT NULL") ++ defaultClause column ++
    (if column.autoIncrement then " AUTO_INCREMENT" else "") ++ updateClauses column.flags ++
    keyClause column.key

def constraintName (table : Table) (relation : Relation) : String :=
  "fk_" ++ table.name ++ "_" ++ relation.column

def foreignKeyLine (table : Table) (relation : Relation) : String :=
  "  CONSTRAINT " ++ quoted (constraintName table relation) ++
    " FOREIGN KEY (" ++ quoted relation.column ++
    ") REFERENCES " ++ quoted relation.referencedTable ++
    "(" ++ quoted relation.referencedColumn ++ ") ON DELETE CASCADE"

def lines (table : Table) : List String :=
  table.columns.map columnLine ++ table.relations.map (foreignKeyLine table)

def statement (table : Table) : String :=
  "CREATE TABLE " ++ quoted table.name ++ " (\n" ++
    String.intercalate ",\n" (lines table) ++ "\n);"

def text (tables : List Table) : String := paragraphs (tables.map statement)

end Schemata.Document.CreateTable
