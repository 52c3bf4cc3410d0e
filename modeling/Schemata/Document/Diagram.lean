import Schemata.Document.Layout
import Schemata.Table
import Schemata.Text.Blank
import Schemata.Text.Search

/-!
Mermaid diagrams of the tables and of the links between them. Two related tables are
joined by one line, that of their first relation, whichever of them it belongs to.
-/
namespace Schemata.Document

structure Link where
  owner : String
  referenced : String
  column : String
  deriving DecidableEq, Repr

namespace Link

def joins (link : Link) (one other : String) : Bool :=
  (link.owner == one && link.referenced == other) ||
    (link.owner == other && link.referenced == one)

def text (link : Link) : String :=
  "    " ++ link.referenced ++ " ||--o\x7b " ++ link.owner ++ " : \"" ++ link.column ++ "\""

end Link

namespace Diagram

/-- The type name alone: without arguments and without blanks. -/
def attributeType (type : ColumnType) (rawType : String) : String :=
  if !type.token.isEmpty then type.token
  else
    let name := Text.rejoined "_" (Text.before (· == '(') rawType.toList)
    if name.isEmpty then "unknown" else name

def keyMarks (table : Table) (column : Column) : List String :=
  (if column.isPrimary then ["PK"] else []) ++
    (if column.key == .multiple || table.isRelationSource column.name then ["FK"] else [])

def attributeLine (table : Table) (column : Column) : String :=
  let marks := keyMarks table column
  "        " ++ attributeType column.type column.rawType ++ " " ++ column.name ++
    (if marks.isEmpty then "" else " " ++ String.intercalate ", " marks)

def entityLines (table : Table) : List String :=
  ["    " ++ table.name ++ " \x7b"] ++ table.columns.map (attributeLine table) ++ ["    \x7d"]

def linksOf (tables : List Table) (table : Table) : List Link :=
  (table.relationsWithin tables).map fun relation =>
    ⟨table.name, relation.referencedTable, relation.column⟩

/-- Keeps a link when no earlier one joins the same two tables. -/
def firstLinks (earlier : List Link) : List Link → List Link
  | [] => []
  | link :: rest =>
    if earlier.any (Link.joins · link.owner link.referenced) then firstLinks earlier rest
    else link :: firstLinks (link :: earlier) rest

def links (tables : List Table) : List Link := firstLinks [] (tables.flatMap (linksOf tables))

def text (tables : List Table) : String :=
  String.intercalate "\n"
    (["erDiagram"] ++ tables.flatMap entityLines ++ (links tables).map Link.text)

end Diagram

end Schemata.Document
