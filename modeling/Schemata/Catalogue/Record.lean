import Schemata.Catalogue.Extra
import Schemata.Table

/-!
Catalogue records, as a database reports its columns and the links between them, and the
columns and relations they stand for.
-/
namespace Schemata.Catalogue

structure ColumnRecord where
  name : String
  type : String
  null : String
  key : String
  default? : Option String
  extra : String
  deriving DecidableEq, Repr

structure LinkRecord where
  table : String
  column : String
  referencedTable : String
  referencedColumn : String
  deriving DecidableEq, Repr

def ColumnRecord.column (record : ColumnRecord) : Column :=
  let extra := Extra.ofText record.extra
  { name := record.name
    rawType := record.type
    type := ColumnType.ofText record.type
    nullable := Text.sameLetters (Text.trim record.null) "yes"
    key := Key.ofMark record.key
    default? := record.default?
    autoIncrement := extra.autoIncrement
    flags := extra.flags }

def LinkRecord.relation (record : LinkRecord) : Relation :=
  ⟨record.column, record.referencedTable, record.referencedColumn⟩

/-- Relations under the name of the table they start at. -/
abbrev RelationGroups := List (String × List Relation)

def addLink (record : LinkRecord) : RelationGroups → RelationGroups
  | [] => [(record.table, [record.relation])]
  | (table, relations) :: rest =>
    if table = record.table then (table, relations ++ [record.relation]) :: rest
    else (table, relations) :: addLink record rest

def groupLinks (records : List LinkRecord) : RelationGroups :=
  records.foldl (fun groups record => addLink record groups) []

def relationsOf (groups : RelationGroups) (table : String) : List Relation :=
  (groups.lookup table).getD []

end Schemata.Catalogue
