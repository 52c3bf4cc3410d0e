import Schemata.ColumnType
import Schemata.Flags

/-!
Tables as the documents describe them: columns in their defined order, then the links from
a column of the table to a column of another one.
-/
namespace Schemata

inductive Key
  | plain
  | primary
  | unique
  | multiple
  deriving DecidableEq, Repr

namespace Key

def all : List Key := [plain, primary, unique, multiple]

def name : Key → String
  | plain => "none"
  | primary => "primary"
  | unique => "unique"
  | multiple => "multi"

def ofName? (name : String) : Option Key := all.find? (·.name == name)

/-- The three-letter marks of a catalogue; any other mark means no key. -/
def ofMark (mark : String) : Key :=
  match Text.upper (Text.trim mark) with
  | "PRI" => primary
  | "UNI" => unique
  | "MUL" => multiple
  | _ => plain

end Key

structure Column where
  name : String
  rawType : String
  type : ColumnType
  nullable : Bool := false
  key : Key := .plain
  default? : Option String := none
  autoIncrement : Bool := false
  flags : Flags := .empty
  deriving DecidableEq

structure Relation where
  column : String
  referencedTable : String
  referencedColumn : String
  deriving DecidableEq, Repr

structure Table where
  name : String
  columns : List Column
  relations : List Relation := []
  deriving DecidableEq

namespace Column

def ofType (name rawType : String) : Column :=
  { name, rawType, type := ColumnType.ofText rawType }

def family (column : Column) : Family := column.type.family

def isPrimary (column : Column) : Bool := column.key == .primary

/-- The keyword alone or with a precision, whatever its case and the blanks around it. -/
def isCurrentTimestamp (value : String) : Bool :=
  let word := Text.lower (Text.trim value)
  word == "current_timestamp" || Text.startsWith word "current_timestamp("

def defaultsToNow (column : Column) : Bool := column.default?.any isCurrentTimestamp

end Column

/-- Columns that record when a row was made, changed or given up. -/
def isTimestampName (name : String) : Bool :=
  name == "created_at" || name == "updated_at" || name == "deleted_at"

namespace Table

def column? (table : Table) (name : String) : Option Column :=
  table.columns.find? (·.name == name)

def hasColumn (table : Table) (name : String) : Bool := (table.column? name).isSome

def isRelationSource (table : Table) (column : String) : Bool :=
  table.relations.any (·.column == column)

def hasTimestamps (table : Table) : Bool :=
  table.hasColumn "created_at" && table.hasColumn "updated_at"

def hasSoftDeletes (table : Table) : Bool := table.hasColumn "deleted_at"

def names (tables : List Table) : List String := tables.map (·.name)

/-- The relations whose referenced table is one of the given tables. -/
def relationsWithin (table : Table) (tables : List Table) : List Relation :=
  table.relations.filter fun relation => (names tables).contains relation.referencedTable

end Table

end Schemata
