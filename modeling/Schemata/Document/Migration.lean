import Schemata.Document.Layout
import Schemata.Document.Literal
import Schemata.Naming
import Schemata.Table

/-!
Laravel migrations. The columns that record times have no line of their own: two of them
come from one line for timestamps and the third from the line for soft deletes. A type
without a method of its own is kept as a string column with its spelling in a comment.
-/
namespace Schemata.Document.Migration

inductive Line
  | column (column : Column)
  | foreignKey (relation : Relation)
  | timestamps
  | softDeletes
  deriving DecidableEq

def hasOwnLine (column : Column) : Bool := !isTimestampName column.name

def body (table : Table) : List Line :=
  (table.columns.filter hasOwnLine).map .column ++ table.relations.map .foreignKey ++
    (if table.hasTimestamps then [.timestamps] else []) ++
    (if table.hasSoftDeletes then [.softDeletes] else [])

def call (method name : String) : String := method ++ "(" ++ singleQuoted name ++ ")"

def sizedCall (method name : String) (sizes : List UInt32) : String :=
  method ++ "(" ++ singleQuoted name ++ String.join (sizes.map fun n => ", " ++ toString n) ++ ")"

def integerCall (column : Column) (method : String) : String :=
  call (if column.type.unsigned then "unsigned" ++ Naming.pascal method else method) column.name

def integerMethod (token : String) : String :=
  match token with
  | "bigint" | "bigserial" => "bigInteger"
  | "smallint" | "smallserial" => "smallInteger"
  | "tinyint" => "tinyInteger"
  | "mediumint" => "mediumInteger"
  | _ => "integer"

def decimalSizes (type : ColumnType) : List UInt32 :=
  match type.precision, type.scale with
  | some precision, some scale => [precision, scale]
  | some precision, none => [precision]
  | none, _ => []

def fallbackCall (column : Column) : String :=
  call "string" column.name ++ " /* " ++ Text.uncommented column.rawType ++ " */"

def floatCall (column : Column) : String :=
  if column.type.isDecimal then sizedCall "decimal" column.name (decimalSizes column.type)
  else if column.type.token == "double" then call "double" column.name
  else call "float" column.name

def textCall (column : Column) : String :=
  match column.type.token with
  | "char" | "nchar" => sizedCall "char" column.name column.type.length.toList
  | "varchar" | "nvarchar" | "character" =>
    sizedCall "string" column.name [column.type.length.getD 255]
  | "tinytext" => call "tinyText" column.name
  | "mediumtext" => call "mediumText" column.name
  | "longtext" => call "longText" column.name
  | "text" | "citext" => call "text" column.name
  | "uuid" => call "uuid" column.name
  | _ => fallbackCall column

def temporalCall (column : Column) : String :=
  match column.type.token with
  | "datetime" | "timestamp" | "timestamptz" => call "timestamp" column.name
  | "date" => call "date" column.name
  | "time" | "timetz" => call "time" column.name
  | "year" => call "year" column.name
  | _ => fallbackCall column

def typeCall (column : Column) : String :=
  match column.family with
  | .boolean => call "boolean" column.name
  | .integer => integerCall column (integerMethod column.type.token)
  | .float => floatCall column
  | .text => textCall column
  | .temporal => temporalCall column
  | .json => call "json" column.name
  | .binary => call "binary" column.name
  | .unknown => fallbackCall column

/-- The call that makes the column an automatic primary key of the table. -/
def identityCall (name : String) : String := if name == "id" then "id()" else call "id" name

def isIdentity (column : Column) : Bool := column.autoIncrement && column.isPrimary

def columnCall (column : Column) : String :=
  if isIdentity column then identityCall column.name else typeCall column

def takesNumber (family : Family) : Bool := family.isNumeric || family == .boolean

def defaultModifier (column : Column) (value : String) : String :=
  if Column.isCurrentTimestamp value then "->useCurrent()"
  else if takesNumber column.family && isNumber (Text.trim value) then
    "->default(" ++ Text.trim value ++ ")"
  else "->default(" ++ singleQuoted value ++ ")"

def modifiers (column : Column) : String :=
  (if column.autoIncrement && !column.isPrimary then "->autoIncrement()" else "") ++
    (if column.nullable then "->nullable()" else "") ++
    (match column.default? with
      | some value => defaultModifier column value
      | none => "") ++
    (if column.key == .unique then "->unique()" else "")

def foreignKeyCall (relation : Relation) : String :=
  "foreign(" ++ singleQuoted relation.column ++
    ")->references(" ++ singleQuoted relation.referencedColumn ++
    ")->on(" ++ singleQuoted relation.referencedTable ++
    ")->onDelete('cascade')"

def Line.call : Line → String
  | .column source => columnCall source ++ modifiers source
  | .foreignKey relation => foreignKeyCall relation
  | .timestamps => "timestamps()"
  | .softDeletes => "softDeletes()"

def Line.text (line : Line) : String := "            $table->" ++ line.call ++ ";"

def opening (table : Table) : List String :=
  ["<?php",
    "",
    "use Illuminate\\Database\\Migrations\\Migration;",
    "use Illuminate\\Database\\Schema\\Blueprint;",
    "use Illuminate\\Support\\Facades\\Schema;",
    "",
    "return new class extends Migration",
    "\x7b",
    "    /**",
    "     * Run the migrations.",
    "     */",
    "    public function up(): void",
    "    \x7b",
    "        Schema::create(" ++ singleQuoted table.name ++ ", function (Blueprint $table) \x7b"]

def closing (table : Table) : List String :=
  ["        \x7d);",
    "    \x7d",
    "",
    "    /**",
    "     * Reverse the migrations.",
    "     */",
    "    public function down(): void",
    "    \x7b",
    "        Schema::dropIfExists(" ++ singleQuoted table.name ++ ");",
    "    \x7d",
    "\x7d;"]

def ofTable (table : Table) : String :=
  String.intercalate "\n" (opening table ++ (body table).map Line.text ++ closing table)

def text (tables : List Table) : String := paragraphs (tables.map ofTable)

end Schemata.Document.Migration
