import Schemata.Document.Layout
import Schemata.Document.Literal
import Schemata.Naming
import Schemata.Table

/-!
Eloquent models. A model is worked out from a table first and then written as a class:
which conventions it leaves to the framework, which columns may be filled, how columns are
cast, and one accessor for each relation.
-/
namespace Schemata.Document

structure Accessor where
  name : String
  target : String
  column : String
  deriving DecidableEq, Repr

def Accessor.text (accessor : Accessor) : String :=
  "\n    public function " ++ accessor.name ++ "(): BelongsTo\n    \x7b\n" ++
    "        return $this->belongsTo(" ++ accessor.target ++ "::class, " ++
    singleQuoted accessor.column ++ ");\n    \x7d\n"

structure EloquentModel where
  className : String
  tableName : String
  belongs : Bool
  softDeletes : Bool
  timestamps : Bool
  primaryKey : Option String
  incrementing : Bool
  fillable : List String
  casts : List (String × String)
  accessors : List Accessor
  deriving DecidableEq, Repr

namespace EloquentModel

def isFillable (column : Column) : Bool :=
  !column.autoIncrement && !isTimestampName column.name

def fillableColumns (table : Table) : List Column := table.columns.filter isFillable

def cast? (column : Column) : Option (String × String) :=
  match column.family with
  | .json => some (column.name, "array")
  | .boolean => some (column.name, "boolean")
  | _ => none

def castsOf (table : Table) : List (String × String) := table.columns.filterMap cast?

/-- A name that is taken gets the column of the relation behind it. -/
def accessorName (taken : List String) (relation : Relation) : String :=
  let name := Naming.camel relation.referencedTable
  if taken.contains name then name ++ "By" ++ Naming.pascal relation.column else name

def accessorsAfter (taken : List String) : List Relation → List Accessor
  | [] => []
  | relation :: rest =>
    let name := accessorName taken relation
    ⟨name, Naming.pascal relation.referencedTable, relation.column⟩ ::
      accessorsAfter (name :: taken) rest

/-- The only primary column, when there is just one. -/
def soleKey? (table : Table) : Option Column :=
  match table.columns.filter Column.isPrimary with
  | [key] => some key
  | _ => none

def ofTable (table : Table) : EloquentModel where
  className := Naming.pascal table.name
  tableName := table.name
  belongs := !table.relations.isEmpty
  softDeletes := table.hasSoftDeletes
  timestamps := table.hasTimestamps
  primaryKey := ((soleKey? table).filter (·.name != "id")).map (·.name)
  incrementing := (soleKey? table).all (·.autoIncrement)
  fillable := (fillableColumns table).map (·.name)
  casts := castsOf table
  accessors := accessorsAfter [] table.relations

def imports (model : EloquentModel) : String :=
  "use Illuminate\\Database\\Eloquent\\Factories\\HasFactory;\n" ++
    "use Illuminate\\Database\\Eloquent\\Model;\n" ++
    (if model.belongs then "use Illuminate\\Database\\Eloquent\\Relations\\BelongsTo;\n" else "") ++
    (if model.softDeletes then "use Illuminate\\Database\\Eloquent\\SoftDeletes;\n" else "")

def traits (model : EloquentModel) : String :=
  "    /** @use HasFactory<\\Database\\Factories\\" ++ model.className ++ "Factory> */\n" ++
    (if model.softDeletes then "    use HasFactory, SoftDeletes;\n" else "    use HasFactory;\n")

def conventions (model : EloquentModel) : String :=
  "\n    protected $table = " ++ singleQuoted model.tableName ++ ";\n" ++
    (match model.primaryKey with
      | some name => "\n    protected $primaryKey = " ++ singleQuoted name ++ ";\n"
      | none => "") ++
    (if model.incrementing then "" else "\n    public $incrementing = false;\n") ++
    (if model.timestamps then "" else "\n    public $timestamps = false;\n")

def fillableText (model : EloquentModel) : String :=
  "\n    protected $fillable = [" ++
    (if model.fillable.isEmpty then "" else
      "\n" ++ String.join (model.fillable.map fun name =>
        "        " ++ singleQuoted name ++ ",\n") ++ "    ") ++
    "];\n"

def castsText (model : EloquentModel) : String :=
  "\n    /**\n     * @return array<string, string>\n     */\n" ++
    "    protected function casts(): array\n    \x7b\n        return [" ++
    (if model.casts.isEmpty then "" else
      "\n" ++ String.join (model.casts.map fun (column, cast) =>
        "            " ++ singleQuoted column ++ " => '" ++ cast ++ "',\n") ++ "        ") ++
    "];\n    \x7d\n"

def classText (nameSpace : String) (model : EloquentModel) : String :=
  "<?php\n\nnamespace " ++ nameSpace ++ ";\n\n" ++ imports model ++
    "\nclass " ++ model.className ++ " extends Model\n\x7b\n" ++
    traits model ++ conventions model ++ fillableText model ++ castsText model ++
    String.join (model.accessors.map Accessor.text) ++ "\x7d"

def text (nameSpace : String) (tables : List Table) : String :=
  paragraphs (tables.map fun table => classText nameSpace (ofTable table))

end EloquentModel

end Schemata.Document
