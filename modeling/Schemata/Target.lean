import Schemata.Document.CreateTable
import Schemata.Document.Diagram
import Schemata.Document.EloquentModel
import Schemata.Document.Interface
import Schemata.Document.Migration
import Schemata.Document.PrismaModel
import Schemata.Document.Struct
import Schemata.Document.Validator
import Schemata.Interchange.Written

/-!
The kinds of document a schema can be written as, the names they go by, and the writing
itself. Two of them embed a name that the user may choose.
-/
namespace Schemata

inductive Target
  | sql
  | migration
  | model
  | prisma
  | typeScript
  | go
  | zod
  | mermaid
  | json
  deriving DecidableEq, Repr

structure Options where
  modelNamespace : String := "App\\Models"
  goPackage : String := "models"
  deriving DecidableEq, Repr

namespace Target

def all : List Target :=
  [sql, migration, model, prisma, typeScript, go, zod, mermaid, json]

def name : Target → String
  | sql => "sql"
  | migration => "laravel-migration"
  | model => "laravel-model"
  | prisma => "prisma"
  | typeScript => "typescript"
  | go => "go"
  | zod => "zod"
  | mermaid => "mermaid"
  | json => "json"

def fileExtension : Target → String
  | sql => "sql"
  | migration | model => "php"
  | prisma => "prisma"
  | typeScript | zod => "ts"
  | go => "go"
  | mermaid => "mmd"
  | json => "json"

def aliases : List (String × Target) :=
  [("ddl", sql), ("ts", typeScript), ("golang", go), ("erd", mermaid)]

/-- Names are met whatever their ASCII case, and with underscores for hyphens. -/
def normalised (s : String) : String :=
  (Text.lower (Text.trim s)).map fun c => if c = '_' then '-' else c

def ofName? (s : String) : Option Target :=
  let word := normalised s
  (all.find? (·.name == word)).or (aliases.lookup word)

def render (target : Target) (options : Options) (tables : List Table) : String :=
  match target with
  | sql => Document.CreateTable.text tables
  | migration => Document.Migration.text tables
  | model => Document.EloquentModel.text options.modelNamespace tables
  | prisma => Document.PrismaModel.text tables
  | typeScript => Document.Interface.text tables
  | go => Document.Struct.text options.goPackage tables
  | zod => Document.Validator.text tables
  | mermaid => Document.Diagram.text tables
  | json => Interchange.text tables

end Target

end Schemata
