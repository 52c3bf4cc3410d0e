import Schemata.Mismatch
import Schemata.Target
import Schemata.Toml.Document
import Schemata.Toml.Report
import Schemata.Url

/-!
The settings of a user: where the database is, which one to read, and the names that two
kinds of document embed. They come from a file, and the address from the environment when
it has one.
-/
namespace Schemata

inductive FileError
  | notFound
  | isDirectory
  | notDirectory
  | notAllowed
  | notText
  | other (reason : String)
  deriving DecidableEq, Repr

def FileError.message : FileError → String
  | notFound => "No such file or directory (os error 2)"
  | isDirectory => "Is a directory (os error 21)"
  | notDirectory => "Not a directory (os error 20)"
  | notAllowed => "Permission denied (os error 13)"
  | notText => "stream did not contain valid UTF-8"
  | other reason => reason

structure Settings where
  databaseUrl? : Option String := none
  database? : Option String := none
  options : Options := {}
  deriving DecidableEq, Repr

namespace Settings

inductive Error
  | malformed
  | shape (report : String)
  | file (error : FileError)
  | missing (what : String)
  deriving DecidableEq, Repr

def Error.message : Error → String
  | malformed => "config file error: malformed document"
  | shape report => "config file error: " ++ report
  | file error => "IO error: " ++ error.message
  | missing what => "configuration error: " ++ what ++ " not specified"

/-- A mismatch and the place to point at. -/
structure Fault where
  mismatch : Mismatch
  span : Toml.Span

def foundIn : Toml.Node → Found
  | .scalar _ (.string s) => .string s
  | .scalar _ (.integer n) => .integer n
  | .scalar _ (.float x) => .fraction x
  | .scalar _ (.boolean b) => .boolean b
  | .scalar _ .moment => .map
  | .array .. | .tables _ => .sequence
  | .table .. => .map

/-- A value without a place of its own is pointed at by its key. -/
def refused {α : Type} (key : Toml.Key) (node : Toml.Node) (wanted : String) : Except Fault α :=
  .error ⟨.type (foundIn node) wanted, node.span?.getD key.span⟩

def textOf (key : Toml.Key) : Toml.Node → Except Fault String
  | .scalar _ (.string s) => .ok s
  | node => refused key node "a string"

/-- Keys that are not known are left alone here. -/
def optionsOfEntries (options : Options) : Toml.Entries → Except Fault Options
  | [] => .ok options
  | (key, node) :: rest =>
    if key.name = "model_namespace" then do
      let text ← textOf key node
      optionsOfEntries { options with modelNamespace := text } rest
    else if key.name = "go_package" then do
      let text ← textOf key node
      optionsOfEntries { options with goPackage := text } rest
    else optionsOfEntries options rest

/-- The options in order, as far as there are items. -/
def optionsOfItems (key : Toml.Key) : List Toml.Node → Except Fault Options
  | [] => .ok {}
  | [first] => do return { modelNamespace := ← textOf key first }
  | first :: second :: _ => do
    return { modelNamespace := ← textOf key first, goPackage := ← textOf key second }

/-- A date or time counts as a table with one key, which is not known. -/
def optionsOf (key : Toml.Key) : Toml.Node → Except Fault Options
  | .table _ entries => optionsOfEntries {} entries
  | .array _ items | .tables items => optionsOfItems key items
  | .scalar _ .moment => .ok {}
  | node => refused key node "struct RenderOptions"

def known : List String := ["database_url", "database", "render"]

def ofEntries (settings : Settings) : Toml.Entries → Except Fault Settings
  | [] => .ok settings
  | (key, node) :: rest =>
    if key.name = "database_url" then do
      let text ← textOf key node
      ofEntries { settings with databaseUrl? := some text } rest
    else if key.name = "database" then do
      let text ← textOf key node
      ofEntries { settings with database? := some text } rest
    else if key.name = "render" then do
      let options ← optionsOf key node
      ofEntries { settings with options } rest
    else .error ⟨.unknownField key.name known, key.span⟩

def ofText (text : String) : Except Error Settings :=
  match Toml.parse text with
  | none => .error .malformed
  | some entries =>
    match ofEntries {} entries with
    | .ok settings => .ok settings
    | .error fault => .error (.shape (Toml.report text fault.span (fault.mismatch.message .full)))

/-- A file that is not there counts as empty unless it was asked for. -/
def load (content : Except FileError String) (required : Bool) : Except Error Settings :=
  match content with
  | .ok text => ofText text
  | .error .notFound => if required then .error (.file .notFound) else .ok {}
  | .error error => .error (.file error)

def withEnvironment (url? : Option String) (settings : Settings) : Settings :=
  match url? with
  | some url =>
    if (Text.trim url).isEmpty then settings else { settings with databaseUrl? := some url }
  | none => settings

def url (settings : Settings) : Except Error String :=
  match settings.databaseUrl? with
  | some url => .ok url
  | none => .error (.missing "database URL")

def databaseName (settings : Settings) : Except Error String :=
  match settings.database?.or (settings.databaseUrl?.bind Url.database?) with
  | some name => .ok name
  | none => .error (.missing "database name")

end Settings

end Schemata
