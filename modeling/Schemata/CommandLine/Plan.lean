import Schemata.Catalogue.Source
import Schemata.Settings

/-!
What a run of the program does to the world, as data: the files that it reads and writes,
the catalogue that it connects to, and what it leaves on its two outputs. A plan can be
carried out on real files or on a folder that is itself a value.
-/
namespace Schemata.CommandLine

structure Outcome where
  code : Nat
  output : String := ""
  errors : String := ""
  deriving DecidableEq, Repr

inductive Plan
  | read (path : String) (next : Except FileError String → Plan)
  | write (path text : String) (next : Except FileError Unit → Plan)
  | connect (url : String) (next : Except String Catalogue.Source → Plan)
  | finish (outcome : Outcome)

/-- Texts of the files under their names, without any folder in it. -/
abbrev Folder := List (String × String)

namespace Folder

def steps (path : String) : List String :=
  ((path.toList.splitOn '/').filter fun step => !step.isEmpty && step != ['.']).map String.ofList

/-- A path that ends in a slash or a dot means a folder. -/
def namesFolder (path : String) : Bool :=
  match (path.toList.splitOn '/').getLast? with
  | some last => last.isEmpty || last == ['.']
  | none => false

inductive Entry
  | file (name : String) (text : String)
  | folder
  | absent (name : String)
  | nowhere (error : FileError)

def locate (folder : Folder) (path : String) : Entry :=
  if path.isEmpty then .nowhere .notFound
  else
    match steps path with
    | [] => .folder
    | [name] =>
      match folder.lookup name with
      | some text => if namesFolder path then .nowhere .notDirectory else .file name text
      | none => if namesFolder path then .nowhere .notFound else .absent name
    | name :: _ =>
      if (folder.lookup name).isSome then .nowhere .notDirectory else .nowhere .notFound

def read (folder : Folder) (path : String) : Except FileError String :=
  match folder.locate path with
  | .file _ text => .ok text
  | .folder => .error .isDirectory
  | .absent _ => .error .notFound
  | .nowhere error => .error error

def write (folder : Folder) (path text : String) : Except FileError Folder :=
  match folder.locate path with
  | .file name _ | .absent name => .ok ((name, text) :: folder.filter (·.1 != name))
  | .folder => .error .isDirectory
  | .nowhere error => .error error

end Folder

/-- Carries a plan out in a folder. No catalogue can be reached from there. -/
def Plan.run (folder : Folder) : Plan → Outcome × Folder
  | .read path next => (next (folder.read path)).run folder
  | .write path text next =>
    match folder.write path text with
    | .ok folder => (next (.ok ())).run folder
    | .error error => (next (.error error)).run folder
  | .connect _ next => (next (.error "no server can be reached")).run folder
  | .finish outcome => (outcome, folder)

end Schemata.CommandLine
