import Schemata.CommandLine.Run

/-!
The program itself: it carries its plan out on the files of the machine.
-/
namespace Schemata.CommandLine

/-- The system's number for a step of a path that is no folder. Some calls give it negated. -/
def notDirectoryCode : UInt32 := 20

def fileError : IO.Error → FileError
  | .noFileOrDirectory .. => .notFound
  | .inappropriateType _ code _ =>
    if code = notDirectoryCode || code = 0 - notDirectoryCode then .notDirectory else .isDirectory
  | .permissionDenied .. => .notAllowed
  | error => .other (toString error)

def readText (path : String) : IO (Except FileError String) := do
  try
    let bytes ← IO.FS.readBinFile path
    match String.fromUTF8? bytes with
    | some text => return .ok text
    | none => return .error .notText
  catch error => return .error (fileError error)

def writeText (path text : String) : IO (Except FileError Unit) := do
  try
    IO.FS.writeFile path text
    return .ok ()
  catch error => return .error (fileError error)

def carryOut : Plan → IO UInt32
  | .read path next => do carryOut (next (← readText path))
  | .write path text next => do carryOut (next (← writeText path text))
  | .connect _ next => carryOut (next (.error "no server can be reached"))
  | .finish outcome => do
    IO.print outcome.output
    IO.eprint outcome.errors
    return UInt32.ofNat outcome.code

/-- The variables of the process that count, here or where a file of assignments names them. -/
def variableNames : List String := ["DATABASE_URL", "HOME", "USER"]

def environment : IO Environment :=
  variableNames.foldlM (fun known name => do
    match ← IO.getEnv name with
    | some value => return known ++ [(name, value)]
    | none => return known) []

end Schemata.CommandLine

open Schemata.CommandLine in
def main (args : List String) : IO UInt32 := do carryOut (plan (← environment) args)
