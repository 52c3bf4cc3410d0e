import Schemata.CommandLine.Arguments
import Schemata.CommandLine.Plan
import Schemata.Environment
import Schemata.Export.Session
import Schemata.Interchange.Read
import Schemata.Url.Address

/-!
The program as a plan. Variables come first, then the arguments, then the settings; only
then is the input of a command looked at, and nothing is written before everything else has
succeeded. An error is reported with the chain of its causes.
-/
namespace Schemata.CommandLine

/-- An error and its causes, the outermost first. -/
abbrev Trouble := List String

def indented (first others cause : String) : String :=
  first ++ String.intercalate ("\n" ++ others) ((cause.toList.splitOn '\n').map String.ofList)

def numbered (causes : List String) : List String :=
  causes.zipIdx.map fun (cause, n) =>
    let number := toString n
    indented (String.ofList (List.replicate (5 - number.length) ' ') ++ number ++ ": ") "       "
      cause

def causeLines : List String → List String
  | [] => []
  | [cause] => [indented "    " "    " cause]
  | causes => numbered causes

def troubleText (trouble : Trouble) : String :=
  match trouble with
  | [] => "Error: \n"
  | [error] => "Error: " ++ error ++ "\n"
  | error :: causes =>
    "Error: " ++ error ++ "\n\nCaused by:\n" ++ String.intercalate "\n" (causeLines causes) ++ "\n"

def failed (trouble : Trouble) : Plan := .finish { code := 1, errors := troubleText trouble }

def settingsTrouble (path : String) (error : Settings.Error) : Trouble :=
  ("failed to load config " ++ path) :: error.message ::
    match error with
    | .shape report => [report]
    | .file error => [error.message]
    | .malformed | .missing _ => []

def defaultFile : String := "schemagen.toml"

def withSettings (environment : Environment) (config? : Option String)
    (next : Settings → Plan) : Plan :=
  let path := config?.getD defaultFile
  .read path fun content =>
    match Settings.load content config?.isSome with
    | .ok settings => next (settings.withEnvironment (environment.get? "DATABASE_URL"))
    | .error error => failed (settingsTrouble path error)

def emit (out? : Option String) (text : String) : Plan :=
  match out? with
  | none => .finish { code := 0, output := text ++ "\n" }
  | some path => .write path text fun
    | .ok () => .finish { code := 0, errors := "Wrote " ++ path ++ "\n" }
    | .error error => failed ["failed to write " ++ path, error.message]

def renderPlan (input : String) (target : Target) (out? : Option String) (settings : Settings) :
    Plan :=
  .read input fun
    | .error error => failed ["failed to read " ++ input, error.message]
    | .ok text =>
      match Interchange.readTables text with
      | .error problem =>
        failed ["invalid interchange document: " ++ problem.message, problem.message]
      | .ok tables => emit out? (target.render settings.options tables)

def overridden (database? url? : Option String) (settings : Settings) : Settings :=
  { settings with
    databaseUrl? := url?.or settings.databaseUrl?
    database? := database?.or settings.database? }

def exportFrom (source : Catalogue.Source) (target : Target) (tables : List String)
    (out? : Option String) (settings : Settings) : Plan :=
  match settings.databaseName with
  | .error error => failed [error.message]
  | .ok database =>
    match (Export.assemble source database tables).2 with
    | .error failure => failed [failure.message]
    | .ok tables => emit out? (target.render settings.options tables)

def exportPlan (target : Target) (tables : List String) (out? : Option String)
    (settings : Settings) : Plan :=
  match settings.url with
  | .error error => failed [error.message]
  | .ok url =>
    let refused (causes : List String) : Plan :=
      failed (("failed to connect to " ++ Url.redacted url) :: causes)
    match Url.check url with
    | .error fault => refused fault.causes
    | .ok () => .connect url fun
      | .error reason => refused [reason]
      | .ok source => exportFrom source target tables out? settings

def targetLine (target : Target) : String :=
  Document.padded 18 target.name ++ " ." ++ target.fileExtension ++ "\n"

def targetsText : String := String.join (Target.all.map targetLine)

def commandPlan (environment : Environment) (invocation : Invocation) : Plan :=
  match invocation.command with
  | .targets => .finish { code := 0, output := targetsText }
  | .render input target out? =>
    withSettings environment invocation.config? (renderPlan input target out?)
  | .export target database? url? out? tables =>
    withSettings environment invocation.config? fun settings =>
      exportPlan target tables out? (overridden database? url? settings)

def usageText : String :=
  "Usage: schemagen [--config FILE] <export|render|targets>\n"

def refusalPlan : Refusal → Plan
  | .usage => .finish { code := 2, errors := usageText }
  | .help => .finish { code := 0, output := usageText }
  | .version => .finish { code := 0, output := "schemagen 0.1.0\n" }

def plan (environment : Environment) (args : List String) : Plan :=
  .read ".env" fun content =>
    let environment := match content with
      | .ok text => environment.withFile text
      | .error _ => environment
    match parse args with
    | .ok invocation => commandPlan environment invocation
    | .error refusal => refusalPlan refusal

end Schemata.CommandLine
