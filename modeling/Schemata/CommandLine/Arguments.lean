import Schemata.Target

/-!
The arguments of the program. Options may stand before or after other arguments and take
their value after an equals sign or from the next argument, which must not look like an
option itself. One option belongs to the program as a whole and may be given before the
command or behind it, where it counts more.
-/
namespace Schemata.CommandLine

inductive Command
  | export (target : Target) (database? url? out? : Option String) (tables : List String)
  | render (input : String) (target : Target) (out? : Option String)
  | targets
  deriving DecidableEq, Repr

structure Invocation where
  config? : Option String
  command : Command
  deriving DecidableEq, Repr

inductive Refusal
  | usage
  | help
  | version
  deriving DecidableEq, Repr

/-- An option refuses the values that it does not accept as soon as they are given. -/
structure OptionSpec where
  name : String
  short? : Option Char := none
  accepts : String → Bool

structure Given where
  values : List (String × String) := []
  words : List String := []

def OptionSpec.path (name : String) : OptionSpec := { name, accepts := (!·.isEmpty) }

def OptionSpec.anyText (name : String) : OptionSpec := { name, accepts := fun _ => true }

def configOption : OptionSpec := .path "config"

def targetOption : OptionSpec :=
  { name := "target", short? := some 't', accepts := fun value => (Target.ofName? value).isSome }

namespace Given

def value? (given : Given) (name : String) : Option String := given.values.lookup name

/-- An option may be given once. -/
def add (given : Given) (option : OptionSpec) (value : String) : Except Refusal Given :=
  if (given.value? option.name).isSome || !option.accepts value then .error .usage
  else .ok { given with values := (option.name, value) :: given.values }

end Given

inductive Token
  | endOfOptions
  | long (name : String) (value? : Option String)
  | short (letter : Char) (rest : List Char)
  | word (text : String)

def longToken (s : List Char) : Token :=
  match Text.cut ['='] s with
  | some (name, value) => .long (String.ofList name) (some (String.ofList value))
  | none => .long (String.ofList s) none

def token (argument : String) : Token :=
  match argument.toList with
  | ['-', '-'] => .endOfOptions
  | '-' :: '-' :: rest => longToken rest
  | '-' :: c :: rest => .short c rest
  | _ => .word argument

def isWord (argument : String) : Bool :=
  match token argument with
  | .word _ => true
  | _ => false

def attached? : List Char → Option String
  | [] => none
  | '=' :: rest => some (String.ofList rest)
  | rest => some (String.ofList rest)

/-- The value of an option and the arguments behind it. -/
def valueFrom (value? : Option String) (rest : List String) :
    Except Refusal (String × List String) :=
  match value?, rest with
  | some value, rest => .ok (value, rest)
  | none, next :: rest => if isWord next then .ok (next, rest) else .error .usage
  | none, [] => .error .usage

/-- Takes one argument and, when it needs one, the next as its value. -/
def option (options : List OptionSpec) (given : Given) (isOption : OptionSpec → Bool)
    (value? : Option String) (rest : List String) : Except Refusal (Given × List String) := do
  match options.find? isOption with
  | none => throw .usage
  | some option =>
    let (value, rest) ← valueFrom value? rest
    return (← given.add option value, rest)

def takeOption (options : List OptionSpec) (given : Given) (rest : List String) :
    Token → Except Refusal (Given × List String)
  | .long name value? =>
    if name = "help" then .error (if value?.isNone then .help else .usage)
    else option options given (·.name == name) value? rest
  | .short letter letters =>
    if letter = 'h' then .error .help
    else option options given (·.short? == some letter) (attached? letters) rest
  | _ => .error .usage

/-- What a command takes besides its name, and what it makes of that. -/
structure CommandForm where
  options : List OptionSpec
  takesWords : Bool := false
  build : Given → Except Refusal Command

def CommandForm.addWords (form : CommandForm) (given : Given) (words : List String) :
    Except Refusal Given :=
  if words.isEmpty || form.takesWords then .ok { given with words := given.words ++ words }
  else .error .usage

def commandArguments (form : CommandForm) (given : Given) :
    Nat → List String → Except Refusal Given
  | 0, _ => .ok given
  | _ + 1, [] => .ok given
  | steps + 1, argument :: rest =>
    match token argument with
    | .endOfOptions => form.addWords given rest
    | .word word => do commandArguments form (← form.addWords given [word]) steps rest
    | token => do
      let (given, rest) ← takeOption form.options given rest token
      commandArguments form given steps rest

def required (value? : Option String) : Except Refusal String :=
  match value? with
  | some value => .ok value
  | none => .error .usage

def targetOf (given : Given) : Except Refusal Target := do
  match Target.ofName? (← required (given.value? "target")) with
  | some target => return target
  | none => throw .usage

def exportForm : CommandForm where
  options := [configOption, targetOption, .anyText "database", .anyText "url", .path "out"]
  takesWords := true
  build := fun given => do
    let target ← targetOf given
    if given.words.isEmpty then throw .usage
    return .export target (given.value? "database") (given.value? "url") (given.value? "out")
      given.words

def renderForm : CommandForm where
  options := [configOption, targetOption, .path "input", .path "out"]
  build := fun given => do
    let input ← required (given.value? "input")
    return .render input (← targetOf given) (given.value? "out")

def targetsForm : CommandForm where
  options := [configOption]
  build := fun _ => .ok .targets

def form? (name : String) : Option CommandForm :=
  match name with
  | "export" => some exportForm
  | "render" => some renderForm
  | "targets" => some targetsForm
  | _ => none

/-- Help may be asked for as a command too, about the program or about one command of it. -/
def helpAbout (names : List String) : Refusal :=
  match names with
  | [] => .help
  | [name] => if name = "help" || (form? name).isSome then .help else .usage
  | _ => .usage

def command (config? : Option String) (name : String) (rest : List String) :
    Except Refusal Invocation :=
  match form? name with
  | some form => do
    let given ← commandArguments form {} rest.length rest
    return ⟨(given.value? "config").or config?, ← form.build given⟩
  | none => .error (if name = "help" then helpAbout rest else .usage)

/-- Reads the arguments before the command, and then the command. -/
def arguments (given : Given) : Nat → List String → Except Refusal Invocation
  | 0, _ => .error .usage
  | _ + 1, [] => .error .usage
  | steps + 1, argument :: rest =>
    match token argument with
    | .word name => command (given.value? "config") name rest
    | .long "version" none => .error .version
    | .short 'V' _ => .error .version
    | token => do
      let (given, rest) ← takeOption [configOption] given rest token
      arguments given steps rest

def parse (args : List String) : Except Refusal Invocation := arguments {} (args.length + 1) args

end Schemata.CommandLine
