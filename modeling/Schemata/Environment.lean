import Schemata.Text.Blank
import Schemata.Text.LetterTable
import Schemata.Text.Utf8

/-!
Variables from a file of assignments. A value may be quoted, may have escapes, and may name
other variables after a dollar sign. Reading stops at the first line that is malformed, and
a variable that is known already keeps its value.
-/
namespace Schemata

abbrev Environment := List (String × String)

namespace Environment

def isKeyStart (c : Char) : Bool := c.isAlpha || c == '_'

def isKeyChar (c : Char) : Bool := c.isAlphanum || c == '_' || c == '.'

def key? (s : List Char) : Option (String × List Char) :=
  match s with
  | [] => none
  | c :: _ =>
    if isKeyStart c then some (String.ofList (s.takeWhile isKeyChar), s.dropWhile isKeyChar)
    else none

def equals? (s : List Char) : Option (List Char) :=
  match Text.dropBlanks s with
  | '=' :: rest => some (Text.dropBlanks rest)
  | _ => none

/-- The key of a line and the text of its value. The word export may stand before the key. -/
def assignment? (s : List Char) : Option (String × List Char) := do
  let (key, rest) ← key? s
  match equals? rest with
  | some value => return (key, value)
  | none =>
    if key = "export" then do
      let (key, rest) ← key? (Text.dropBlanks rest)
      return (key, ← equals? rest)
    else none

inductive Mode
  | plain
  | escape (quoted : Bool)
  | strong
  | weak
  | name (quoted : Bool) (name : List Char)
  | braced (quoted : Bool) (name : List Char)
  | closed

def escaped? (c : Char) : Option Char :=
  if c = 'n' then some '\n'
  else if ['\\', '\'', '"', '$', ' '].contains c then some c
  else none

def modeIn (quoted : Bool) : Mode := if quoted then .weak else .plain

def valueOf (known : Environment) (name : List Char) : List Char :=
  ((known.lookup (String.ofList name)).getD "").toList

/-- The value so far is kept in reverse. -/
def value? (known : Environment) : Mode → List Char → List Char → Option (List Char)
  | .closed, done, [] => some done.reverse
  | .plain, done, [] => some done.reverse
  | .escape quoted, done, [] => if quoted then none else some done.reverse
  | .name quoted name, done, [] =>
    if quoted then none else some (done.reverse ++ valueOf known name)
  | .strong, _, [] => none
  | .weak, _, [] => none
  | .braced _ _, _, [] => none
  | .closed, done, c :: rest =>
    if c = ' ' || c = '\t' then value? known .closed done rest
    else if c = '#' then some done.reverse
    else none
  | .escape quoted, done, c :: rest =>
    match escaped? c with
    | some d => value? known (modeIn quoted) (d :: done) rest
    | none => none
  | .strong, done, c :: rest =>
    if c = '\'' then value? known .plain done rest else value? known .strong (c :: done) rest
  | .name quoted name, done, c :: rest =>
    if Text.isLetterOrNumber c then value? known (.name quoted (name ++ [c])) done rest
    else if c = '\x7b' && name.isEmpty then value? known (.braced quoted []) done rest
    else
      let done := (valueOf known name).reverse ++ done
      if c = '$' then value? known (.name quoted []) done rest
      else value? known (modeIn quoted) (c :: done) rest
  | .braced quoted name, done, c :: rest =>
    if c = '\x7d' then
      value? known (modeIn quoted) ((valueOf known name).reverse ++ done) rest
    else value? known (.braced quoted (name ++ [c])) done rest
  | .weak, done, c :: rest =>
    if c = '$' then value? known (.name true []) done rest
    else if c = '"' then value? known .plain done rest
    else if c = '\\' then value? known (.escape true) done rest
    else value? known .weak (c :: done) rest
  | .plain, done, c :: rest =>
    if c = '$' then value? known (.name false []) done rest
    else if c = '\'' then value? known .strong done rest
    else if c = '"' then value? known .weak done rest
    else if c = '\\' then value? known (.escape false) done rest
    else if c = ' ' || c = '\t' then value? known .closed done rest
    else value? known .plain (c :: done) rest

inductive LineState
  | complete
  | blank
  | escape
  | strong
  | strongEscape
  | weak
  | weakEscape
  | comment
  deriving DecidableEq, Repr

def opened (c : Char) (otherwise : LineState) : LineState :=
  if c = '\\' then .escape
  else if c = '"' then .weak
  else if c = '\'' then .strong
  else otherwise

def LineState.next (state : LineState) (c : Char) : LineState :=
  match state with
  | .complete =>
    opened c (if Text.isBlank c && c != '\n' && c != '\r' then .blank else .complete)
  | .blank => if c = '#' then .comment else opened c .complete
  | .escape => .complete
  | .strong => if c = '\\' then .strongEscape else if c = '\'' then .complete else .strong
  | .strongEscape => .strong
  | .weak => if c = '\\' then .weakEscape else if c = '"' then .complete else .weak
  | .weakEscape => .weak
  | .comment => .comment

def LineState.mayEnd (state : LineState) : Bool := state == .complete || state == .comment

def withoutReturn : List Char → List Char
  | '\r' :: line => line
  | line => line

/-- The lines of a text, without their comments. A line that ends inside quotes goes on. The
line so far is kept in reverse. -/
def logicalLines (state : LineState) (line : List Char) : List Char → List (List Char)
  | [] => if state.mayEnd then [line.reverse] else []
  | c :: rest =>
    if c = '\n' then
      if (state.next c).mayEnd then
        (withoutReturn line).reverse :: logicalLines .complete [] rest
      else logicalLines (state.next c) (c :: line) rest
    else if state == .comment || (c == '#' && line.all Text.isBlank) then
      logicalLines .comment line rest
    else if state.next c == .comment then logicalLines .comment line rest
    else logicalLines (state.next c) (c :: line) rest

/-- Adds the variable of one line, or gives nothing when the line is malformed. -/
def addLine (known : Environment) (line : List Char) : Option Environment :=
  match Text.dropBlanks line with
  | [] => some known
  | '#' :: _ => some known
  | s => do
    let (key, rest) ← assignment? s
    let value ← match rest with
      | [] => pure []
      | '#' :: _ => pure []
      | rest => value? known .plain [] rest
    return if (known.lookup key).isSome then known else known ++ [(key, String.ofList value)]

def addLines (known : Environment) : List (List Char) → Environment
  | [] => known
  | line :: rest =>
    match addLine known line with
    | some known => addLines known rest
    | none => known

def withFile (known : Environment) (text : String) : Environment :=
  addLines known (logicalLines .complete [] (Text.withoutMark text.toList))

def get? (known : Environment) (name : String) : Option String := known.lookup name

end Environment

end Schemata
