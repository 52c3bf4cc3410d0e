import Schemata.Mismatch
import Schemata.Text.Search

/-!
Faults of a JSON text and where they stand. A fault keeps the number of bytes that were
left when it was met, and its line and column are counted in the text afterwards: lines
from one, columns in bytes.
-/
namespace Schemata.Json

inductive Place
  | list
  | object
  | string
  | value
  deriving DecidableEq, Repr

inductive Cause
  | ended (within : Place)
  | wantsColon
  | wantsItemEnd
  | wantsMemberEnd
  | wantsWord
  | wantsValue
  | wantsKey
  | badEscape
  | badNumber
  | numberTooLarge
  | controlCharacter
  | loneSurrogate
  | endedSurrogate
  | trailingComma
  | trailingCharacters
  | mismatch (mismatch : Mismatch)

def Place.message : Place → String
  | list => "a list"
  | object => "an object"
  | string => "a string"
  | value => "a value"

def Cause.message : Cause → String
  | ended within => "EOF while parsing " ++ within.message
  | wantsColon => "expected `:`"
  | wantsItemEnd => "expected `,` or `]`"
  | wantsMemberEnd => "expected `,` or `\x7d`"
  | wantsWord => "expected ident"
  | wantsValue => "expected value"
  | wantsKey => "key must be a string"
  | badEscape => "invalid escape"
  | badNumber => "invalid number"
  | numberTooLarge => "number out of range"
  | controlCharacter => "control character (\\u0000-\\u001F) found while parsing a string"
  | loneSurrogate => "lone leading surrogate in hex escape"
  | endedSurrogate => "unexpected end of hex escape"
  | trailingComma => "trailing comma"
  | trailingCharacters => "trailing characters"
  | mismatch m => m.message .compact

structure Fault where
  cause : Cause
  left : Nat

/-- Reads a value from the front of a text and gives what is left of it. -/
abbrev Reader (α : Type) := List Char → Except Fault (α × List Char)

def fault {α : Type} (cause : Cause) (rest : List Char) : Except Fault α :=
  .error ⟨cause, Text.byteCount rest⟩

/-- A fault at the next character, which counts as met with its first byte. -/
def faultAt {α : Type} (cause : Cause) (rest : List Char) : Except Fault α :=
  .error ⟨cause, Text.byteCount rest - 1⟩

def position (line column : Nat) : Nat → List Char → Nat × Nat
  | _, [] => (line, column)
  | index, c :: rest =>
    if index = 0 then (line, column)
    else if c = '\n' then position (line + 1) 0 (index - 1) rest
    else if index < c.utf8Size then (line, column + index)
    else position line (column + c.utf8Size) (index - c.utf8Size) rest

structure Problem where
  cause : Cause
  line : Nat
  column : Nat

def Fault.locate (s : List Char) (fault : Fault) : Problem :=
  let (line, column) := position 1 0 (Text.byteCount s - fault.left) s
  ⟨fault.cause, line, column⟩

def Problem.message (problem : Problem) : String :=
  problem.cause.message ++ " at line " ++ toString problem.line ++ " column " ++
    toString problem.column

end Schemata.Json
