import Schemata.Family
import Schemata.Text.Blank
import Schemata.Text.Casing
import Schemata.Text.Digits
import Schemata.Text.Search

/-!
Column types read from their native spelling, such as `decimal(10,2) unsigned`. Reading
never fails: three separate scans find the leading name, the first parenthesised list of
numbers and the word unsigned, and a spelling without a known name is of the unknown family.
-/
namespace Schemata

structure ColumnType where
  family : Family
  token : String
  length : Option UInt32 := none
  precision : Option UInt32 := none
  scale : Option UInt32 := none
  unsigned : Bool := false
  deriving DecidableEq, Repr

namespace ColumnType

def isNameChar (c : Char) : Bool := c.isAlpha || c == '_'

def leadingName (s : List Char) : List Char := (Text.dropBlanks s).takeWhile isNameChar

/-- The text between the first opening parenthesis and the first closing one after it. -/
def argumentText? (s : List Char) : Option (List Char) := do
  let (_, inner) ← Text.cut ['('] s
  let (inside, _) ← Text.cut [')'] inner
  return inside

/-- Digits only, with an optional plus sign, of a value that fits 32 bits. -/
def count? (s : List Char) : Option UInt32 :=
  let digits := match s with
    | '+' :: rest => rest
    | s => s
  if digits.isEmpty || !digits.all Char.isDigit then none
  else if Text.decimalValue digits < UInt32.size then some (UInt32.ofNat (Text.decimalValue digits))
  else none

def argument? (s : List Char) : Option UInt32 :=
  count? (Text.dropTrailingBlanks (Text.dropBlanks s))

/-- All parts of the argument list, or nothing when one of them is no count. -/
def arguments? (s : List Char) : Option (List UInt32) := do
  let inside ← argumentText? s
  (inside.splitOn ',').mapM argument?

def takesPrecision (token : String) : Bool :=
  ["decimal", "numeric", "dec", "fixed", "float", "double", "real"].contains token

def ofText (raw : String) : ColumnType :=
  let token := Text.lower (String.ofList (leadingName raw.toList))
  let arguments := (arguments? raw.toList).getD []
  let length := if takesPrecision token then none else arguments[0]?
  let isFlag := (token == "tinyint" || token == "bit") && length == some 1
  { family := if isFlag then .boolean else Family.ofTypeName token
    token
    length
    precision := if takesPrecision token then arguments[0]? else none
    scale := if takesPrecision token then arguments[1]? else none
    unsigned := Text.contains (Text.lower raw) "unsigned" }

def isDecimal (type : ColumnType) : Bool :=
  ["decimal", "numeric", "dec", "fixed", "money"].contains type.token

/-- Types whose argument list names members, which are not kept. -/
def isEnumerated (type : ColumnType) : Bool := ["enum", "set"].contains type.token

def argumentSuffix (type : ColumnType) : String :=
  match type.precision, type.scale, type.length with
  | some precision, some scale, _ => "(" ++ toString precision ++ "," ++ toString scale ++ ")"
  | some precision, none, _ => "(" ++ toString precision ++ ")"
  | none, _, some length => "(" ++ toString length ++ ")"
  | none, _, none => ""

def native (type : ColumnType) : String :=
  Text.upper type.token ++ type.argumentSuffix ++ (if type.unsigned then " UNSIGNED" else "")

end ColumnType

end Schemata
