import Schemata.Json.Number
import Schemata.Json.Scan

/-!
Readers for the values a document may hold: strings, flags, counts of 32 bits, optional
values, named variants and lists. A reader that meets a value of another kind reads it far
enough to say what was found.
-/
namespace Schemata.Json.Reader

def mismatched {α : Type} (found : Found) (wanted : String) (rest : List Char) :
    Except Fault α :=
  fault (.mismatch (.type found wanted)) rest

def foundNumber : JsonNumber → Found
  | .natural n => .integer n
  | .negative n => .integer (-n)
  | .fraction x => .fraction x

def refuse {α : Type} (wanted : String) : Reader α
  | [] => fault (.ended .value) []
  | 'n' :: s => do mismatched .null wanted (← readWord "ull".toList s)
  | 't' :: s => do mismatched (.boolean true) wanted (← readWord "rue".toList s)
  | 'f' :: s => do mismatched (.boolean false) wanted (← readWord "alse".toList s)
  | '-' :: s => do
    let (n, rest) ← readNumber false s
    mismatched (foundNumber n) wanted rest
  | '"' :: s => do
    let (text, rest) ← readString .plain s
    mismatched (.string (String.ofList text)) wanted rest
  | '[' :: s => mismatched .sequence wanted ('[' :: s)
  | '\x7b' :: s => mismatched .map wanted ('\x7b' :: s)
  | c :: s =>
    if c.isDigit then do
      let (n, rest) ← readNumber true (c :: s)
      mismatched (foundNumber n) wanted rest
    else faultAt .wantsValue (c :: s)

def stringFor (wanted : String) : Reader String := fun s =>
  match skipBlanks s with
  | '"' :: rest => do
    let (text, rest) ← readString .plain rest
    return (String.ofList text, rest)
  | rest => refuse wanted rest

def string : Reader String := stringFor "a string"

def flag : Reader Bool := fun s =>
  match skipBlanks s with
  | 't' :: rest => do return (true, ← readWord "rue".toList rest)
  | 'f' :: rest => do return (false, ← readWord "alse".toList rest)
  | rest => refuse "a boolean" rest

def ofNumber (number : JsonNumber) (rest : List Char) : Except Fault (UInt32 × List Char) :=
  match number with
  | .natural n =>
    if n < UInt32.size then .ok (UInt32.ofNat n, rest)
    else fault (.mismatch (.value (.integer n) "u32")) rest
  | .negative n => fault (.mismatch (.value (.integer (-n)) "u32")) rest
  | .fraction x => mismatched (.fraction x) "u32" rest

def count : Reader UInt32 := fun s =>
  match skipBlanks s with
  | '-' :: rest => do
    let (n, rest) ← readNumber false rest
    ofNumber n rest
  | c :: rest =>
    if c.isDigit then do
      let (n, rest) ← readNumber true (c :: rest)
      ofNumber n rest
    else refuse "u32" (c :: rest)
  | [] => refuse "u32" []

def null (wanted : String) (s : List Char) : Except Fault (List Char) :=
  match skipBlanks s with
  | 'n' :: rest => readWord "ull".toList rest
  | rest => do
    let ((), rest) ← refuse wanted rest
    return rest

def optional {α : Type} (reader : Reader α) : Reader (Option α) := fun s =>
  match skipBlanks s with
  | 'n' :: rest => do return (none, ← readWord "ull".toList rest)
  | rest => do
    let (value, rest) ← reader rest
    return (some value, rest)

def colon (s : List Char) : Except Fault (List Char) :=
  match skipBlanks s with
  | [] => fault (.ended .object) []
  | ':' :: rest => .ok rest
  | rest => faultAt .wantsColon rest

def variantName {α : Type} (known : List String) (ofName? : String → Option α) : Reader α :=
  fun s => do
    let (name, rest) ← stringFor "variant identifier" s
    match ofName? name with
    | some value => return (value, rest)
    | none => fault (.mismatch (.unknownVariant name known)) rest

/-- A variant is its name, or an object with the name as its key and null as its value. -/
def variant {α : Type} (known : List String) (ofName? : String → Option α) : Reader α := fun s =>
  match skipBlanks s with
  | [] => fault (.ended .value) []
  | '"' :: rest => variantName known ofName? ('"' :: rest)
  | '\x7b' :: rest => do
    let (value, rest) ← variantName known ofName? rest
    let rest ← null "unit" (← colon rest)
    match skipBlanks rest with
    | [] => fault (.ended .object) []
    | '\x7d' :: rest => return (value, rest)
    | rest => fault .wantsValue rest
  | rest => faultAt .wantsValue rest

/-- The text of the next item of a list, or nothing at its end. -/
def nextItem? (first : Bool) (s : List Char) : Except Fault (Option (List Char)) :=
  match skipBlanks s with
  | [] => fault (.ended .list) []
  | ']' :: _ => .ok none
  | c :: rest =>
    if first then .ok (some (c :: rest))
    else if c = ',' then
      match skipBlanks rest with
      | [] => fault (.ended .value) []
      | ']' :: rest => faultAt .trailingComma (']' :: rest)
      | rest => .ok (some rest)
    else faultAt .wantsItemEnd (c :: rest)

def endList (s : List Char) : Except Fault (List Char) :=
  match skipBlanks s with
  | [] => fault (.ended .list) []
  | ']' :: rest => .ok rest
  | ',' :: rest =>
    match skipBlanks rest with
    | ']' :: rest => faultAt .trailingComma (']' :: rest)
    | rest => faultAt .trailingCharacters rest
  | rest => faultAt .trailingCharacters rest

def items {α : Type} (item : Reader α) : Nat → Bool → Reader (List α)
  | 0, _, s => fault .wantsItemEnd s
  | steps + 1, first, s => do
    match ← nextItem? first s with
    | none => return ([], ← endList s)
    | some s =>
      let (value, rest) ← item s
      let (values, rest) ← items item steps false rest
      return (value :: values, rest)

/-- Every item takes a character of the text, so that its length bounds their number. -/
def list {α : Type} (item : Reader α) : Reader (List α) := fun s =>
  match skipBlanks s with
  | '[' :: rest => items item (rest.length + 1) true rest
  | rest => refuse "a sequence" rest

/-- One value with nothing but blanks around it. -/
def whole {α : Type} (reader : Reader α) (s : List Char) : Except Fault α := do
  let (value, rest) ← reader s
  match skipBlanks rest with
  | [] => return value
  | rest => faultAt .trailingCharacters rest

def read {α : Type} (reader : Reader α) (text : String) : Except Problem α :=
  (whole reader text.toList).mapError (Fault.locate text.toList)

end Schemata.Json.Reader
