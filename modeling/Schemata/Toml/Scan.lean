import Schemata.Decimal.Nearest
import Schemata.Text.Digits
import Schemata.Text.Search
import Schemata.Toml.Node

/-!
The tokens of a TOML document: blanks, comments, keys, strings, numbers and dates. A scanner
gives a token and the text behind it, or nothing when the text does not start with one.
-/
namespace Schemata.Toml

abbrev Scanner (α : Type) := List Char → Option (α × List Char)

/-- The span from the first text up to the second, which is a later part of it. -/
def spanOf (start stop : List Char) : Span := ⟨Text.byteCount start, Text.byteCount stop⟩

def skipBlanks (s : List Char) : List Char := s.dropWhile fun c => c == ' ' || c == '\t'

def newline? : List Char → Option (List Char)
  | '\n' :: rest => some rest
  | '\r' :: '\n' :: rest => some rest
  | _ => none

/-- No control character but the tab. -/
def isPlain (c : Char) : Bool := c == '\t' || (0x20 ≤ c.toNat && c.toNat != 0x7F)

def skipComment : List Char → List Char
  | '#' :: rest => rest.dropWhile isPlain
  | s => s

/-- The text behind the end of a line, before which only blanks and a comment may stand. -/
def lineEnd? (s : List Char) : Option (List Char) :=
  match skipComment (skipBlanks s) with
  | [] => some []
  | rest => newline? rest

/-- Passes over blanks, comments and ends of lines. -/
def skipLines : Nat → List Char → List Char
  | 0, s => s
  | steps + 1, s =>
    match newline? (skipComment (skipBlanks s)) with
    | some rest => skipLines steps rest
    | none => skipComment (skipBlanks s)

/-! Strings. -/

def codePoint? (count : Nat) (s : List Char) : Option (Char × List Char) := do
  let digits ← (s.take count).mapM Text.hexValue?
  let code := digits.foldl (fun value digit => 16 * value + digit) 0
  if digits.length = count && code.isValidChar then
    return (Char.ofNat code, s.drop count)
  else none

def escape? : Scanner Char
  | 'b' :: rest => some ('\x08', rest)
  | 't' :: rest => some ('\t', rest)
  | 'n' :: rest => some ('\n', rest)
  | 'f' :: rest => some ('\x0c', rest)
  | 'r' :: rest => some ('\r', rest)
  | '"' :: rest => some ('"', rest)
  | '\\' :: rest => some ('\\', rest)
  | 'u' :: rest => codePoint? 4 rest
  | 'U' :: rest => codePoint? 8 rest
  | _ => none

def basicBody : Nat → Scanner (List Char)
  | 0, _ => none
  | _ + 1, [] => none
  | steps + 1, c :: rest =>
    if c = '"' then some ([], rest)
    else if c = '\\' then do
      let (d, rest) ← escape? rest
      Text.prepend d <$> basicBody steps rest
    else if isPlain c then Text.prepend c <$> basicBody steps rest
    else none

def literalBody : Scanner (List Char)
  | [] => none
  | c :: rest =>
    if c = '\'' then some ([], rest)
    else if isPlain c then Text.prepend c <$> literalBody rest
    else none

/-- The end of a string of several lines: up to two marks of the closing run belong to it. -/
def closingRun? (mark : Char) (s : List Char) : Option (List Char × List Char) :=
  let run := (s.takeWhile (· == mark)).length
  if run < 3 then none
  else
    let kept := min (run - 3) 2
    some (List.replicate kept mark, s.drop (kept + 3))

/-- A backslash at the end of a line also takes the blanks and empty lines behind it. -/
def lineJoin? (s : List Char) : Option (List Char) :=
  (newline? (skipBlanks s)).map fun rest =>
    rest.dropWhile fun c => c == ' ' || c == '\t' || c == '\n' || c == '\r'

def basicLines : Nat → Scanner (List Char)
  | 0, _ => none
  | _ + 1, [] => none
  | steps + 1, c :: rest =>
    if c = '"' then
      match closingRun? '"' (c :: rest) with
      | some result => some result
      | none => Text.prepend c <$> basicLines steps rest
    else if c = '\\' then
      match lineJoin? rest with
      | some rest => basicLines steps rest
      | none => do
        let (d, rest) ← escape? rest
        Text.prepend d <$> basicLines steps rest
    else
      match newline? (c :: rest) with
      | some rest => Text.prepend '\n' <$> basicLines steps rest
      | none => if isPlain c then Text.prepend c <$> basicLines steps rest else none

def literalLines : Nat → Scanner (List Char)
  | 0, _ => none
  | _ + 1, [] => none
  | steps + 1, c :: rest =>
    if c = '\'' then
      match closingRun? '\'' (c :: rest) with
      | some result => some result
      | none => Text.prepend c <$> literalLines steps rest
    else
      match newline? (c :: rest) with
      | some rest => Text.prepend '\n' <$> literalLines steps rest
      | none => if isPlain c then Text.prepend c <$> literalLines steps rest else none

def afterNewline (s : List Char) : List Char := (newline? s).getD s

def string? (s : List Char) : Option (List Char × List Char) :=
  match s with
  | '"' :: '"' :: '"' :: rest => basicLines (rest.length + 1) (afterNewline rest)
  | '"' :: rest => basicBody (rest.length + 1) rest
  | '\'' :: '\'' :: '\'' :: rest => literalLines (rest.length + 1) (afterNewline rest)
  | '\'' :: rest => literalBody rest
  | _ => none

/-! Keys. -/

def isBareKeyChar (c : Char) : Bool := c.isAlphanum || c == '-' || c == '_'

def keyName? (s : List Char) : Option (List Char × List Char) :=
  match s with
  | '"' :: rest => basicBody (rest.length + 1) rest
  | '\'' :: rest => literalBody rest
  | s =>
    let name := s.takeWhile isBareKeyChar
    if name.isEmpty then none else some (name, s.dropWhile isBareKeyChar)

def simpleKey? (s : List Char) : Option (Key × List Char) := do
  let (name, rest) ← keyName? s
  return (⟨String.ofList name, spanOf s rest⟩, rest)

def keyPath? : Nat → Scanner (List Key)
  | 0, _ => none
  | steps + 1, s => do
    let (key, rest) ← simpleKey? (skipBlanks s)
    match skipBlanks rest with
    | '.' :: rest =>
      let (keys, rest) ← keyPath? steps rest
      return (key :: keys, rest)
    | rest => return ([key], rest)

/-- Paths and nested values may be no deeper than this. -/
def depthLimit : Nat := 79

def path? (s : List Char) : Option (List Key × List Char) := keyPath? depthLimit s

/-! Numbers. -/

/-- Digits with single underscores between them, which do not count. -/
def digitRun (isDigit : Char → Bool) : List Char → List Char × List Char
  | '_' :: c :: rest =>
    if isDigit c then
      let (digits, rest) := digitRun isDigit rest
      (c :: digits, rest)
    else ([], '_' :: c :: rest)
  | c :: rest =>
    if isDigit c then
      let (digits, rest) := digitRun isDigit rest
      (c :: digits, rest)
    else ([], c :: rest)
  | [] => ([], [])

def digits? (isDigit : Char → Bool) : Scanner (List Char)
  | [] => none
  | c :: rest =>
    if isDigit c then
      let (digits, rest) := digitRun isDigit rest
      some (c :: digits, rest)
    else none

def valueIn (base : Nat) (digits : List Char) : Nat :=
  digits.foldl (fun value c => base * value + (Text.hexValue? c).getD 0) 0

def isNegative : List Char → Bool
  | '-' :: _ => true
  | _ => false

def unsigned : List Char → List Char
  | '-' :: rest | '+' :: rest => rest
  | s => s

def fitsInteger (value : Int) : Bool :=
  -Int.ofNat (Decimal.twoTo 63) ≤ value && value < Int.ofNat (Decimal.twoTo 63)

def basedInteger? (base : Nat) (isDigit : Char → Bool) (s : List Char) :
    Option (Scalar × List Char) := do
  let (digits, rest) ← digits? isDigit s
  let value := Int.ofNat (valueIn base digits)
  if fitsInteger value then return (.integer value, rest) else none

/-- The double of a decimal, with places far out of its range cut off beforehand. -/
def floatOf (digits : List Char) (exponent : Int) : Float :=
  let value := valueIn 10 digits
  let place := Int.ofNat digits.length + exponent
  if value = 0 || place < -400 then 0.0
  else if 400 + Int.ofNat digits.length < place then Decimal.nearest 1 400
  else Decimal.nearest value exponent

def exponent? (s : List Char) : Option (Int × List Char) := do
  let (digits, rest) ← digits? Char.isDigit (unsigned s)
  let value := Int.ofNat (valueIn 10 digits)
  return (if isNegative s then -value else value, rest)

/-- A positive number too large for a double is refused, a negative one becomes infinite. -/
def float? (negative : Bool) (digits : List Char) (exponent : Int) (rest : List Char) :
    Option (Scalar × List Char) :=
  let size := floatOf digits exponent
  if negative then some (.float (-size), rest)
  else if size.isInf then none
  else some (.float size, rest)

def afterFraction (negative : Bool) (digits : List Char) (places : Nat) : Scanner Scalar
  | 'e' :: rest | 'E' :: rest => do
    let (exponent, rest) ← exponent? rest
    float? negative digits (exponent - places) rest
  | rest => float? negative digits (-places) rest

def afterWhole (negative : Bool) (whole : List Char) : Scanner Scalar
  | '.' :: rest => do
    let (digits, rest) ← digits? Char.isDigit rest
    afterFraction negative (whole ++ digits) digits.length rest
  | 'e' :: rest => afterFraction negative whole 0 ('e' :: rest)
  | 'E' :: rest => afterFraction negative whole 0 ('E' :: rest)
  | rest =>
    let size := Int.ofNat (valueIn 10 whole)
    let value := if negative then -size else size
    if fitsInteger value then some (.integer value, rest) else none

/-- A whole part has no leading zero. -/
def whole? : Scanner (List Char)
  | '0' :: rest => some (['0'], rest)
  | s => digits? Char.isDigit s

def word? (word : String) (s : List Char) : Option (List Char) :=
  if word.toList.isPrefixOf s then some (s.drop word.toList.length) else none

def special? (s : List Char) : Option (Scalar × List Char) :=
  let sign := if isNegative s then -1.0 else 1.0
  match word? "inf" (unsigned s), word? "nan" (unsigned s) with
  | some rest, _ => some (.float (sign / 0.0), rest)
  | none, some rest => some (.float (0.0 / 0.0), rest)
  | none, none => none

def number? (s : List Char) : Option (Scalar × List Char) :=
  match s with
  | '0' :: 'x' :: rest => basedInteger? 16 Text.isHexDigit rest
  | '0' :: 'o' :: rest => basedInteger? 8 (fun c => '0' ≤ c && c ≤ '7') rest
  | '0' :: 'b' :: rest => basedInteger? 2 (fun c => c == '0' || c == '1') rest
  | s =>
    match whole? (unsigned s) with
    | some (whole, rest) => afterWhole (isNegative s) whole rest
    | none => special? s

/-! Dates and times. -/

def twoDigits? : Scanner Nat
  | a :: b :: rest => if a.isDigit && b.isDigit then some (valueIn 10 [a, b], rest) else none
  | _ => none

def sign? (mark : Char) : List Char → Option (List Char)
  | [] => none
  | c :: rest => if c = mark then some rest else none

def isLeapYear (year : Nat) : Bool := year % 4 == 0 && (year % 100 != 0 || year % 400 == 0)

def daysIn (year month : Nat) : Nat :=
  if month = 2 then if isLeapYear year then 29 else 28
  else if [4, 6, 9, 11].contains month then 30
  else 31

def inRange (low high value : Nat) : Option Unit :=
  if low ≤ value && value ≤ high then some () else none

def date? (s : List Char) : Option (List Char) := do
  let (century, rest) ← twoDigits? s
  let (yearOfCentury, rest) ← twoDigits? rest
  let (month, rest) ← twoDigits? (← sign? '-' rest)
  let (day, rest) ← twoDigits? (← sign? '-' rest)
  inRange 1 12 month
  inRange 1 (daysIn (century * 100 + yearOfCentury) month) day
  return rest

def skipSecondFraction : List Char → List Char
  | '.' :: c :: rest =>
    if c.isDigit then rest.dropWhile Char.isDigit else '.' :: c :: rest
  | s => s

def time? (s : List Char) : Option (List Char) := do
  let (hour, rest) ← twoDigits? s
  let (minute, rest) ← twoDigits? (← sign? ':' rest)
  let (second, rest) ← twoDigits? (← sign? ':' rest)
  inRange 0 23 hour
  inRange 0 59 minute
  inRange 0 60 second
  return skipSecondFraction rest

def offset? (s : List Char) : Option (List Char) := do
  let (hour, rest) ← twoDigits? s
  let (minute, rest) ← twoDigits? (← sign? ':' rest)
  inRange 0 23 hour
  inRange 0 59 minute
  return rest

def afterTime? : List Char → Option (List Char)
  | 'Z' :: rest | 'z' :: rest => some rest
  | '+' :: rest | '-' :: rest => offset? rest
  | s => some s

def startsTime (s : List Char) : Bool :=
  ((twoDigits? s).bind fun (_, rest) => sign? ':' rest).isSome

def afterDate? (s : List Char) : Option (List Char) :=
  match s with
  | c :: rest =>
    if (c == 'T' || c == 't' || c == ' ') && startsTime rest then do afterTime? (← time? rest)
    else some s
  | [] => some s

def startsDate (s : List Char) : Bool :=
  (s.take 4).length == 4 && (s.take 4).all Char.isDigit && (s.drop 4).head? == some '-'

def moment? (s : List Char) : Option (Scalar × List Char) :=
  if startsDate s then do return (.moment, ← afterDate? (← date? s))
  else do return (.moment, ← time? s)

/-- A number, or a date or time where the text begins like one. -/
def numeral? (s : List Char) : Option (Scalar × List Char) :=
  if startsDate s || startsTime s then moment? s else number? s

end Schemata.Toml
