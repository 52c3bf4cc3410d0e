import Schemata.Decimal.Nearest
import Schemata.Json.Fault
import Schemata.Json.Value
import Schemata.Text.Digits

/-!
Numbers of a JSON text. Digits go into the significand as long as it fits 64 bits. Further
digits before the point only raise the exponent, and further ones behind it are dropped.
The double is then found by one multiplication or division by a power of ten.
-/
namespace Schemata.Json

def wordSize : Nat := UInt64.size

/-- Takes digits while the value fits a word, and says how many were taken. -/
def takeDigits (value count : Nat) : List Char → (Nat × Nat) × List Char
  | [] => ((value, count), [])
  | c :: s =>
    if c.isDigit && value * 10 + Text.digitValue c < wordSize then
      takeDigits (value * 10 + Text.digitValue c) (count + 1) s
    else ((value, count), c :: s)

def startsWithDigit : List Char → Bool
  | [] => false
  | c :: _ => c.isDigit

def scaledUp (x : Float) (exponent : Nat) : Option Float :=
  if 308 < exponent then if x == 0.0 then some x else none
  else
    let y := x * Decimal.nearest 1 exponent
    if y.isInf then none else some y

def scaledDown (x : Float) : Nat → Nat → Float
  | 0, _ => x
  | steps + 1, exponent =>
    if exponent ≤ 308 then x / Decimal.nearest 1 exponent
    else if x == 0.0 then x
    else scaledDown (x / Decimal.nearest 1 308) steps (exponent - 308)

/-- Nothing when the number is too large. A word divided by ten to the 616th is zero, so
that four steps down are enough. -/
def scaled (significand : Nat) (exponent : Int) : Option Float :=
  let x := Decimal.nearest significand 0
  if 0 ≤ exponent then scaledUp x exponent.toNat
  else some (scaledDown x 4 (-exponent).toNat)

def signed (positive : Bool) (x : Float) : Float := if positive then x else -x

def finishFraction (positive : Bool) (significand : Nat) (exponent : Int) (s : List Char) :
    Except Fault (JsonNumber × List Char) :=
  match scaled significand exponent with
  | some x => .ok (.fraction (signed positive x), s)
  | none => fault .numberTooLarge s

def largestExponent : Nat := Decimal.twoTo 31 - 1

/-- The exponent, or nothing when it has become too large. -/
def takeExponent (value : Nat) : List Char → Option Nat × List Char
  | [] => (some value, [])
  | c :: s =>
    if c.isDigit then
      if largestExponent < value * 10 + Text.digitValue c then (none, s)
      else takeExponent (value * 10 + Text.digitValue c) s
    else (some value, c :: s)

def readExponentDigits (positive raises : Bool) (significand : Nat) (exponent : Int) :
    Reader JsonNumber
  | [] => fault (.ended .value) []
  | c :: s =>
    if !c.isDigit then faultAt .badNumber (c :: s)
    else
      match takeExponent (Text.digitValue c) s with
      | (some value, rest) =>
        finishFraction positive significand (if raises then exponent + value else exponent - value)
          rest
      | (none, rest) =>
        if significand != 0 && raises then fault .numberTooLarge rest
        else .ok (.fraction (signed positive 0.0), rest.dropWhile Char.isDigit)

def readExponent (positive : Bool) (significand : Nat) (exponent : Int) : Reader JsonNumber
  | '+' :: s => readExponentDigits positive true significand exponent s
  | '-' :: s => readExponentDigits positive false significand exponent s
  | s => readExponentDigits positive true significand exponent s

def afterDecimals (positive : Bool) (significand : Nat) (exponent : Int) : Reader JsonNumber
  | 'e' :: s | 'E' :: s => readExponent positive significand exponent s
  | s => finishFraction positive significand exponent s

def readDecimals (positive : Bool) (significand : Nat) (exponent : Int) (s : List Char) :
    Except Fault (JsonNumber × List Char) :=
  if startsWithDigit s then
    let ((value, count), rest) := takeDigits significand 0 s
    afterDecimals positive value (exponent - count) (rest.dropWhile Char.isDigit)
  else
    match s with
    | [] => fault (.ended .value) []
    | s => faultAt .badNumber s

/-- A negative zero and the integers below the least of 64 bits become doubles. -/
def wholeNumber (positive : Bool) (value : Nat) : JsonNumber :=
  if positive then .natural value
  else if 0 < value && value ≤ Decimal.twoTo 63 then .negative value
  else .fraction (-(Decimal.nearest value 0))

def afterWhole (positive : Bool) (value : Nat) : Reader JsonNumber
  | '.' :: s => readDecimals positive value 0 s
  | 'e' :: s | 'E' :: s => readExponent positive value 0 s
  | s => .ok (wholeNumber positive value, s)

def afterLongWhole (positive : Bool) (value excess : Nat) : Reader JsonNumber
  | '.' :: s => readDecimals positive value excess s
  | s => afterDecimals positive value excess s

/-- Reads a number whose sign has been read. -/
def readNumber (positive : Bool) : Reader JsonNumber
  | [] => fault (.ended .value) []
  | '0' :: s => if startsWithDigit s then faultAt .badNumber s else afterWhole positive 0 s
  | c :: s =>
    if c.isDigit then
      let ((value, _), rest) := takeDigits (Text.digitValue c) 1 s
      if startsWithDigit rest then
        afterLongWhole positive value (rest.takeWhile Char.isDigit).length
          (rest.dropWhile Char.isDigit)
      else afterWhole positive value rest
    else faultAt .badNumber (c :: s)

end Schemata.Json
