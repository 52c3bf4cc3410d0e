import Schemata.Decimal.Shortest

/-!
Doubles as text, with the fewest digits that read back and a point in every finite number.
A layout says for which places of the leading digit the number is written out in full; the
others are written with an exponent.
-/
namespace Schemata.Decimal

structure Layout where
  writesOut : Int → Bool

/-- Numbers of a data document are written out between 0.00001 and 10 to the 16th. -/
def Layout.compact : Layout := ⟨fun place => -5 ≤ place && place ≤ 15⟩

def Layout.full : Layout := ⟨fun _ => true⟩

def zeros (n : Nat) : String := String.ofList (List.replicate n '0')

def writtenOut (digits : List Char) (exponent : Int) : String :=
  if 0 ≤ exponent then String.ofList digits ++ zeros exponent.toNat ++ ".0"
  else
    let places := (-exponent).toNat
    if places < digits.length then
      String.ofList (digits.take (digits.length - places)) ++ "." ++
        String.ofList (digits.drop (digits.length - places))
    else "0." ++ zeros (places - digits.length) ++ String.ofList digits

def withExponent (digits : List Char) (place : Int) : String :=
  String.ofList (digits.take 1) ++
    (if digits.length ≤ 1 then "" else "." ++ String.ofList (digits.drop 1)) ++
    (if place < 0 then "e-" else "e+") ++ toString place.natAbs

def writtenDigits (layout : Layout) (x : Digits) : String :=
  let digits := Nat.toDigits 10 x.digits
  let place := Int.ofNat digits.length - 1 + x.exponent
  if layout.writesOut place then writtenOut digits x.exponent else withExponent digits place

def written (layout : Layout) (x : Float) : String :=
  let bits := x.toBits.toNat
  let size := bits % twoTo 63
  let sign := if twoTo 63 ≤ bits then "-" else ""
  if x.isNaN then "NaN"
  else if x.isInf then sign ++ "inf"
  else if size = 0 then sign ++ "0.0"
  else sign ++ writtenDigits layout (shortest (binaryOfBits size))

end Schemata.Decimal
