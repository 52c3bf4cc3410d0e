import Schemata.Decimal.Power

/-!
The double nearest to a fraction, of two equally near ones the even one. The bits of a
double are its mantissa plus a count of binades, so a mantissa that rounds up to the next
binade needs no care.
-/
namespace Schemata.Decimal

def roundedQuotient (numerator denominator : Nat) : Nat :=
  let quotient := numerator / denominator
  let rest := numerator % denominator
  if denominator < 2 * rest || (denominator == 2 * rest && quotient % 2 == 1) then quotient + 1
  else quotient

def scaledQuotient (round : Nat → Nat → Nat) (numerator denominator : Nat) (q : Int) : Nat :=
  round (numerator * twoTo (-q).toNat) (denominator * twoTo q.toNat)

def infinityBits : Nat := 0x7FF * twoTo 52

def nearestBits (numerator denominator : Nat) : Nat :=
  if numerator = 0 then 0
  else
    let guess := max (Int.ofNat numerator.log2 - Int.ofNat denominator.log2 - 53) (-1074)
    let tooFine := twoTo 53 ≤ scaledQuotient (· / ·) numerator denominator guess
    let q := if tooFine then guess + 1 else guess
    let mantissa := scaledQuotient roundedQuotient numerator denominator q
    min (mantissa + (q + 1074).toNat * twoTo 52) infinityBits

/-- The double nearest to `digits * 10 ^ exponent`. -/
def nearest (digits : Nat) (exponent : Int) : Float :=
  Float.ofBits (UInt64.ofNat
    (nearestBits (digits * tenTo exponent.toNat) (tenTo (-exponent).toNat)))

end Schemata.Decimal
