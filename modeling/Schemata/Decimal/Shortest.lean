import Schemata.Decimal.Power

/-!
The shortest decimal that reads back as a given binary fraction. A positive double is
decoded to `mantissa * 2 ^ exponent`; the numbers that round to it form an interval around
it, whose ends belong to it when the mantissa is even. For one digit, two digits and so on
the two neighbours of the value on that decimal grid are tried, and the first grid with a
neighbour in the interval gives the digits.
-/
namespace Schemata.Decimal

structure Binary where
  mantissa : Nat
  exponent : Int
  /-- The gap below is half the gap above: the mantissa is the least of its binade. -/
  least : Bool

/-- The value is `digits * 10 ^ exponent`. -/
structure Digits where
  digits : Nat
  exponent : Int
  deriving DecidableEq, Repr

def binaryOfBits (bits : Nat) : Binary :=
  let field := bits / twoTo 52 % twoTo 11
  let fraction := bits % twoTo 52
  if field = 0 then ⟨fraction, -1074, false⟩
  else ⟨fraction + twoTo 52, Int.ofNat field - 1075, fraction == 0 && 1 < field⟩

/-- Four times the mantissa and the two ends of its interval over one denominator. -/
structure Interval where
  low : Nat
  value : Nat
  high : Nat
  denominator : Nat
  closed : Bool

def Binary.interval (x : Binary) : Interval :=
  let shift := x.exponent - 2
  let factor := twoTo shift.toNat
  { low := (4 * x.mantissa - (if x.least then 1 else 2)) * factor
    value := 4 * x.mantissa * factor
    high := (4 * x.mantissa + 2) * factor
    denominator := twoTo (-shift).toNat
    closed := x.mantissa % 2 == 0 }

def digitCount (n : Nat) : Nat := (Nat.toDigits 10 n).length

/-- The place of the leading digit of a positive fraction. -/
def leadingPlace (numerator denominator : Nat) : Int :=
  if denominator ≤ numerator then Int.ofNat (digitCount (numerator / denominator)) - 1
  else -Int.ofNat (digitCount ((denominator + numerator - 1) / numerator - 1))

def Interval.holds (i : Interval) (numerator denominator : Nat) : Bool :=
  let point := numerator * i.denominator
  let low := i.low * denominator
  let high := i.high * denominator
  if i.closed then low ≤ point && point ≤ high else low < point && point < high

/-- The neighbours of the value among the multiples of `10 ^ place`: the nearer one that
lies in the interval, and of two equally near ones the even one. -/
def Interval.onGrid? (i : Interval) (place : Int) : Option Digits :=
  let up := tenTo place.toNat
  let down := tenTo (-place).toNat
  let scaled := i.value * down
  let unit := i.denominator * up
  let below := scaled / unit
  let rest := scaled % unit
  let first := if 2 * rest < unit || (2 * rest == unit && below % 2 == 0) then below else below + 1
  let second := if first = below then below + 1 else below
  let fits (n : Nat) : Bool := 0 < n && i.holds (n * up) down
  if fits first then some ⟨first, place⟩
  else if fits second then some ⟨second, place⟩
  else none

def firstGrid (i : Interval) (place : Int) : Nat → Digits
  | 0 => ⟨i.value / i.denominator, 0⟩
  | tries + 1 =>
    match i.onGrid? place with
    | some digits => digits
    | none => firstGrid i (place - 1) tries

/-- The search starts one place up, where a value just below a power of ten is met by it.
Twenty grids are more than a double ever needs. -/
def shortest (x : Binary) : Digits :=
  let i := x.interval
  firstGrid i (leadingPlace i.value i.denominator + 1) 20

end Schemata.Decimal
