import Schemata.Text.CasingTable

/-!
Letter case. `lower` and `upper` touch the letters of ASCII only. `capital` and `small`
give the full Unicode case forms of one character, which may have several characters.
-/
namespace Schemata.Text

def lower (s : String) : String := s.map Char.toLower

def upper (s : String) : String := s.map Char.toUpper

def sameLetters (s t : String) : Bool := lower s == lower t

def caseForm (wide : List (Nat × List Nat)) (spans : List CaseSpan) (c : Char) : List Char :=
  match wide.lookup c.toNat with
  | some codes => codes.map Char.ofNat
  | none =>
    match spans.find? (·.holds c.toNat) with
    | some span => [Char.ofNat (span.image c.toNat)]
    | none => [c]

def capital (c : Char) : List Char :=
  if c.toNat < 0x80 then [c.toUpper] else caseForm wideCapitals capitalSpans c

def small (c : Char) : List Char :=
  if c.toNat < 0x80 then [c.toLower] else caseForm wideSmalls smallSpans c

end Schemata.Text
