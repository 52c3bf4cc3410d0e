/-!
Text between marks. `doubled` writes a mark twice, `escaped` puts a backslash before every
mark and every backslash, and `uncommented` parts each end-of-comment sign. Each keeps the
closing mark from being met inside the text.
-/
namespace Schemata.Text

def doubledChars (mark : Char) (s : List Char) : List Char :=
  s.flatMap fun c => if c = mark then [mark, mark] else [c]

def doubled (mark : Char) (s : String) : String := String.ofList (doubledChars mark s.toList)

def escapedChars (mark : Char) (s : List Char) : List Char :=
  s.flatMap fun c => if c = '\\' ∨ c = mark then ['\\', c] else [c]

def escaped (mark : Char) (s : String) : String := String.ofList (escapedChars mark s.toList)

def uncommentedChars : List Char → List Char
  | '*' :: '/' :: rest => '*' :: ' ' :: '/' :: uncommentedChars rest
  | c :: rest => c :: uncommentedChars rest
  | [] => []

def uncommented (s : String) : String := String.ofList (uncommentedChars s.toList)

end Schemata.Text
