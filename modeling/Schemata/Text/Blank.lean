/-!
White space. A character is blank when it has the Unicode property White_Space.
Trimming removes blank characters at the ends of a text, and the words of a text are its
maximal runs of other characters.
-/
namespace Schemata.Text

def isBlank (c : Char) : Bool :=
  let code := c.toNat
  (0x9 ≤ code && code ≤ 0xD) || code == 0x20 || code == 0x85 || code == 0xA0 ||
    code == 0x1680 || (0x2000 ≤ code && code ≤ 0x200A) || code == 0x2028 || code == 0x2029 ||
    code == 0x202F || code == 0x205F || code == 0x3000

def dropBlanks (s : List Char) : List Char := s.dropWhile isBlank

def dropTrailingBlanks (s : List Char) : List Char := (s.reverse.dropWhile isBlank).reverse

def trim (s : String) : String :=
  String.ofList (dropTrailingBlanks (dropBlanks s.toList))

def trimEnd (s : String) : String := String.ofList (dropTrailingBlanks s.toList)

def words (s : List Char) : List (List Char) :=
  (s.splitOnP isBlank).filter (!·.isEmpty)

/-- The words of a text with one separator between neighbours. -/
def rejoined (separator : String) (s : List Char) : String :=
  String.intercalate separator ((words s).map String.ofList)

end Schemata.Text
