/-!
Finding one text inside another. `cut` splits at the first occurrence of a separator and
`cutLast` at the last; both give nothing when there is none.
-/
namespace Schemata.Text

def occursIn (pattern : List Char) : List Char → Bool
  | [] => pattern.isEmpty
  | c :: rest => pattern.isPrefixOf (c :: rest) || occursIn pattern rest

def contains (s pattern : String) : Bool := occursIn pattern.toList s.toList

def startsWith (s pattern : String) : Bool := pattern.toList.isPrefixOf s.toList

def prepend (c : Char) : List Char × List Char → List Char × List Char
  | (body, rest) => (c :: body, rest)

def cut (separator : List Char) : List Char → Option (List Char × List Char)
  | [] => if separator.isEmpty then some ([], []) else none
  | c :: rest =>
    if separator.isPrefixOf (c :: rest) then
      some ([], (c :: rest).drop separator.length)
    else (cut separator rest).map (prepend c)

def cutLast (separator : Char) : List Char → Option (List Char × List Char)
  | [] => none
  | c :: rest =>
    match cutLast separator rest with
    | some parts => some (prepend c parts)
    | none => if c = separator then some ([], rest) else none

/-- The length of a text in UTF-8. -/
def byteCount (s : List Char) : Nat := s.foldr (fun c count => c.utf8Size + count) 0

def before (stop : Char → Bool) (s : List Char) : List Char := s.takeWhile (!stop ·)

end Schemata.Text
