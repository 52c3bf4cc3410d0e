import Schemata.Flags
import Schemata.Text.Blank
import Schemata.Text.Casing

/-!
The free-form attributes of a column. They are read word by word: an update rule takes
three words, a mark of a generated column two, and every other piece is a single word. The
second word of a generated mark may go on, and what follows the mark is a word of its own.
-/
namespace Schemata.Catalogue

abbrev Word := List Char

/-- Letters are met whatever their case; the long s is another form of the letter s. -/
def foldedLetter (c : Char) : Char := if c = 'ſ' then 's' else c.toLower

def isWord (word : String) (s : Word) : Bool := s.map foldedLetter == word.toList

def generated : List Char := "generated".toList

def splitGenerated? (s : Word) : Option (Word × Word) :=
  if generated.isPrefixOf (s.map foldedLetter) then
    some (s.take generated.length, s.drop generated.length)
  else none

def startsGenerated (s : Word) : Bool := isWord "virtual" s || isWord "stored" s

def piecesFrom (word : Word) : List Word → List (List Word)
  | [] => [[word]]
  | next :: rest =>
    if isWord "on" word && isWord "update" next then
      match rest with
      | [] => [[word], [next]]
      | [rule] => [[word, next, rule]]
      | rule :: following :: rest => [word, next, rule] :: piecesFrom following rest
    else if startsGenerated word then
      match splitGenerated? next with
      | none => [word] :: piecesFrom next rest
      | some (mark, []) =>
        match rest with
        | [] => [[word, mark]]
        | following :: rest => [word, mark] :: piecesFrom following rest
      | some (mark, remainder) => [word, mark] :: piecesFrom remainder rest
    else [word] :: piecesFrom next rest

def pieces (extra : String) : List (List Word) :=
  match Text.words extra.toList with
  | [] => []
  | word :: rest => piecesFrom word rest

def pieceText (piece : List Word) : String := String.intercalate " " (piece.map String.ofList)

structure Extra where
  autoIncrement : Bool
  flags : Flags
  deriving DecidableEq

def isAutoIncrement (flag : String) : Bool := Text.sameLetters flag "auto_increment"

def Extra.ofText (extra : String) : Extra :=
  let found := (pieces extra).map pieceText
  { autoIncrement := found.any isAutoIncrement
    flags := Flags.ofList (found.filter (!isAutoIncrement ·)) }

end Schemata.Catalogue
