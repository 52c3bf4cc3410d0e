import Schemata.Toml.Scan

/-!
Pointing at a place of a TOML document: its line and column, the line itself, and marks
under the place. Columns count characters, and the marks stop at the end of the line.
-/
namespace Schemata.Toml

def linesOf (s : List Char) : List (List Char) := s.splitOn '\n'

/-- The number, the content and the offset of the line with a given byte offset. -/
def lineAt (number : Nat) (offset : Nat) : List (List Char) → Nat × List Char × Nat
  | [] => (number, [], 0)
  | [line] => (number, line, offset)
  | line :: rest =>
    if offset ≤ Text.byteCount line then (number, line, offset)
    else lineAt (number + 1) (offset - Text.byteCount line - 1) rest

def charsBefore (offset : Nat) : List Char → Nat
  | [] => 0
  | c :: rest => if offset = 0 then 0 else charsBefore (offset - c.utf8Size) rest + 1

def repeated (n : Nat) (c : Char) : String := String.ofList (List.replicate n c)

def report (text : String) (span : Span) (message : String) : String :=
  let s := text.toList
  let (number, line, offset) := lineAt 1 (Text.byteCount s - span.left) (linesOf s)
  let column := charsBefore offset line
  let marks := max 1 (min span.length (Text.byteCount line - column))
  let gutter := repeated ((toString number).length + 1) ' '
  "TOML parse error at line " ++ toString number ++ ", column " ++ toString (column + 1) ++ "\n" ++
    gutter ++ "|\n" ++
    toString number ++ " | " ++ String.ofList line ++ "\n" ++
    gutter ++ "|" ++ repeated (column + 1) ' ' ++ repeated marks '^' ++ "\n" ++
    message ++ "\n"

end Schemata.Toml
