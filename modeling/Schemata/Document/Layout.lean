/-!
Laying out text in columns and paragraphs. Widths count characters, and padding only ever
adds blanks on the right.
-/
namespace Schemata.Document

def paragraphs (texts : List String) : String := String.intercalate "\n\n" texts

def widest (texts : List String) : Nat := (texts.map String.length).foldl max 0

def padded (width : Nat) (text : String) : String :=
  text ++ String.ofList (List.replicate (width - text.length) ' ')

end Schemata.Document
