import Schemata.Decimal.Written

/-!
JSON values and their written form: four blanks for each level, one item to a line, and
nothing between the brackets of an empty array or object. Only quotes, backslashes and
control characters are escaped.
-/
namespace Schemata

/-- Whole numbers that fit 64 bits are exact, all other numbers are doubles. -/
inductive JsonNumber
  | natural (n : Nat)
  | negative (n : Nat)
  | fraction (x : Float)

def JsonNumber.text : JsonNumber → String
  | natural n => toString n
  | negative n => "-" ++ toString n
  | fraction x => Decimal.written .compact x

inductive Json
  | null
  | boolean (value : Bool)
  | number (value : JsonNumber)
  | string (text : String)
  | array (items : List Json)
  | object (members : List (String × Json))
  deriving Inhabited

namespace Json

def hexDigit (n : Nat) : Char := Nat.digitChar n

def escapedChar (c : Char) : List Char :=
  match c with
  | '"' => ['\\', '"']
  | '\\' => ['\\', '\\']
  | '\n' => ['\\', 'n']
  | '\r' => ['\\', 'r']
  | '\t' => ['\\', 't']
  | '\x08' => ['\\', 'b']
  | '\x0c' => ['\\', 'f']
  | c =>
    if c.toNat < 0x20 then
      ['\\', 'u', '0', '0', hexDigit (c.toNat / 16), hexDigit (c.toNat % 16)]
    else [c]

def quotedChars (s : List Char) : List Char := '"' :: s.flatMap escapedChar ++ ['"']

def quoted (s : String) : String := String.ofList (quotedChars s.toList)

def indent (depth : Nat) : String := String.ofList (List.replicate (4 * depth) ' ')

def bracketed (opening closing : String) (depth : Nat) (lines : List String) : String :=
  if lines.isEmpty then opening ++ closing
  else
    opening ++ "\n" ++ String.intercalate ",\n" (lines.map (indent (depth + 1) ++ ·)) ++ "\n" ++
      indent depth ++ closing

mutual

def text (depth : Nat) : Json → String
  | .null => "null"
  | .boolean true => "true"
  | .boolean false => "false"
  | .number n => n.text
  | .string s => quoted s
  | .array items => bracketed "[" "]" depth (itemTexts (depth + 1) items)
  | .object members => bracketed "\x7b" "\x7d" depth (memberTexts (depth + 1) members)

def itemTexts (depth : Nat) : List Json → List String
  | [] => []
  | item :: rest => text depth item :: itemTexts depth rest

def memberTexts (depth : Nat) : List (String × Json) → List String
  | [] => []
  | (key, value) :: rest => (quoted key ++ ": " ++ text depth value) :: memberTexts depth rest

end

def document (value : Json) : String := text 0 value

end Json

end Schemata
