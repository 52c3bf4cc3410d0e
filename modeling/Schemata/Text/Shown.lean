import Schemata.Text.HiddenTable

/-!
A text as a message quotes it: between double quotes, with a backslash before quotes and
backslashes, short escapes for the common control characters, and the hexadecimal code
point of every other character that would not show.
-/
namespace Schemata.Text

def isHidden (c : Char) : Bool :=
  let code := c.toNat
  code < 0x20 || code == 0x7F ||
    (0x80 ≤ code && hiddenSpans.any fun (first, last) => first ≤ code && code ≤ last)

def hexDigits (n : Nat) : String := String.ofList (Nat.toDigits 16 n)

def shownChar (c : Char) : String :=
  match c with
  | '\x00' => "\\0"
  | '\t' => "\\t"
  | '\r' => "\\r"
  | '\n' => "\\n"
  | '"' => "\\\""
  | '\\' => "\\\\"
  | c => if isHidden c then "\\u\x7b" ++ hexDigits c.toNat ++ "\x7d" else String.singleton c

def shown (s : String) : String := "\"" ++ String.join (s.toList.map shownChar) ++ "\""

end Schemata.Text
