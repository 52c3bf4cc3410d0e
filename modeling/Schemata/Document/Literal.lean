import Schemata.Text.Quoted

/-!
Values and names written into a program: plain decimal numbers, and the keys of an object
type, which stand alone when they are identifiers and in single quotes otherwise.
-/
namespace Schemata.Document

/-- An optional minus sign, then digits with at most one point among them. -/
def isNumber (value : String) : Bool :=
  let digits := match value.toList with
    | '-' :: rest => rest
    | s => s
  digits.any Char.isDigit && digits.all (fun c => c.isDigit || c == '.') &&
    digits.count '.' ≤ 1

def singleQuoted (s : String) : String := "'" ++ Text.escaped '\'' s ++ "'"

def doubleQuoted (s : String) : String := "\"" ++ Text.escaped '"' s ++ "\""

def startsIdentifier (c : Char) : Bool := c.isAlpha || c == '_' || c == '$'

def isIdentifier : List Char → Bool
  | [] => false
  | c :: rest => startsIdentifier c && rest.all fun d => startsIdentifier d || d.isDigit

def propertyKey (name : String) : String :=
  if isIdentifier name.toList then name else singleQuoted name

end Schemata.Document
