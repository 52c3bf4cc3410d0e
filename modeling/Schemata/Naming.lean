import Schemata.Text.Casing

/-!
Names in other conventions. The pascal form drops every underscore and capitalises the
first character after one; the camel form starts with a small letter instead.
-/
namespace Schemata.Naming

def capitalised : List Char → List Char
  | [] => []
  | c :: rest => Text.capital c ++ rest

def pascalChars (s : List Char) : List Char :=
  ((s.splitOn '_').filter (!·.isEmpty)).flatMap capitalised

def pascal (s : String) : String := String.ofList (pascalChars s.toList)

def uncapitalised : List Char → List Char
  | [] => []
  | c :: rest => Text.small c ++ rest

def camel (s : String) : String := String.ofList (uncapitalised (pascalChars s.toList))

end Schemata.Naming
