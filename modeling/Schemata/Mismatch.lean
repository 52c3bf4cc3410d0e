import Schemata.Decimal.Written
import Schemata.Text.Shown

/-!
How a well-formed document can fail to have the wanted shape. Messages name what was found
in its place, and numbers in them follow the layout of the document's own format.
-/
namespace Schemata

inductive Found
  | null
  | boolean (value : Bool)
  | integer (value : Int)
  | fraction (value : Float)
  | string (text : String)
  | sequence
  | map

def Found.message (layout : Decimal.Layout) : Found → String
  | null => "null"
  | boolean true => "boolean `true`"
  | boolean false => "boolean `false`"
  | integer n => "integer `" ++ toString n ++ "`"
  | fraction x => "floating point `" ++ Decimal.written layout x ++ "`"
  | string s => "string " ++ Text.shown s
  | sequence => "sequence"
  | map => "map"

inductive Mismatch
  | type (found : Found) (wanted : String)
  | value (found : Found) (wanted : String)
  | length (found : Nat) (wanted : String)
  | missing (field : String)
  | repeated (field : String)
  | unknownField (name : String) (known : List String)
  | unknownVariant (name : String) (known : List String)

namespace Mismatch

def ticked (name : String) : String := "`" ++ name ++ "`"

def oneOf : List String → String
  | [] => "there are none"
  | [name] => "expected " ++ ticked name
  | [one, other] => "expected " ++ ticked one ++ " or " ++ ticked other
  | names => "expected one of " ++ String.intercalate ", " (names.map ticked)

def message (layout : Decimal.Layout) : Mismatch → String
  | type found wanted => "invalid type: " ++ found.message layout ++ ", expected " ++ wanted
  | value found wanted => "invalid value: " ++ found.message layout ++ ", expected " ++ wanted
  | length found wanted => "invalid length " ++ toString found ++ ", expected " ++ wanted
  | missing field => "missing field " ++ ticked field
  | repeated field => "duplicate field " ++ ticked field
  | unknownField name known => "unknown field " ++ ticked name ++ ", " ++ oneOf known
  | unknownVariant name known => "unknown variant " ++ ticked name ++ ", " ++ oneOf known

end Mismatch

end Schemata
