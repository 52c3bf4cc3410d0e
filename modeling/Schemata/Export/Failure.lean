/-!
Why an export ends without a text. A failed fetch carries the messages of its cause.
-/
namespace Schemata.Export

inductive Failure
  | columns (database table : String) (chain : List String)
  | relations (database : String) (chain : List String)
  | emptySelection
  | superseded
  | unknownTarget (name : String)
  deriving DecidableEq, Repr

def chainText (chain : List String) : String := String.intercalate ": " chain

def Failure.message : Failure → String
  | columns database table chain =>
    "failed to fetch columns for `" ++ database ++ "`.`" ++ table ++ "`: " ++ chainText chain
  | relations database chain =>
    "failed to fetch relations for `" ++ database ++ "`: " ++ chainText chain
  | emptySelection => "no tables selected for export"
  | superseded => "export superseded by a newer request"
  | unknownTarget name => "unknown export target `" ++ name ++ "`"

end Schemata.Export
