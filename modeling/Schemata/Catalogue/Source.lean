import Schemata.Catalogue.Record

/-!
A catalogue that can be asked for the columns of one table and for all links of a database.
A call may be set to fail, and then answers with a chain of messages, the outermost first.
-/
namespace Schemata.Catalogue

inductive Call
  | relations
  | columns (table : String)
  deriving DecidableEq, Repr

namespace Call

def name : Call → String
  | relations => "relations"
  | columns table => "columns:" ++ table

/-- The line a log has for the call. -/
def logged (database : String) : Call → String
  | relations => "relations:" ++ database
  | columns table => "columns:" ++ database ++ "." ++ table

end Call

structure Source where
  columns : List (String × List ColumnRecord)
  links : List LinkRecord
  failing : List (String × List String)
  deriving Repr

namespace Source

def put {α : Type} (key : String) (value : α) (entries : List (String × α)) :
    List (String × α) :=
  (key, value) :: entries.filter (·.1 != key)

def failure? (source : Source) (call : Call) : Option (List String) :=
  source.failing.lookup call.name

def fetchLinks (source : Source) : Except (List String) (List LinkRecord) :=
  match source.failure? .relations with
  | some chain => .error chain
  | none => .ok source.links

def fetchColumns (source : Source) (table : String) :
    Except (List String) (List ColumnRecord) :=
  match source.failure? (.columns table) with
  | some chain => .error chain
  | none =>
    match source.columns.lookup table with
    | some records => .ok records
    | none => .error ["unknown table " ++ table]

end Source

end Schemata.Catalogue
