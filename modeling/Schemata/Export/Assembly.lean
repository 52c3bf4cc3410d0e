import Schemata.Catalogue.Source
import Schemata.Export.Failure

/-!
Putting tables together from what a catalogue answers. All fetches are under way at once:
the links first, then the columns of each selected table. A fetch behind a closed gate waits,
and one that was let through keeps what came of it. The fetches of up to thirty tables are
gone through in order, and the first refusal that is met ends the whole. Those of more tables
stand in a queue, in which a refusal is met only when all fetches before it have answered.
-/
namespace Schemata.Export

open Catalogue

/-- What has become of a fetch. -/
inductive Fetch (α : Type)
  | waiting
  | answered (answer : α)
  | refused (chain : List String)
  deriving DecidableEq, Repr

namespace Fetch

variable {α : Type}

def ofResult : Except (List String) α → Fetch α
  | .ok answer => .answered answer
  | .error chain => .refused chain

/-- A fetch is made once, as soon as its gate is found open. -/
def poll (gated : Bool) (result : Except (List String) α) : Fetch α → Fetch α
  | .waiting => if gated then .waiting else ofResult result
  | fetch => fetch

def answer? : Fetch α → Option α
  | .answered answer => some answer
  | _ => none

/-- Whether the fetches behind this one are looked at. -/
def passes (queued : Bool) : Fetch α → Bool
  | .waiting => !queued
  | .answered _ => true
  | .refused _ => false

end Fetch

structure Assembly where
  links : Fetch (List LinkRecord)
  columns : List (String × Fetch (List ColumnRecord))
  deriving DecidableEq, Repr

namespace Assembly

def start (selection : List String) : Assembly :=
  ⟨.waiting, selection.map fun table => (table, .waiting)⟩

/-- The calls of an assembly of the given tables. -/
def calls (tables : List String) : List Call := .relations :: tables.map .columns

def names (assembly : Assembly) : List String := assembly.columns.map Prod.fst

def isQueued (assembly : Assembly) : Bool := 30 < assembly.columns.length

def pollTable (source : Source) (gated : Call → Bool)
    (entry : String × Fetch (List ColumnRecord)) : String × Fetch (List ColumnRecord) :=
  (entry.1, entry.2.poll (gated (.columns entry.1)) (source.fetchColumns entry.1))

def poll (source : Source) (gated : Call → Bool) (assembly : Assembly) : Assembly :=
  ⟨assembly.links.poll (gated .relations) source.fetchLinks,
    assembly.columns.map (pollTable source gated)⟩

/-- Ends by the refusal that is met first, or goes on, and says which calls were reached. The
refusal of the links is met before all others, and takes no queue. -/
def join (database : String) (assembly : Assembly) : List Call × Except Failure Assembly :=
  let passes := fun entry : String × Fetch (List ColumnRecord) => entry.2.passes assembly.isQueued
  match assembly.links with
  | .refused chain => ([.relations], .error (.relations database chain))
  | _ =>
    match assembly.columns.dropWhile passes with
    | (table, .refused chain) :: _ =>
      (calls ((assembly.columns.takeWhile passes).map Prod.fst ++ [table]),
        .error (.columns database table chain))
    | _ => (calls assembly.names, .ok assembly)

def advance (source : Source) (gated : Call → Bool) (database : String) (assembly : Assembly) :
    List Call × Except Failure Assembly :=
  (assembly.poll source gated).join database

def tableOf (groups : RelationGroups) (name : String) (records : List ColumnRecord) : Table :=
  ⟨name, records.map ColumnRecord.column, relationsOf groups name⟩

/-- The tables, once every fetch has answered. -/
def tables? (assembly : Assembly) : Option (List Table) := do
  let links ← assembly.links.answer?
  assembly.columns.mapM fun (table, fetch) => fetch.answer?.map (tableOf (groupLinks links) table)

end Assembly

/-- Puts the selected tables together without waiting. -/
def assemble (source : Source) (database : String) (selection : List String) :
    List Call × Except Failure (List Table) :=
  let (calls, assembly) :=
    (Assembly.start selection).advance source (fun _ => false) database
  (calls, assembly.map fun assembly => assembly.tables?.getD [])

end Schemata.Export
