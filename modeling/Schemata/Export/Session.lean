import Schemata.Export.Assembly
import Schemata.Target

/-!
Exports that share one catalogue. Starting an export cancels the one started before it,
whatever has become of that, so that only the newest may still bring a text. An export that
waits for a fetch is taken up again after every step, and notices first of all whether it
has been cancelled.
-/
namespace Schemata.Export

open Catalogue

structure Request where
  database : String
  selection : List String
  target : Target
  deriving DecidableEq, Repr

inductive Status
  | pending
  | done (text : String)
  | failed (failure : Failure)
  | dropped
  deriving DecidableEq, Repr

structure Run where
  id : String
  request : Request
  cancelled : Bool
  assembly : Assembly
  status : Status
  deriving DecidableEq, Repr

/-- The runs stand in the order of their starts, and `current` is the place of the newest. -/
structure Session where
  options : Options
  source : Source
  gates : List String
  current : Option Nat
  runs : List Run
  log : List String
  deriving Repr

inductive Step
  | start (id database : String) (selection : List String) (target : String)
  | gate (call : String)
  | release (call : String)
  | fail (call : String) (chain : List String)
  | heal (call : String)
  | setColumns (table : String) (records : List ColumnRecord)
  | setRelations (records : List LinkRecord)
  | drop (id : String)
  deriving Repr

namespace Run

def isPending (run : Run) : Bool := run.status == .pending

def fail (failure : Failure) (run : Run) : Run := { run with status := .failed failure }

/-- A text that was written is given up again when the export has been cancelled meanwhile. -/
def settle (options : Options) (run : Run) : Run :=
  match run.assembly.tables? with
  | some tables =>
    let text := run.request.target.render options tables
    if run.cancelled then run.fail .superseded else { run with status := .done text }
  | none => run

/-- Runs an export until it must wait, and gives the calls that were reached. -/
def advance (options : Options) (source : Source) (gated : Call → Bool) (run : Run) :
    List Call × Run :=
  if run.cancelled then ([], run.fail .superseded)
  else
    match run.assembly.advance source gated run.request.database with
    | (calls, .error failure) => (calls, run.fail failure)
    | (calls, .ok assembly) => (calls, { run with assembly }.settle options)

end Run

namespace Session

def new (options : Options) (source : Source) : Session :=
  { options, source, gates := [], current := none, runs := [], log := [] }

def gated (session : Session) (call : Call) : Bool := session.gates.contains call.name

def cancelCurrent (session : Session) : List Run :=
  match session.current with
  | none => session.runs
  | some place => session.runs.modify place fun run => { run with cancelled := true }

/-- A new export, which runs at once until it must wait. -/
def firstRun (session : Session) (id : String) (request : Request) : List Call × Run :=
  let run : Run :=
    { id, request, cancelled := false, assembly := .start request.selection, status := .pending }
  if request.selection.isEmpty then ([], run.fail .emptySelection)
  else run.advance session.options session.source session.gated

/-- Even an export of nothing takes the place of the one before it. -/
def startRun (session : Session) (id : String) (request : Request) : Session :=
  let (calls, run) := session.firstRun id request
  { session with
    current := some session.runs.length
    runs := session.cancelCurrent ++ [run]
    log := session.log ++ calls.map (Call.logged request.database) }

def dropRun (id : String) (run : Run) : Run :=
  if run.id = id && run.isPending then { run with status := .dropped } else run

def apply (session : Session) : Step → Except Failure Session
  | .start id database selection target =>
    match Target.ofName? target with
    | some target => .ok (session.startRun id ⟨database, selection, target⟩)
    | none => .error (.unknownTarget target)
  | .gate call => .ok { session with gates := call :: session.gates }
  | .release call => .ok { session with gates := session.gates.filter (· != call) }
  | .fail call chain =>
    .ok { session with source.failing := Source.put call chain session.source.failing }
  | .heal call =>
    .ok { session with source.failing := session.source.failing.filter (·.1 != call) }
  | .setColumns table records =>
    .ok { session with source.columns := Source.put table records session.source.columns }
  | .setRelations records => .ok { session with source.links := records }
  | .drop id => .ok { session with runs := session.runs.map (dropRun id) }

/-- Applies the steps up to the first one that is refused. -/
def applyAll (session : Session) : List Step → Session × Option Failure
  | [] => (session, none)
  | step :: steps =>
    match session.apply step with
    | .ok session => session.applyAll steps
    | .error failure => (session, some failure)

def advanceRun (session : Session) (run : Run) : Run :=
  if run.isPending then (run.advance session.options session.source session.gated).2 else run

def advanceRuns (session : Session) : Session :=
  { session with runs := session.runs.map session.advanceRun }

/-- Several steps at once, after which every waiting export is taken up again. -/
def step (session : Session) (steps : List Step) : Session × Option Failure :=
  let (session, failure?) := session.applyAll steps
  (session.advanceRuns, failure?)

structure Report where
  calls : List String
  changes : List (String × Status)
  failure? : Option Failure
  deriving Repr

def changes (before : List Run) (after : List Run) : List (String × Status) :=
  (after.zipIdx.filter fun (run, place) =>
    (before[place]?).map (·.status) != some run.status).map fun (run, _) => (run.id, run.status)

def report (session : Session) (steps : List Step) : Session × Report :=
  let (after, failure?) := session.step steps
  (after,
    { calls := after.log.drop session.log.length
      changes := changes session.runs after.runs
      failure? })

def reports (session : Session) : List (List Step) → List Report
  | [] => []
  | steps :: rest =>
    let (session, report) := session.report steps
    report :: session.reports rest

end Session

end Schemata.Export
