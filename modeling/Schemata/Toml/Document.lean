import Schemata.Text.Utf8
import Schemata.Toml.Value

/-!
Whole TOML documents. A document is a list of lines that matter: assignments, headers of
tables and headers of elements of arrays of tables. They are taken in order into one table,
and a line that would define something twice makes the document malformed.
-/
namespace Schemata.Toml

inductive Line
  | assignment (path : List Key) (value : Node)
  | header (path : List Key) (span : Span)
  | elementHeader (path : List Key) (span : Span)

def assignment? (s : List Char) : Option (Line × List Char) := do
  let (path, rest) ← path? s
  let rest ← sign? '=' rest
  let (value, rest) ← value? (depthLimit + 1) (skipBlanks rest)
  return (.assignment path value, ← lineEnd? rest)

def header? (s : List Char) : Option (Line × List Char) :=
  match s with
  | '[' :: '[' :: rest => do
    let (path, rest) ← path? rest
    let behind ← sign? ']' (← sign? ']' rest)
    return (.elementHeader path (spanOf s behind), ← lineEnd? behind)
  | '[' :: rest => do
    let (path, rest) ← path? rest
    let behind ← sign? ']' rest
    return (.header path (spanOf s behind), ← lineEnd? behind)
  | _ => none

def lines? : Nat → List Char → Option (List Line)
  | 0, _ => none
  | steps + 1, s => do
    match skipLines s.length s with
    | [] => return []
    | '[' :: rest =>
      let (line, rest) ← header? ('[' :: rest)
      return line :: (← lines? steps rest)
    | s =>
      let (line, rest) ← assignment? s
      return line :: (← lines? steps rest)

/-- The table being filled stays apart from the rest of the document until it is closed. -/
structure Building where
  root : Entries := []
  path : List Key := []
  isElement : Bool := false
  shape : Shape := {}
  entries : Entries := []

def rootShape : Shape := {}

def atParent (path : List Key) (change : Key → Change) (root : Entries) : Option Entries :=
  match path.getLast? with
  | none => none
  | some key => (changeAt false false (change key) path.dropLast rootShape root).map (·.2)

def appendElement (element : Node) (key : Key) : Change := fun shape entries =>
  match find? key.name entries with
  | none => some (shape, entries ++ [(key, .tables [element])])
  | some (.tables elements) =>
    some (shape, replace key.name (.tables (elements ++ [element])) entries)
  | some _ => none

def insertTable (table : Node) (key : Key) : Change := fun shape entries =>
  match find? key.name entries with
  | none => some (shape, entries ++ [(key, table)])
  | some (.table old _) =>
    if old.implicit then some (shape, replace key.name table entries) else none
  | some _ => none

def Building.close (b : Building) : Option Entries :=
  if b.path.isEmpty then some b.entries
  else if b.isElement then atParent b.path (appendElement (.table b.shape b.entries)) b.root
  else atParent b.path (insertTable (.table b.shape b.entries)) b.root

/-- A header may name a table that so far only stands for a step of a path. Its entries are
taken over, and it moves to the end of its parent. -/
def takeImplicit (key : Key) (entries : Entries) : Option (Entries × Entries) :=
  match find? key.name entries with
  | none => some ([], entries)
  | some (.table shape inner) =>
    if shape.implicit && !shape.dotted then
      some (inner, entries.filter (·.1.name != key.name))
    else none
  | some _ => none

def entriesAt? (path : List Key) (root : Entries) : Option Entries := do
  let probe : Change := fun _ entries => some ({}, entries)
  let _ ← changeAt false false probe path rootShape root
  lookUp path root
where
  lookUp : List Key → Entries → Option Entries
    | [], entries => some entries
    | key :: path, entries =>
      match find? key.name entries with
      | some (.table _ inner) => lookUp path inner
      | some (.tables elements) =>
        match elements.getLast? with
        | some (.table _ inner) => lookUp path inner
        | _ => none
      | some _ => none
      | none => some []

def Building.openTable (b : Building) (path : List Key) (span : Span) : Option Building := do
  let root ← b.close
  let key ← path.getLast?
  let (inner, _) ← takeImplicit key (← entriesAt? path.dropLast root)
  let remove : Key → Change := fun key shape entries =>
    (takeImplicit key entries).map fun (_, entries) => (shape, entries)
  let root ← atParent path remove root
  return { root, path, shape := { span := some span }, entries := inner }

def Building.openElement (b : Building) (path : List Key) (span : Span) : Option Building := do
  let root ← b.close
  let check : Key → Change := fun key shape entries =>
    match find? key.name entries with
    | none => some (shape, entries)
    | some (.tables _) => some (shape, entries)
    | some _ => none
  let root ← atParent path check root
  return { root, path, isElement := true, shape := { span := some span } }

/-- The span of a table reaches from its header to its last value. -/
def extended (shape : Shape) (value : Node) : Shape :=
  match shape.span, value.span? with
  | some span, some behind => { shape with span := some (span.through behind) }
  | _, _ => shape

def Building.take (b : Building) : Line → Option Building
  | .assignment path value => do
    let (shape, entries) ← assign false path value (extended b.shape value) b.entries
    return { b with shape, entries }
  | .header path span => b.openTable path span
  | .elementHeader path span => b.openElement path span

/-- The entries of the document's table, in order, or nothing when it is malformed. -/
def parse (text : String) : Option Entries := do
  let s := Text.withoutMark text.toList
  let lines ← lines? (s.length + 1) s
  let built ← lines.foldlM Building.take {}
  built.close

end Schemata.Toml
