import Schemata.Toml.Scan

/-!
Values of a TOML document, and the rule by which a key with dots finds its table: each step
before the last one enters a table, which is made when it is not there. Only tables that
such steps have made may be entered again in this way.
-/
namespace Schemata.Toml

def find? (name : String) (entries : Entries) : Option Node :=
  (entries.find? (·.1.name == name)).map (·.2)

def replace (name : String) (node : Node) (entries : Entries) : Entries :=
  entries.map fun (key, old) => (key, if key.name = name then node else old)

abbrev Change := Shape → Entries → Option (Shape × Entries)

/-- May steps of a path enter the table? -/
def Shape.isOpen (shape : Shape) (dotted : Bool) : Bool :=
  shape.implicit || (!dotted && !shape.inBraces)

def changeIn (change : Change) (dotted : Bool) : Node → Option Node
  | .table shape entries =>
    if shape.isOpen dotted then do
      let (shape, entries) ← change shape entries
      return .table shape entries
    else none
  | _ => none

def changeLast (change : Change) : List Node → Option (List Node)
  | [] => none
  | [.table shape entries] => do
    let (shape, entries) ← change shape entries
    return [.table shape entries]
  | node :: rest => do return node :: (← changeLast change rest)

/-- Changes the table at the end of a path. An array of tables is entered at its last one. -/
def changeAt (dotted inBraces : Bool) (change : Change) : List Key → Change
  | [] => change
  | key :: path => fun shape entries =>
    match find? key.name entries with
    | none => do
      let fresh : Shape := { implicit := true, dotted, inBraces }
      let (inner, innerEntries) ← changeAt dotted inBraces change path fresh []
      return (shape, entries ++ [(key, .table inner innerEntries)])
    | some (.tables elements) => do
      let elements ← changeLast (changeAt dotted inBraces change path) elements
      return (shape, replace key.name (.tables elements) entries)
    | some node => do
      let node ← changeIn (changeAt dotted inBraces change path) dotted node
      return (shape, replace key.name node entries)

/-- A new key. The table of a dotted key must be a dotted one, and no other may be. -/
def insertNew (key : Key) (value : Node) (behindDots : Bool) : Change := fun shape entries =>
  if shape.dotted != behindDots || (find? key.name entries).isSome then none
  else some (shape, entries ++ [(key, value)])

def assign (inBraces : Bool) (path : List Key) (value : Node) : Change :=
  match path.getLast? with
  | none => fun _ _ => none
  | some key =>
    changeAt true inBraces (insertNew key value (!path.dropLast.isEmpty)) path.dropLast

def addPair (table : Shape × Entries) (pair : List Key × Node) : Option (Shape × Entries) :=
  assign true pair.1 pair.2 table.1 table.2

/-- The entries of a table in braces. -/
def collect (pairs : List (List Key × Node)) : Option Entries := do
  let (_, entries) ← pairs.foldlM addPair ({ inBraces := true }, [])
  return entries

/-- The items of an array up to its closing bracket, with at most one comma behind the last. -/
def items? (item? : Scanner Node) : Nat → Scanner (List Node)
  | 0, s =>
    match s with
    | ']' :: rest => some ([], rest)
    | _ => none
  | steps + 1, s =>
    match s with
    | ']' :: rest => some ([], rest)
    | s => do
      let (item, rest) ← item? s
      match skipLines rest.length rest with
      | ',' :: rest =>
        let (items, rest) ← items? item? steps (skipLines rest.length rest)
        return (item :: items, rest)
      | ']' :: rest => return ([item], rest)
      | _ => none

/-- The pairs of a table in braces up to its closing brace, which no comma may precede. -/
def pairs? (value? : Scanner Node) : Nat → Scanner (List (List Key × Node))
  | 0, _ => none
  | steps + 1, s => do
    let (path, rest) ← path? s
    let rest ← sign? '=' rest
    let (value, rest) ← value? (skipBlanks rest)
    match skipBlanks rest with
    | ',' :: rest =>
      let (pairs, rest) ← pairs? value? steps rest
      return ((path, value) :: pairs, rest)
    | '\x7d' :: rest => return ([(path, value)], rest)
    | _ => none

/-- A value, in which brackets and braces may stand only so deep. -/
def value? : Nat → Scanner Node
  | 0, _ => none
  | depth + 1, s =>
    match s with
    | '[' :: rest =>
      if depth = 0 then none
      else do
        let (items, behind) ← items? (value? depth) rest.length (skipLines rest.length rest)
        return (.array (spanOf s behind) items, behind)
    | '\x7b' :: rest =>
      if depth = 0 then none
      else match skipBlanks rest with
      | '\x7d' :: behind =>
        some (.table { span := some (spanOf s behind), inBraces := true } [], behind)
      | _ => do
        let (pairs, behind) ← pairs? (value? depth) rest.length rest
        let entries ← collect pairs
        return (.table { span := some (spanOf s behind), inBraces := true } entries, behind)
    | 't' :: _ => do
      let behind ← word? "true" s
      return (.scalar (spanOf s behind) (.boolean true), behind)
    | 'f' :: _ => do
      let behind ← word? "false" s
      return (.scalar (spanOf s behind) (.boolean false), behind)
    | '"' :: _ | '\'' :: _ => do
      let (text, behind) ← string? s
      return (.scalar (spanOf s behind) (.string (String.ofList text)), behind)
    | _ => do
      let (scalar, behind) ← numeral? s
      return (.scalar (spanOf s behind) scalar, behind)

end Schemata.Toml
