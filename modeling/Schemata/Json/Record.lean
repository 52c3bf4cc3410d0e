import Schemata.Json.Reader
import Schemata.Json.Skip

/-!
Records: objects whose keys are the names of fields, or arrays with the fields in order. An
object may have further keys, whose values are passed over, but no field twice. A field
with a default may be missing from an object and left off the end of an array.
-/
namespace Schemata.Json

structure Field (α : Type) where
  name : String
  reader : Reader α
  absent : Option α := none

inductive Fields : List Type → Type 1
  | nil : Fields []
  | cons {α : Type} {αs : List Type} (field : Field α) (fields : Fields αs) : Fields (α :: αs)

/-- The values of all fields. -/
def Row : List Type → Type
  | [] => Unit
  | α :: αs => α × Row αs

/-- The values of the fields that have been met. -/
def Slots : List Type → Type
  | [] => Unit
  | α :: αs => Option α × Slots αs

def Slots.empty : (αs : List Type) → Slots αs
  | [] => ()
  | _ :: αs => (none, Slots.empty αs)

/-- The rest of an object after a repeated key, with the object closed if it ends there. -/
def afterKey (s : List Char) : List Char :=
  match skipBlanks s with
  | '\x7d' :: rest => rest
  | rest => rest

namespace Fields

def names {αs : List Type} : Fields αs → List String
  | nil => []
  | cons field fields => field.name :: fields.names

/-- Reads the value of a key into its slot, or passes over the value of an unknown key. -/
def readMember {αs : List Type} (key : String) : Fields αs → Slots αs → Reader (Slots αs)
  | nil, (), s => do return ((), ← skipValue (← Reader.colon s))
  | cons field fields, (slot, slots), s =>
    if key = field.name then
      if slot.isSome then fault (.mismatch (.repeated key)) (afterKey s)
      else do
        let (value, rest) ← field.reader (← Reader.colon s)
        return ((some value, slots), rest)
    else do
      let (slots, rest) ← fields.readMember key slots s
      return ((slot, slots), rest)

/-- The row of the slots, or the name of the first field that is missing. -/
def complete {αs : List Type} : Fields αs → Slots αs → Except String (Row αs)
  | nil, () => .ok ()
  | cons field fields, (slot, slots) =>
    match slot.or field.absent with
    | none => .error field.name
    | some value => do return (value, ← fields.complete slots)

def readItems {αs : List Type} (wanted : String) (found : Nat) : Fields αs → Reader (Row αs)
  | nil, s => .ok ((), s)
  | cons field fields, s => do
    match ← Reader.nextItem? (found == 0) s with
    | some s =>
      let (value, rest) ← field.reader s
      let (row, rest) ← fields.readItems wanted (found + 1) rest
      return ((value, row), rest)
    | none =>
      match field.absent with
      | some value =>
        let (row, rest) ← fields.readItems wanted (found + 1) s
        return ((value, row), rest)
      | none => fault (.mismatch (.length found wanted)) (← Reader.endList s)

end Fields

/-- The text of the next key of an object, after its opening quote, or nothing at the end. -/
def nextKey? (first : Bool) (s : List Char) : Except Fault (Option (List Char)) :=
  match skipBlanks s with
  | [] => fault (.ended .object) []
  | '\x7d' :: _ => .ok none
  | c :: rest =>
    if first then if c = '"' then .ok (some rest) else faultAt .wantsKey (c :: rest)
    else if c = ',' then
      match skipBlanks rest with
      | [] => fault (.ended .value) []
      | '"' :: rest => .ok (some rest)
      | '\x7d' :: rest => faultAt .trailingComma ('\x7d' :: rest)
      | rest => faultAt .wantsKey rest
    else faultAt .wantsMemberEnd (c :: rest)

def endObject (s : List Char) : Except Fault (List Char) :=
  match skipBlanks s with
  | [] => fault (.ended .object) []
  | '\x7d' :: rest => .ok rest
  | ',' :: rest => faultAt .trailingComma (',' :: rest)
  | rest => faultAt .trailingCharacters rest

def members {αs : List Type} (fields : Fields αs) :
    Nat → Bool → Slots αs → Reader (Slots αs)
  | 0, _, _, s => fault .wantsMemberEnd s
  | steps + 1, first, slots, s => do
    match ← nextKey? first s with
    | none => return (slots, ← endObject s)
    | some s =>
      let (key, rest) ← readString .plain s
      let (slots, rest) ← fields.readMember (String.ofList key) slots rest
      members fields steps false slots rest

def wantedLength (title : String) (count : Nat) : String :=
  title ++ " with " ++ toString count ++ (if count = 1 then " element" else " elements")

def record {α : Type} {αs : List Type} (title : String) (fields : Fields αs)
    (build : Row αs → α) : Reader α := fun s =>
  match skipBlanks s with
  | '[' :: rest => do
    let (row, rest) ← fields.readItems (wantedLength title fields.names.length) 0 rest
    return (build row, ← Reader.endList rest)
  | '\x7b' :: rest => do
    let (slots, rest) ← members fields (rest.length + 1) true (Slots.empty αs) rest
    match fields.complete slots with
    | .ok row => return (build row, rest)
    | .error name => fault (.mismatch (.missing name)) rest
  | rest => Reader.refuse title rest

end Schemata.Json
