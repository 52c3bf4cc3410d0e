import Schemata.Proofs.Json.Grammar

/-!
What the trees of a document stand for, kind by kind. A record is an object whose members may
come in any order, or an array of its parts in their order. In an object a part has at most one
member of its name, and members of other names are of no account. A part that has its default
may be missing from an object and left off the end of an array.
-/
namespace Schemata.Json

/-- A part of a record, as some value has it: the trees that stand for what the value has
there, and whether that is the default of the part. -/
structure Part where
  name : String
  holds : Tree → Prop
  isDefault : Prop

namespace Part

variable {α : Type}

def needed (name : String) (kind : Tree → α → Prop) (value : α) : Part :=
  ⟨name, (kind · value), False⟩

def defaulted (name : String) (kind : Tree → α → Prop) (default value : α) : Part :=
  ⟨name, (kind · value), default = value⟩

/-- The parts in their order, where those left off at the end have their defaults. -/
def InOrder : List Part → List Tree → Prop
  | [], [] => True
  | [], _ :: _ => False
  | part :: parts, [] => part.isDefault ∧ InOrder parts []
  | part :: parts, item :: items => part.holds item ∧ InOrder parts items

end Part

/-- The values of the members whose key is the given name. -/
def valuesOf (name : String) (members : List (List Piece × Tree)) : List Tree :=
  members.filterMap fun member => if textOf? member.1 = some name then some member.2 else none

def Part.InObject (members : List (List Piece × Tree)) (part : Part) : Prop :=
  match valuesOf part.name members with
  | [] => part.isDefault
  | [value] => part.holds value
  | _ => False

namespace Tree

variable {α : Type}

def IsString : Tree → String → Prop
  | string pieces, s => textOf? pieces = some s
  | _, _ => False

def IsFlag : Tree → Bool → Prop
  | boolean value, flag => value = flag
  | _, _ => False

/-- Nothing but digits, whose value fits 32 bits. -/
def IsCount : Tree → UInt32 → Prop
  | number written, n =>
    (∀ c ∈ written, c.isDigit = true) ∧ Nat.ofDigitChars 10 written 0 = n.toNat
  | _, _ => False

def IsOptional (kind : Tree → α → Prop) (tree : Tree) (value : Option α) : Prop :=
  tree = null ∧ value = none ∨ ∃ x, value = some x ∧ kind tree x

/-- A name alone, or as the only key of an object whose value is null. -/
def IsVariant : Tree → String → Prop
  | string pieces, name => textOf? pieces = some name
  | object [(key, null)], name => textOf? key = some name
  | _, _ => False

def IsList (kind : Tree → α → Prop) : Tree → List α → Prop
  | array items, values => List.Forall₂ kind items values
  | _, _ => False

/-- A record with the given parts, in whose objects only some keys may stand. -/
def IsRecord (keys : List Piece → Prop) (parts : List Part) : Tree → Prop
  | object members => (∀ member ∈ members, keys member.1) ∧ ∀ part ∈ parts, part.InObject members
  | array items => Part.InOrder parts items
  | _ => False

end Tree

end Schemata.Json
