/-!
The values of a TOML document, each with the place it was read from. A table remembers how
it came about, since that decides whether a later part of the document may add to it.
-/
namespace Schemata.Toml

/-- A stretch of the text, by the bytes that were left before and behind it. -/
structure Span where
  left : Nat
  leftBehind : Nat
  deriving DecidableEq, Repr

def Span.length (span : Span) : Nat := span.left - span.leftBehind

def Span.through (first last : Span) : Span := ⟨first.left, last.leftBehind⟩

structure Key where
  name : String
  span : Span
  deriving DecidableEq, Repr

inductive Scalar
  | string (text : String)
  | integer (value : Int)
  | float (value : Float)
  | boolean (value : Bool)
  | moment

/-- An implicit table stands for a step of a path, a dotted one for a step of a dotted key,
and an inline one is written in braces. -/
structure Shape where
  span : Option Span := none
  implicit : Bool := false
  dotted : Bool := false
  inBraces : Bool := false
  deriving DecidableEq, Repr

inductive Node
  | scalar (span : Span) (value : Scalar)
  | array (span : Span) (items : List Node)
  | table (shape : Shape) (entries : List (Key × Node))
  | tables (elements : List Node)
  deriving Inhabited

abbrev Entries := List (Key × Node)

namespace Node

def ownSpan? : Node → Option Span
  | scalar span _ => some span
  | array span _ => some span
  | table shape _ => shape.span
  | tables _ => none

def span? (node : Node) : Option Span :=
  match node with
  | tables elements => do
    let first ← elements.head? >>= ownSpan?
    let last ← elements.getLast? >>= ownSpan?
    return first.through last
  | node => node.ownSpan?

end Node

end Schemata.Toml
