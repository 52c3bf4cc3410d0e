/-!
Bytes that should be UTF-8. A sequence is followed byte by byte as long as it may still
become a character, so that a bad one ends before the byte that spoils it.
-/
namespace Schemata.Text

/-- The number of bytes that follow a leading byte, and the range of the first of them. -/
def sequenceAfter? (lead : Nat) : Option (Nat × Nat × Nat) :=
  if lead < 0x80 then some (0, 0, 0)
  else if 0xC2 ≤ lead && lead ≤ 0xDF then some (1, 0x80, 0xBF)
  else if lead == 0xE0 then some (2, 0xA0, 0xBF)
  else if lead == 0xED then some (2, 0x80, 0x9F)
  else if 0xE1 ≤ lead && lead ≤ 0xEF then some (2, 0x80, 0xBF)
  else if lead == 0xF0 then some (3, 0x90, 0xBF)
  else if 0xF1 ≤ lead && lead ≤ 0xF3 then some (3, 0x80, 0xBF)
  else if lead == 0xF4 then some (3, 0x80, 0x8F)
  else none

inductive Decoded
  | char (c : Char) (size : Nat)
  /-- Bytes that are no character, whatever follows them. -/
  | invalid (size : Nat)
  /-- Bytes that end before their character does. -/
  | incomplete (size : Nat)

def follow (code size low high : Nat) : Nat → List Nat → Decoded
  | 0, _ => .char (Char.ofNat code) size
  | _ + 1, [] => .incomplete size
  | left + 1, b :: rest =>
    if low ≤ b && b ≤ high then follow (code * 64 + (b - 0x80)) (size + 1) 0x80 0xBF left rest
    else .invalid size

def leadBits (count lead : Nat) : Nat :=
  match count with
  | 0 => lead
  | 1 => lead - 0xC0
  | 2 => lead - 0xE0
  | _ => lead - 0xF0

def decodeFirst (lead : Nat) (rest : List Nat) : Decoded :=
  match sequenceAfter? lead with
  | some (count, low, high) => follow (leadBits count lead) 1 low high count rest
  | none => .invalid 1

/-- Every bad sequence becomes one replacement character. -/
def decodedFrom : Nat → List Nat → List Char
  | 0, _ => []
  | _ + 1, [] => []
  | steps + 1, lead :: rest =>
    match decodeFirst lead rest with
    | .char c size => c :: decodedFrom steps ((lead :: rest).drop size)
    | .invalid size | .incomplete size =>
      '\ufffd' :: decodedFrom steps ((lead :: rest).drop size)

def decoded (bytes : List Nat) : List Char := decodedFrom bytes.length bytes

/-- The first sequence that is no character: where it is, and its length if it has ended. -/
def firstBad? (index : Nat) : Nat → List Nat → Option (Nat × Option Nat)
  | 0, _ => none
  | _ + 1, [] => none
  | steps + 1, lead :: rest =>
    match decodeFirst lead rest with
    | .char _ size => firstBad? (index + size) steps ((lead :: rest).drop size)
    | .invalid size => some (index, some size)
    | .incomplete _ => some (index, none)

/-- A mark at the start of a text that tells its encoding is no part of the text. -/
def withoutMark : List Char → List Char
  | '\ufeff' :: rest => rest
  | s => s

end Schemata.Text
