import Schemata.Json.Fault
import Schemata.Text.Digits

/-!
The smallest pieces of a JSON text: blanks, the three words, and strings. Strings are read
one character at a time by a machine whose state says how much of an escape has been met.
-/
namespace Schemata.Json

def isBlank (c : Char) : Bool := c == ' ' || c == '\n' || c == '\t' || c == '\r'

def skipBlanks (s : List Char) : List Char := s.dropWhile isBlank

def readWord : List Char → List Char → Except Fault (List Char)
  | [], s => .ok s
  | _ :: _, [] => fault (.ended .value) []
  | w :: word, c :: s => if c = w then readWord word s else faultAt .wantsWord (c :: s)

inductive StringState
  | plain
  | escape
  /-- Inside a hexadecimal escape, after the first surrogate of a pair when there is one. -/
  | hex (lead : Option Nat) (digits value : Nat)
  | lead (code : Nat)
  | leadEscape (code : Nat)

def shortEscape? (c : Char) : Option Char :=
  match c with
  | '"' => some '"'
  | '\\' => some '\\'
  | '/' => some '/'
  | 'b' => some '\x08'
  | 'f' => some '\x0c'
  | 'n' => some '\n'
  | 'r' => some '\r'
  | 't' => some '\t'
  | _ => none

/-- The four digits are taken as four bytes, which must be there before they are looked at. -/
def hexFault {α : Type} (digits : Nat) (rest : List Char) : Except Fault α :=
  let left := Text.byteCount rest + digits
  if left < 4 then fault (.ended .string) [] else .error ⟨.badEscape, left - 4⟩

def isLead (code : Nat) : Bool := 0xD800 ≤ code && code ≤ 0xDBFF

def isTrail (code : Nat) : Bool := 0xDC00 ≤ code && code ≤ 0xDFFF

def pairedChar (lead trail : Nat) : Char :=
  Char.ofNat (0x10000 + (lead - 0xD800) * 0x400 + (trail - 0xDC00))

def readString : StringState → Reader (List Char)
  | _, [] => fault (.ended .string) []
  | .plain, c :: s =>
    if c = '"' then .ok ([], s)
    else if c = '\\' then readString .escape s
    else if c.toNat < 0x20 then faultAt .controlCharacter (c :: s)
    else Text.prepend c <$> readString .plain s
  | .escape, c :: s =>
    match shortEscape? c with
    | some d => Text.prepend d <$> readString .plain s
    | none => if c = 'u' then readString (.hex none 0 0) s else faultAt .badEscape (c :: s)
  | .hex lead digits value, c :: s =>
    match Text.hexValue? c with
    | none => hexFault digits (c :: s)
    | some d =>
      let code := 16 * value + d
      if digits < 3 then readString (.hex lead (digits + 1) code) s
      else
        match lead with
        | none =>
          if isTrail code then fault .loneSurrogate s
          else if isLead code then readString (.lead code) s
          else Text.prepend (Char.ofNat code) <$> readString .plain s
        | some first =>
          if isTrail code then Text.prepend (pairedChar first code) <$> readString .plain s
          else fault .loneSurrogate s
  | .lead code, c :: s =>
    if c = '\\' then readString (.leadEscape code) s else faultAt .endedSurrogate (c :: s)
  | .leadEscape code, c :: s =>
    if c = 'u' then readString (.hex (some code) 0 0) s else faultAt .endedSurrogate (c :: s)

inductive SkipState
  | plain
  | escape
  | hex (digits : Nat)

/-- Passes over a string whose content is not kept, so that surrogates need no partner. -/
def skipString : SkipState → List Char → Except Fault (List Char)
  | _, [] => fault (.ended .string) []
  | .plain, c :: s =>
    if c = '"' then .ok s
    else if c = '\\' then skipString .escape s
    else if c.toNat < 0x20 then fault .controlCharacter (c :: s)
    else skipString .plain s
  | .escape, c :: s =>
    if (shortEscape? c).isSome then skipString .plain s
    else if c = 'u' then skipString (.hex 0) s
    else faultAt .badEscape (c :: s)
  | .hex digits, c :: s =>
    if !Text.isHexDigit c then hexFault digits (c :: s)
    else if digits < 3 then skipString (.hex (digits + 1)) s
    else skipString .plain s

end Schemata.Json
