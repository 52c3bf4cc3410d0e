import Schemata.Json.Scan

/-!
Passing over a value that nobody asked for. It must be well-formed, but its numbers may
have any size and its strings any surrogates.
-/
namespace Schemata.Json

def skipDigits (s : List Char) : List Char := s.dropWhile Char.isDigit

def skipExponent (s : List Char) : Except Fault (List Char) :=
  let digits := match s with
    | '+' :: rest | '-' :: rest => rest
    | s => s
  match digits with
  | [] => fault .badNumber []
  | c :: rest => if c.isDigit then .ok (skipDigits rest) else faultAt .badNumber (c :: rest)

def skipAfterDecimals : List Char → Except Fault (List Char)
  | 'e' :: s | 'E' :: s => skipExponent s
  | s => .ok s

def skipAfterWhole : List Char → Except Fault (List Char)
  | '.' :: c :: s =>
    if c.isDigit then skipAfterDecimals (skipDigits s) else faultAt .badNumber (c :: s)
  | ['.'] => fault .badNumber []
  | s => skipAfterDecimals s

def skipNumber : List Char → Except Fault (List Char)
  | [] => fault .badNumber []
  | '0' :: c :: s =>
    if c.isDigit then faultAt .badNumber (c :: s) else skipAfterWhole (c :: s)
  | ['0'] => .ok []
  | c :: s => if c.isDigit then skipAfterWhole (skipDigits s) else faultAt .badNumber (c :: s)

def skipColon (s : List Char) : Except Fault (List Char) :=
  match skipBlanks s with
  | [] => fault (.ended .object) []
  | ':' :: rest => .ok rest
  | rest => faultAt .wantsColon rest

def skipKey (s : List Char) : Except Fault (List Char) :=
  match skipBlanks s with
  | [] => fault (.ended .object) []
  | '"' :: rest => do skipColon (← skipString .plain rest)
  | rest => faultAt .wantsKey rest

mutual

def skipSteps : Nat → List Char → Except Fault (List Char)
  | 0, s => fault .wantsValue s
  | steps + 1, s =>
    match skipBlanks s with
    | [] => fault (.ended .value) []
    | 'n' :: rest => readWord "ull".toList rest
    | 't' :: rest => readWord "rue".toList rest
    | 'f' :: rest => readWord "alse".toList rest
    | '-' :: rest => skipNumber rest
    | '"' :: rest => skipString .plain rest
    | '[' :: rest =>
      match skipBlanks rest with
      | [] => fault (.ended .list) []
      | ']' :: rest => .ok rest
      | rest => do skipItems steps (← skipSteps steps rest)
    | '\x7b' :: rest =>
      match skipBlanks rest with
      | [] => fault (.ended .object) []
      | '\x7d' :: rest => .ok rest
      | rest => do skipMembers steps (← skipSteps steps (← skipKey rest))
    | c :: rest => if c.isDigit then skipNumber (c :: rest) else faultAt .wantsValue (c :: rest)

def skipItems : Nat → List Char → Except Fault (List Char)
  | 0, s => fault .wantsValue s
  | steps + 1, s =>
    match skipBlanks s with
    | [] => fault (.ended .list) []
    | ',' :: rest => do skipItems steps (← skipSteps steps rest)
    | ']' :: rest => .ok rest
    | rest => faultAt .wantsItemEnd rest

def skipMembers : Nat → List Char → Except Fault (List Char)
  | 0, s => fault .wantsValue s
  | steps + 1, s =>
    match skipBlanks s with
    | [] => fault (.ended .object) []
    | ',' :: rest => do skipMembers steps (← skipSteps steps (← skipKey rest))
    | '\x7d' :: rest => .ok rest
    | rest => faultAt .wantsMemberEnd rest

end

/-- Every step takes a character of the text, so that its length bounds their number. -/
def skipValue (s : List Char) : Except Fault (List Char) := skipSteps (s.length + 1) s

end Schemata.Json
