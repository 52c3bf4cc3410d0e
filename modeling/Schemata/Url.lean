import Schemata.Text.Search

/-!
Connection addresses as plain text. The database is named by the path, up to a query or a
fragment. Before an address is shown, the password in it is replaced.
-/
namespace Schemata.Url

def schemeMark : List Char := "://".toList

def databaseChars? (url : List Char) : Option (List Char) := do
  let (_, rest) ← Text.cut schemeMark url
  let (_, path) ← Text.cut ['/'] rest
  let name := Text.before (fun c => c == '?' || c == '#') path
  if name.isEmpty then none else some name

def database? (url : String) : Option String := (databaseChars? url.toList).map String.ofList

/-- The credentials end at the last at sign, and the user at the first colon in them. -/
def redactedChars (url : List Char) : List Char :=
  match Text.cut schemeMark url with
  | none => url
  | some (scheme, rest) =>
    match Text.cutLast '@' rest with
    | none => url
    | some (credentials, host) =>
      match Text.cut [':'] credentials with
      | none => url
      | some (user, _) => scheme ++ schemeMark ++ user ++ ":***@".toList ++ host

def redacted (url : String) : String := String.ofList (redactedChars url.toList)

end Schemata.Url
