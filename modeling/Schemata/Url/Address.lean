import Schemata.Text.Casing
import Schemata.Text.Digits
import Schemata.Text.Search
import Schemata.Text.Shown
import Schemata.Text.Utf8

/-!
Connection addresses taken apart: scheme, user information, host, port and query. What is
wrong with an address is found from left to right, and is reported as a chain of causes.
-/
namespace Schemata.Url

inductive AddressFault
  | noScheme
  | emptyHost
  | badPort
  | badIpv4
  | badIpv6
  | badHost
  | badDomain
  | badText (index : Nat) (size : Option Nat)
  | badCount (reason : String)
  | badSecurity (mode : String)
  deriving DecidableEq, Repr

def AddressFault.reason : AddressFault → String
  | noScheme => "relative URL without a base"
  | emptyHost => "empty host"
  | badPort => "invalid port number"
  | badIpv4 => "invalid IPv4 address"
  | badIpv6 => "invalid IPv6 address"
  | badHost => "invalid domain character"
  | badDomain => "invalid international domain name"
  | badText index none => "incomplete utf-8 byte sequence from index " ++ toString index
  | badText index (some size) =>
    "invalid utf-8 sequence of " ++ toString size ++ " bytes from index " ++ toString index
  | badCount reason => reason
  | badSecurity mode => "unknown value " ++ Text.shown mode ++ " for `ssl_mode`"

/-- Each part that passes a fault on says so once more. -/
def AddressFault.levels : AddressFault → Nat
  | badSecurity _ => 2
  | _ => 1

def inSettings (reason : String) : String := "error with configuration: " ++ reason

def wrapped (reason : String) : Nat → List String
  | 0 => [reason]
  | levels + 1 =>
    match wrapped reason levels with
    | [] => [reason]
    | outer :: rest => inSettings outer :: outer :: rest

def AddressFault.causes (fault : AddressFault) : List String := wrapped fault.reason fault.levels

inductive Scheme
  | file
  | web
  | other
  deriving DecidableEq, Repr

/-- Blanks and control characters at the ends do not count, nor do line breaks and tabs. -/
def stripped (s : List Char) : List Char :=
  let isEdge (c : Char) : Bool := c.toNat ≤ 0x20
  let inner := ((s.dropWhile isEdge).reverse.dropWhile isEdge).reverse
  inner.filter fun c => c != '\t' && c != '\n' && c != '\r'

def isSchemeChar (c : Char) : Bool := c.isAlphanum || c == '+' || c == '-' || c == '.'

def scheme? (s : List Char) : Option (Scheme × List Char) :=
  let name := s.takeWhile isSchemeChar
  match name, s.dropWhile isSchemeChar with
  | c :: _, ':' :: rest =>
    if !c.isAlpha then none
    else
      match String.ofList (name.map Char.toLower) with
      | "file" => some (.file, rest)
      | "http" | "https" | "ws" | "wss" | "ftp" => some (.web, rest)
      | _ => some (.other, rest)
  | _, _ => none

def endsAuthority (scheme : Scheme) (c : Char) : Bool :=
  c == '/' || c == '?' || c == '#' || (scheme == .web && c == '\\')

/-! Hosts. -/

def hexGroup? (s : List Char) : Option Unit :=
  if !s.isEmpty && s.length ≤ 4 && s.all Text.isHexDigit then some () else none

def decimalByte? (s : List Char) : Option Unit :=
  if !s.isEmpty && s.length ≤ 3 && s.all Char.isDigit && Text.decimalValue s ≤ 255 &&
      (s.length == 1 || s.head? != some '0') then some () else none

def isDottedQuad (s : List Char) : Bool :=
  let parts := s.splitOn '.'
  parts.length == 4 && parts.all fun part => (decimalByte? part).isSome

/-- The number of 16-bit groups that a part of an address stands for. -/
def groupCount? (s : List Char) : Option Nat :=
  if s.isEmpty then some 0
  else
    let groups := s.splitOn ':'
    if groups.dropLast.all fun g => (hexGroup? g).isSome then
      match groups.getLast? with
      | some last =>
        if (hexGroup? last).isSome then some groups.length
        else if isDottedQuad last then some (groups.length + 1)
        else none
      | none => none
    else none

def isIpv6 (s : List Char) : Bool :=
  match Text.cut [':', ':'] s with
  | none => groupCount? s == some 8
  | some (front, back) =>
    let noQuad := !front.contains '.'
    match groupCount? front, groupCount? back with
    | some m, some n => noQuad && m + n ≤ 7
    | _, _ => false

def isForbidden (c : Char) : Bool :=
  ['\x00', '\t', '\n', '\r', ' ', '#', '/', ':', '<', '>', '?', '@', '[', '\\', ']', '^',
    '|'].contains c

def isForbiddenInDomain (c : Char) : Bool :=
  isForbidden c || c == '%' || c.toNat ≤ 0x1F || c == '\x7f'

def isNumericLabel (s : List Char) : Bool :=
  (!s.isEmpty && s.all Char.isDigit) ||
    (match s with
    | '0' :: x :: rest => (x == 'x' || x == 'X') && (rest.isEmpty || (hexGroup? rest).isSome)
    | _ => false)

def lastLabel (s : List Char) : List Char :=
  match (s.splitOn '.').reverse with
  | [] :: label :: _ => label
  | label :: _ => label
  | [] => []

def checkHost (scheme : Scheme) (host : List Char) : Except AddressFault Unit :=
  match host with
  | '[' :: rest =>
    if rest.getLast? == some ']' && isIpv6 rest.dropLast then .ok () else .error .badIpv6
  | host =>
    if scheme == .web then
      if host.any isForbiddenInDomain then .error .badDomain
      else if isNumericLabel (lastLabel host) && !isDottedQuad host then .error .badIpv4
      else .ok ()
    else if host.any isForbidden then .error .badHost
    else .ok ()

/-- The host ends at the first colon that stands outside brackets. -/
def splitHost (inBrackets : Bool) : List Char → List Char × Option (List Char)
  | [] => ([], none)
  | c :: rest =>
    if c = ':' && !inBrackets then ([], some rest)
    else
      let inside := if c = '[' then true else if c = ']' then false else inBrackets
      let (host, port?) := splitHost inside rest
      (c :: host, port?)

def checkPort (port : List Char) : Except AddressFault Unit :=
  if port.all Char.isDigit && Text.decimalValue port ≤ 65535 then .ok () else .error .badPort

def checkHostAndPort (scheme : Scheme) (hasUser : Bool) (s : List Char) :
    Except AddressFault Unit := do
  let (host, port?) := splitHost false s
  if host.isEmpty && scheme == .web then throw .emptyHost
  checkHost scheme host
  if host.isEmpty && port?.isSome then throw .emptyHost
  match port? with
  | some port => checkPort port
  | none => pure ()
  if host.isEmpty && hasUser then throw .emptyHost

/-- The user and the password before the last at sign. -/
structure UserInfo where
  user : List Char := []
  password : List Char := []

def userInfoOf (s : List Char) : UserInfo :=
  match Text.cut [':'] s with
  | some (user, password) => ⟨user, password⟩
  | none => ⟨s, []⟩

def checkAuthority (scheme : Scheme) (authority : List Char) (atEnd : Bool) :
    Except AddressFault UserInfo := do
  match Text.cutLast '@' authority with
  | none =>
    checkHostAndPort scheme false authority
    return {}
  | some (info, host) =>
    if info.isEmpty && host.isEmpty && !atEnd then throw .emptyHost
    let info := userInfoOf info
    checkHostAndPort scheme (!info.user.isEmpty || !info.password.isEmpty) host
    return info

/-! Queries. -/

def utf8Bytes (c : Char) : List Nat := (String.utf8EncodeChar c).map UInt8.toNat

/-- The bytes of a text in which a percent sign and two digits stand for one byte. -/
def percentDecoded : List Char → List Nat
  | '%' :: a :: b :: rest =>
    match Text.hexValue? a, Text.hexValue? b with
    | some high, some low => (16 * high + low) :: percentDecoded rest
    | _, _ => utf8Bytes '%' ++ percentDecoded (a :: b :: rest)
  | c :: rest => utf8Bytes c ++ percentDecoded rest
  | [] => []

def queryText (s : List Char) : String :=
  String.ofList (Text.decoded (percentDecoded (s.map fun c => if c = '+' then ' ' else c)))

def queryPairs (query : List Char) : List (String × String) :=
  ((query.splitOn '&').filter (!·.isEmpty)).map fun pair =>
    match Text.cut ['='] pair with
    | some (key, value) => (queryText key, queryText value)
    | none => (queryText pair, "")

def securityModes : List String :=
  ["disabled", "preferred", "required", "verify_ca", "verify_identity"]

def largestCount : Nat := UInt64.size - 1

def checkCount (value : String) : Except AddressFault Unit :=
  let digits := match value.toList with
    | '+' :: c :: rest => c :: rest
    | s => s
  if digits.isEmpty then .error (.badCount "cannot parse integer from empty string")
  else if !digits.all Char.isDigit then .error (.badCount "invalid digit found in string")
  else if largestCount < Text.decimalValue digits then
    .error (.badCount "number too large to fit in target type")
  else .ok ()

def checkPair (pair : String × String) : Except AddressFault Unit :=
  if ["sslmode", "ssl-mode"].contains pair.1 then
    if securityModes.contains (Text.lower pair.2) then .ok () else .error (.badSecurity pair.2)
  else if pair.1 == "statement-cache-capacity" then checkCount pair.2
  else .ok ()

def checkText (s : List Char) : Except AddressFault Unit :=
  let bytes := percentDecoded s
  match Text.firstBad? 0 bytes.length bytes with
  | some (index, size) => .error (.badText index size)
  | none => .ok ()

def withoutFragment (s : List Char) : List Char := s.takeWhile (· != '#')

/-- Where the authority starts, if the address has one. -/
def authority? (scheme : Scheme) (s : List Char) : Option (List Char) :=
  match scheme with
  | .file => none
  | .web => some (s.dropWhile fun c => c == '/' || c == '\\')
  | .other =>
    match s with
    | '/' :: '/' :: rest => some rest
    | _ => none

def check (url : String) : Except AddressFault Unit := do
  match scheme? (stripped url.toList) with
  | none => throw .noScheme
  | some (scheme, rest) =>
    let info ← match authority? scheme rest with
      | none => pure {}
      | some s =>
        let authority := s.takeWhile (!endsAuthority scheme ·)
        checkAuthority scheme authority (s.length == authority.length)
    checkText info.user
    checkText info.password
    match Text.cut ['?'] (withoutFragment rest) with
    | some (_, query) => (queryPairs query).forM checkPair
    | none => pure ()

end Schemata.Url
