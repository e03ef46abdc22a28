import ClusterControl.Network.Address

/-!
# Web addresses

An address has a scheme, usually an authority, and a path.  Queries and fragments are read over:
what is fetched is always a path relative to a base address, and that leaves them behind.
-/

namespace ClusterControl.Network

/-- The path of an address; an unsplit one has no parts that another could be relative to. -/
inductive UrlPath
  | unsplit (text : String)
  | segments (parts : List String)
  deriving DecidableEq, Repr

structure Url where
  scheme : String
  /-- User, host and port as they are written; `none` for an address without an authority. -/
  authority : Option String
  path : UrlPath
  deriving DecidableEq, Repr

namespace Url

/-! ## Percent encoding -/

/-- A byte as a percent sign and two upper-case hexadecimal digits. -/
def percentByte (b : UInt8) : List Char :=
  let digit := fun (n : Nat) => Char.ofNat (if n < 10 then 0x30 + n else 0x41 + n - 10)
  ['%', digit (b.toNat / 16), digit (b.toNat % 16)]

/-- Encodes the characters that are special, control characters and those beyond ASCII. -/
def percentEncode (special : List Char) (text : List Char) : List Char :=
  text.flatMap fun c =>
    if c.toNat < 0x20 || 0x7f ≤ c.toNat || special.contains c then
      (c.toString.toUTF8.toList).flatMap percentByte
    else [c]

/-- The bytes of a text whose percent signs stand for bytes. -/
def percentDecode : List Char → List UInt8
  | '%' :: a :: b :: rest =>
    if digitValue a < 16 ∧ digitValue b < 16 then
      UInt8.ofNat (digitValue a * 16 + digitValue b) :: percentDecode rest
    else '%'.toString.toUTF8.toList ++ percentDecode (a :: b :: rest)
  | c :: rest => c.toString.toUTF8.toList ++ percentDecode rest
  | [] => []

def pathSpecial : List Char := [' ', '"', '#', '<', '>', '?', '\u0060', '\x7b', '\x7d']

def userSpecial : List Char :=
  pathSpecial ++ ['/', ':', ';', '=', '@', '[', '\\', ']', '^', '|']

/-! ## Parts -/

/-- Schemes whose addresses always have an authority, with their standard ports. -/
def standardPorts : List (String × Nat) :=
  [("http", 80), ("https", 443), ("ws", 80), ("wss", 443), ("ftp", 21)]

def isSpecial (scheme : String) : Bool := scheme == "file" || standardPorts.any (·.1 == scheme)

/-- The address without blanks around it and without line ends and tabs. -/
def strip (text : String) : List Char :=
  let blank := fun (c : Char) => c.toNat ≤ 0x20
  let front := text.toList.dropWhile blank
  ((front.reverse.dropWhile blank).reverse).filter fun c => c != '\t' && c != '\n' && c != '\r'

/-- The scheme in lower case, and what follows its colon. -/
def scheme? (text : List Char) : Option (String × List Char) :=
  let name := text.takeWhile fun c => c.isAlphanum || c == '+' || c == '-' || c == '.'
  match name, text.drop name.length with
  | first :: _, ':' :: rest =>
    if first.isAlpha then some ((String.ofList name).toLower, rest) else none
  | _, _ => none

/-- The characters that may not stand in a host name. -/
def forbiddenInHost (c : Char) : Bool :=
  c.toNat ≤ 0x20 || c == '#' || c == '/' || c == ':' || c == '<' || c == '>' || c == '?'
    || c == '@' || c == '[' || c == '\\' || c == ']' || c == '^' || c == '|'

/-- The characters that may not stand in the name of a domain. -/
def forbiddenInDomain (c : Char) : Bool := forbiddenInHost c || c == '%' || c.toNat == 0x7f

/-- A host as it is written: a bracketed address, an address of four bytes or a domain in lower
case; for a scheme of its own kind, any text without forbidden characters. -/
def host? (special : Bool) (text : List Char) : Option String :=
  match text with
  | '[' :: rest =>
    match rest.reverse with
    | ']' :: inner => (ipv6? inner.reverse).map ipv6Text
    | _ => none
  | _ =>
    if special then do
      let decoded ← String.fromUTF8? ⟨(percentDecode text).toArray⟩
      let domain := decoded.toLower.toList
      if domain.isEmpty || domain.any forbiddenInDomain then none
      else if looksNumeric domain then (ipv4? domain).map ipv4Text
      else some (String.ofList domain)
    else if text.any forbiddenInHost then none
    else some (String.ofList (percentEncode [] text))

/-- Splits a host from the port after its last colon outside brackets. -/
def splitPort (text : List Char) : List Char × Option (List Char) :=
  let tail := (text.reverse.takeWhile fun c => c != ':' && c != ']').reverse
  let front := text.take (text.length - tail.length)
  match front.reverse with
  | ':' :: host => (host.reverse, some tail)
  | _ => (text, none)

/-- A port as it is written after a host: nothing for the standard one. -/
def port? (scheme : String) : Option (List Char) → Option String
  | none => some ""
  | some digits =>
    if digits.isEmpty then some ""
    else do
      let n ← numeral? 10 digits
      if 65536 ≤ n then none
      else if standardPorts.contains (scheme, n) then some ""
      else some (":" ++ toString n)

/-- User and password as they are written before a host. -/
def userText (text : List Char) : String :=
  let user := text.takeWhile (· != ':')
  let password := text.drop (user.length + 1)
  let write := fun l => String.ofList (percentEncode userSpecial l)
  if password.isEmpty then
    if user.isEmpty then "" else write user ++ "@"
  else write user ++ ":" ++ write password ++ "@"

/-- An authority as it is written: user, host and port. -/
def authority? (scheme : String) (text : List Char) : Option String := do
  let tail := (text.reverse.takeWhile (· != '@')).reverse
  let user := (text.take (text.length - tail.length)).dropLast
  let (hostText, portText) := splitPort tail
  let bare := user.isEmpty && portText.isNone
  if hostText.isEmpty then
    if bare && (scheme == "file" || !isSpecial scheme) then some "" else none
  else
    let host ← host? (isSpecial scheme) hostText
    let port ← port? scheme portText
    return userText user ++ host ++ port

/-! ## Paths -/

def isDot (s : String) : Bool := s == "." || s.toLower == "%2e"

def isDoubleDot (s : String) : Bool :=
  s == ".." || [".%2e", "%2e.", "%2e%2e"].contains s.toLower

/-- Resolves the dots of a path; a dot at the end leaves an empty last segment. -/
def resolveDots : List String → List String → List String
  | done, [] => done.reverse
  | done, [s] =>
    if isDoubleDot s then ("" :: done.drop 1).reverse
    else if isDot s then ("" :: done).reverse
    else (s :: done).reverse
  | done, s :: rest =>
    if isDoubleDot s then resolveDots (done.drop 1) rest
    else if isDot s then resolveDots done rest
    else resolveDots (s :: done) rest

/-- The segments of a path without its leading slash. -/
def segmentsOf (text : List Char) : List String :=
  resolveDots [] ((splitAtChar '/' text).map fun s => String.ofList (percentEncode pathSpecial s))

/-- The path up to a query or a fragment. -/
def pathPart (text : List Char) : List Char := text.takeWhile fun c => c != '?' && c != '#'

/-- An address after the slashes in front of its authority. -/
def afterSlashes (scheme : String) (text : List Char) : Option Url := do
  let text := pathPart text
  let inAuthority := fun (c : Char) => c != '/'
  let authorityText := text.takeWhile inAuthority
  let authority ← authority? scheme authorityText
  let segments := match text.drop authorityText.length with
    | _ :: path => segmentsOf path
    | [] => if isSpecial scheme then [""] else []
  return ⟨scheme, some (if scheme == "file" && authority == "localhost" then "" else authority),
    .segments segments⟩

/-- Reads an address; one without a scheme is none. -/
def parse? (text : String) : Option Url := do
  let (scheme, rest) ← scheme? (strip text)
  let slashed := rest.map fun c => if isSpecial scheme && c == '\\' then '/' else c
  if scheme == "file" then
    match slashed with
    | '/' :: '/' :: tail => afterSlashes scheme tail
    | '/' :: tail => return ⟨scheme, some "", .segments (segmentsOf (pathPart tail))⟩
    | tail => return ⟨scheme, some "", .segments (segmentsOf (pathPart tail))⟩
  else if isSpecial scheme then afterSlashes scheme (slashed.dropWhile (· == '/'))
  else
    match slashed with
    | '/' :: '/' :: tail => afterSlashes scheme tail
    | '/' :: tail => return ⟨scheme, none, .segments (segmentsOf (pathPart tail))⟩
    | tail => return ⟨scheme, none, .unsplit (String.ofList (percentEncode [] (pathPart tail)))⟩

/-- The address of a name beside the last segment of a base's path. -/
def join? (base : Url) (name : String) : Option Url :=
  match base.path with
  | .unsplit _ => none
  | .segments parts => some { base with path := .segments (parts.dropLast ++ [name]) }

def text (u : Url) : String :=
  let authority := match u.authority with
    | some a => "//" ++ a
    | none => ""
  let path := match u.path with
    | .unsplit p => p
    | .segments parts => String.join (parts.map fun p => "/" ++ p)
  u.scheme ++ ":" ++ authority ++ path

end Url

end ClusterControl.Network
