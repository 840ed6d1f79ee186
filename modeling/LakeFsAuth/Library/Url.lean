import Mathlib.Data.List.DropRight

/-! URL records, with the basic parser and the serialiser of the URL standard. Hosts are kept as
their text, and their parser is a parameter. -/
namespace LakeFsAuth.Library

abbrev Text := List Char

inductive UrlPath where
  | opaquePath (text : Text)
  | segments (list : List Text)
  deriving DecidableEq

structure Url where
  scheme : String
  username : Text
  password : Text
  host : Option Text
  port : Option Nat
  path : UrlPath
  query : Option Text
  fragment : Option Text
  deriving DecidableEq

namespace Url

/-- A text is checked character by character. -/
theorem forall_of_all {P : Char → Prop} [DecidablePred P] {text : Text}
    (h : text.all (fun ch => decide (P ch)) = true) : ∀ ch ∈ text, P ch := by
  simpa using h

/-! Code points. -/

def isC0Control (ch : Char) : Bool := ch.toNat ≤ 0x1F

def isTabOrNewline (ch : Char) : Bool := ch == '\t' || ch == '\n' || ch == '\r'

def isForbiddenHost (ch : Char) : Bool :=
  isTabOrNewline ch || ch.toNat == 0 || ch ∈ [' ', '#', '/', ':', '<', '>', '?', '@', '[', '\\', ']', '^', '|']

def c0ControlSet (ch : Char) : Bool := isC0Control ch || 0x7E < ch.toNat

def fragmentSet (ch : Char) : Bool := c0ControlSet ch || ch ∈ [' ', Char.ofNat 34, '<', '>', Char.ofNat 96]

def querySet (ch : Char) : Bool := c0ControlSet ch || ch ∈ [' ', Char.ofNat 34, '#', '<', '>']

def specialQuerySet (ch : Char) : Bool := querySet ch || ch == Char.ofNat 39

def pathSet (ch : Char) : Bool :=
  querySet ch || ch ∈ ['?', '^', Char.ofNat 96, Char.ofNat 123, Char.ofNat 125]

def userinfoSet (ch : Char) : Bool := pathSet ch || ch ∈ ['/', ':', ';', '=', '@', '[', '\\', ']', '|']

def hexDigit (n : Nat) : Char := if n < 10 then Char.ofNat (48 + n) else Char.ofNat (55 + n)

/-- UTF-8 percent-encode. -/
def percentEncode (set : Char → Bool) (ch : Char) : Text :=
  if set ch then
    (String.utf8EncodeChar ch).flatMap fun byte =>
      ['%', hexDigit (byte.toNat / 16), hexDigit (byte.toNat % 16)]
  else [ch]

/-! Schemes and hosts. -/

def specialSchemes : List (String × Option Nat) :=
  [("ftp", some 21), ("file", none), ("http", some 80), ("https", some 443), ("ws", some 80),
    ("wss", some 443)]

def isSpecial (scheme : String) : Bool := (specialSchemes.lookup scheme).isSome

def defaultPort (scheme : String) : Option Nat := (specialSchemes.lookup scheme).join

/-- The host parser, followed by the host serialiser. It takes a host for an opaque one when the
scheme is not special. A serialised host holds no forbidden code point but the colons of an
address in brackets, is parsed to itself, and is empty for an empty opaque host only. -/
class HostParser where
  parse : (notSpecial : Bool) → Text → Option Text
  shape : ∀ {notSpecial text host}, parse notSpecial text = some host →
    (∀ ch ∈ host, isForbiddenHost ch = false) ∨
      ∃ address, host = '[' :: (address ++ [']']) ∧
        ∀ ch ∈ address, ch = ':' ∨ isForbiddenHost ch = false
  again : ∀ {notSpecial text host}, parse notSpecial text = some host →
    parse notSpecial host = some host
  filled : ∀ {notSpecial text host}, parse notSpecial text = some host →
    (host = [] ↔ notSpecial = true ∧ text = [])

/-! The serialiser. -/

def digits (port : Nat) : Text := Nat.toDigits 10 port

def credentials (url : Url) : Text :=
  if url.username = [] ∧ url.password = [] then []
  else url.username ++ (if url.password = [] then [] else ':' :: url.password) ++ ['@']

def portText (url : Url) : Text :=
  match url.port with
  | none => []
  | some port => ':' :: digits port

def pathText : UrlPath → Text
  | .opaquePath text => text
  | .segments list => list.flatMap fun segment => '/' :: segment

/-- What keeps a path that starts with an empty segment from being read as an authority. -/
def pathPrefix : UrlPath → Text
  | .segments ([] :: _ :: _) => ['/', '.']
  | _ => []

def tailText (url : Url) : Text :=
  (url.query.elim [] fun query => '?' :: query) ++
    url.fragment.elim [] fun fragment => '#' :: fragment

def serialize (url : Url) : Text :=
  url.scheme.toList ++ ':' :: (match url.host with
    | some host => '/' :: '/' :: (url.credentials ++ host ++ url.portText)
    | none => pathPrefix url.path) ++ (pathText url.path ++ url.tailText)

/-! The parser. Each state is a function of what is left of the input. -/

/-- C0 controls and spaces at the ends, and tabs and newlines anywhere, are removed. -/
def strip (input : Text) : Text :=
  ((input.dropWhile fun ch => isC0Control ch || ch == ' ').rdropWhile
    fun ch => isC0Control ch || ch == ' ').filter fun ch => !isTabOrNewline ch

def isSchemeChar (ch : Char) : Bool := ch.isAlphanum || ch == '+' || ch == '-' || ch == '.'

/-- Scheme start state and scheme state. -/
def readScheme : Text → Option (String × Text)
  | [] => none
  | ch :: rest =>
      if ch.isAlpha then
        match rest.dropWhile isSchemeChar with
        | ':' :: after =>
            some (String.ofList ((ch :: rest.takeWhile isSchemeChar).map Char.toLower), after)
        | _ => none
      else none

def isSlash (special : Bool) (ch : Char) : Bool := ch == '/' || (special && ch == '\\')

def endsAuthority (special : Bool) (ch : Char) : Bool := isSlash special ch || ch == '?' || ch == '#'

def isWindowsDrive : Text → Bool
  | [letter, mark] => letter.isAlpha && (mark == ':' || mark == '|')
  | _ => false

def isNormalizedDrive : Text → Bool
  | [letter, mark] => letter.isAlpha && mark == ':'
  | _ => false

def startsWithDrive : Text → Bool
  | letter :: mark :: rest => isWindowsDrive [letter, mark] &&
      (rest.head?.all fun ch => ch == '/' || ch == '\\' || ch == '?' || ch == '#')
  | _ => false

def isSingleDot (buffer : Text) : Bool := buffer.map Char.toLower ∈ [['.'], "%2e".toList]

def isDoubleDot (buffer : Text) : Bool :=
  buffer.map Char.toLower ∈ [['.', '.'], ".%2e".toList, "%2e.".toList, "%2e%2e".toList]

/-- Shorten a path. -/
def shorten (scheme : String) : List Text → List Text
  | [segment] => if scheme = "file" ∧ isNormalizedDrive segment then [segment] else []
  | path => path.dropLast

/-- The end of a segment, at a slash or at the end of the path. -/
def addSegment (scheme : String) (path : List Text) (buffer : Text) (slash : Bool) : List Text :=
  if isDoubleDot buffer then
    if slash then shorten scheme path else shorten scheme path ++ [[]]
  else if isSingleDot buffer then
    if slash then path else path ++ [[]]
  else if scheme = "file" ∧ path = [] ∧ isWindowsDrive buffer then [buffer.take 1 ++ [':']]
  else path ++ [buffer]

/-- Path state, to the query or the fragment. -/
def readSegments (scheme : String) (path : List Text) (buffer : Text) : Text → List Text × Text
  | [] => (addSegment scheme path buffer false, [])
  | ch :: rest =>
      if isSlash (isSpecial scheme) ch then
        readSegments scheme (addSegment scheme path buffer true) [] rest
      else if ch = '?' ∨ ch = '#' then (addSegment scheme path buffer false, ch :: rest)
      else readSegments scheme path (buffer ++ percentEncode pathSet ch) rest

/-- Fragment state. -/
def readFragment (url : Url) (text : Text) : Url :=
  { url with fragment := some (text.flatMap (percentEncode fragmentSet)) }

/-- Query state. -/
def readQuery (url : Url) (text : Text) : Url :=
  let set := if isSpecial url.scheme then specialQuerySet else querySet
  let url := { url with query := some ((text.takeWhile (· != '#')).flatMap (percentEncode set)) }
  match text.dropWhile (· != '#') with
  | _ :: fragment => url.readFragment fragment
  | [] => url

/-- What follows a path. -/
def readTail (url : Url) : Text → Url
  | '?' :: rest => url.readQuery rest
  | '#' :: rest => url.readFragment rest
  | _ => url

def readPath (url : Url) (path : List Text) (buffer text : Text) : Url :=
  let (path, rest) := readSegments url.scheme path buffer text
  { url with path := .segments path }.readTail rest

/-- Path start state. -/
def pathStart (url : Url) (text : Text) : Url :=
  match text with
  | ch :: rest =>
      if isSlash (isSpecial url.scheme) ch then url.readPath [] [] rest
      else if !isSpecial url.scheme && (ch == '?' || ch == '#') then url.readTail text
      else url.readPath [] [] text
  | [] => if isSpecial url.scheme then url.readPath [] [] [] else url

/-- The text up to the first colon outside of brackets, and what follows it. -/
def splitPort (inside : Bool) : Text → Text × Option Text
  | [] => ([], none)
  | ch :: rest =>
      if ch = ':' ∧ inside = false then ([], some rest)
      else
        let inside := if ch = '[' then true else if ch = ']' then false else inside
        let (host, port) := splitPort inside rest
        (ch :: host, port)

/-- Port state. -/
def readPort (scheme : String) (text : Text) : Option (Option Nat) :=
  if text = [] then some none
  else if text.all Char.isDigit then
    let port := Nat.ofDigitChars 10 text 0
    if 65535 < port then none
    else some (if defaultPort scheme = some port then none else some port)
  else none

section Parser
variable [HostParser]

/-- Authority state, host state and port state, over the text of the authority. -/
def readAuthority (url : Url) (text : Text) : Option Url := do
  let hostPort := text.rtakeWhile (· != '@')
  let userinfo := (text.rdropWhile (· != '@')).dropLast
  let (hostText, port) := splitPort false hostPort
  if '@' ∈ text ∧ hostPort = [] ∨ hostText = [] ∧ (port.isSome ∨ isSpecial url.scheme) then none
  else
    let host ← HostParser.parse (!isSpecial url.scheme) hostText
    let port ← readPort url.scheme (port.getD [])
    some { url with
      username := (userinfo.takeWhile (· != ':')).flatMap (percentEncode userinfoSet)
      password := ((userinfo.dropWhile (· != ':')).drop 1).flatMap (percentEncode userinfoSet)
      host := some host
      port }

def authorityState (url : Url) (text : Text) : Option Url :=
  let ends := endsAuthority (isSpecial url.scheme)
  (url.readAuthority (text.takeWhile (!ends ·))).map (pathStart · (text.dropWhile (!ends ·)))

/-- Special authority ignore slashes state. -/
def ignoreSlashes (url : Url) (text : Text) : Option Url :=
  url.authorityState (text.dropWhile (isSlash true))

/-- Special authority slashes state. -/
def specialAuthoritySlashes (url : Url) : Text → Option Url
  | '/' :: '/' :: rest => url.ignoreSlashes rest
  | text => url.ignoreSlashes text

/-- Path or authority state. -/
def pathOrAuthority (url : Url) : Text → Option Url
  | '/' :: rest => url.authorityState rest
  | text => some (url.readPath [] [] text)

/-- Opaque path state. -/
def opaquePathState (url : Url) (text : Text) : Url :=
  let ends (ch : Char) := ch == '?' || ch == '#'
  { url with path := .opaquePath ((text.takeWhile (!ends ·)).flatMap (percentEncode c0ControlSet)) }.readTail
    (text.dropWhile (!ends ·))

/-- An empty record of a scheme. -/
def blank (scheme : String) : Url := ⟨scheme, [], [], none, none, .segments [], none, none⟩

/-- The segments of a path that is not opaque. -/
def pathSegments : UrlPath → List Text
  | .segments list => list
  | .opaquePath _ => []

/-- Relative slash state. -/
def relativeSlash (base : Url) (text : Text) : Option Url :=
  let inherited := { blank base.scheme with
    username := base.username, password := base.password, host := base.host, port := base.port }
  match text with
  | ch :: rest =>
      if isSpecial base.scheme && isSlash true ch then (blank base.scheme).ignoreSlashes rest
      else if ch = '/' then (blank base.scheme).authorityState rest
      else some (inherited.readPath [] [] text)
  | [] => some (inherited.readPath [] [] [])

/-- Relative state. -/
def relativeState (base : Url) (text : Text) : Option Url :=
  match text with
  | ch :: rest =>
      if isSlash (isSpecial base.scheme) ch then base.relativeSlash rest
      else if ch = '?' ∨ ch = '#' then some ({ base with fragment := none }.readTail text)
      else some ({ base with query := none, fragment := none }.readPath
        (shorten base.scheme (pathSegments base.path)) [] text)
  | [] => some { base with fragment := none }

/-- Special relative or authority state. -/
def specialRelativeOrAuthority (base : Url) : Text → Option Url
  | '/' :: '/' :: rest => (blank base.scheme).ignoreSlashes rest
  | text => base.relativeState text

/-- File host state. -/
def fileHost (text : Text) : Option Url := do
  let url := { blank "file" with host := some [] }
  let buffer := text.takeWhile (!endsAuthority true ·)
  let rest := text.dropWhile (!endsAuthority true ·)
  if isWindowsDrive buffer then some (url.readPath [] buffer rest)
  else if buffer = [] then some (url.pathStart rest)
  else
    let host ← HostParser.parse false buffer
    some ({ url with host := some (if host = "localhost".toList then [] else host) }.pathStart rest)

/-- File slash state. The base is one with the scheme `file`. -/
def fileSlash (base : Option Url) (text : Text) : Option Url :=
  let url := { blank "file" with host := (base.map Url.host).getD (some []) }
  let drive := match base with
    | some base =>
        match pathSegments base.path with
        | first :: _ => if !startsWithDrive text && isNormalizedDrive first then [first] else []
        | [] => []
    | none => []
  match text with
  | ch :: rest => if isSlash true ch then fileHost rest else some (url.readPath drive [] text)
  | [] => some (url.readPath drive [] [])

/-- File state. -/
def fileState (base : Option Url) (text : Text) : Option Url :=
  match text, base with
  | ch :: rest, base =>
      if isSlash true ch then fileSlash base rest
      else
        match base with
        | none => some ({ blank "file" with host := some [] }.readPath [] [] text)
        | some base =>
            let url := { blank "file" with host := base.host, path := base.path, query := base.query }
            if ch = '?' ∨ ch = '#' then some (url.readTail text)
            else if startsWithDrive text then some ({ url with query := none }.readPath [] [] text)
            else some ({ url with query := none }.readPath
              (shorten "file" (pathSegments base.path)) [] text)
  | [], some base => some { blank "file" with host := base.host, path := base.path, query := base.query }
  | [], none => some ({ blank "file" with host := some [] }.readPath [] [] [])

/-- No scheme state. -/
def noScheme (base : Url) (text : Text) : Option Url :=
  match base.path with
  | .opaquePath _ =>
      match text with
      | '#' :: rest => some (base.readFragment rest)
      | _ => none
  | .segments _ =>
      if base.scheme = "file" then fileState (some base) text else base.relativeState text

/-- What follows a scheme. -/
def afterScheme (base : Option Url) (scheme : String) (rest : Text) : Option Url :=
  if scheme = "file" then fileState (base.filter (·.scheme = "file")) rest
  else if isSpecial scheme then
    match base.filter (·.scheme = scheme) with
    | some base => base.specialRelativeOrAuthority rest
    | none => (blank scheme).specialAuthoritySlashes rest
  else
    match rest with
    | '/' :: rest => (blank scheme).pathOrAuthority rest
    | _ => some ((blank scheme).opaquePathState rest)

/-- The basic URL parser. -/
def parse (base : Option Url) (input : Text) : Option Url :=
  let text := strip input
  match readScheme text with
  | some (scheme, rest) => afterScheme base scheme rest
  | none => base.bind (·.noScheme text)

end Parser

end Url

end LakeFsAuth.Library
