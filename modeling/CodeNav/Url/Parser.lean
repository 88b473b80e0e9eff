import CodeNav.Url.Basic
import CodeNav.Url.Domain

/-!
# Reading addresses

An address is read from left to right: scheme, user name and password, host, port, path, query and
fragment. Blanks and control characters around it and line breaks and tabs anywhere in it are
ignored. In the schemes of the web a backslash is a slash, and any number of slashes may stand before
the host.

## Main definitions

* `Url.readScheme?`, `Url.splitUser`, `Url.readHost`, `Url.readPort`, `Url.readSegments`: the parts
* `Url.parse`: the address that a text stands for
-/

namespace CodeNav.Url

/-- The text without what is ignored. -/
def clean (cs : List Char) : List Char :=
  let edge (c : Char) : Bool := c.toNat ≤ 0x20
  ((cs.dropWhile edge).reverse.dropWhile edge).reverse.filter fun c =>
    c ≠ '\t' && c ≠ '\n' && c ≠ '\r'

/-- An ASCII letter. -/
def isLetter (c : Char) : Bool :=
  ('a' ≤ c && c ≤ 'z') || ('A' ≤ c && c ≤ 'Z')

/-- A character in lower case. -/
def lower (c : Char) : Char :=
  if 'A' ≤ c ∧ c ≤ 'Z' then Char.ofNat (c.toNat + 32) else c

/-- A character of a scheme. -/
def isSchemeChar (c : Char) : Bool :=
  isLetter c || ('0' ≤ c && c ≤ '9') || c = '+' || c = '-' || c = '.'

/-- The scheme at the beginning of a text, in lower case, and what follows its colon. -/
def readScheme? (cs : List Char) : Option (List Char × List Char) :=
  match cs with
  | [] => none
  | c :: _ =>
    if isLetter c then
      match cs.dropWhile isSchemeChar with
      | ':' :: rest => some ((cs.takeWhile isSchemeChar).map lower, rest)
      | _ => none
    else none

/-- Whether a character ends what stands between the slashes before a host and the path. -/
def endsAuthority (kind : Kind) (c : Char) : Bool :=
  c = '/' || c = '?' || c = '#' || (kind ≠ .other && c = '\\')

/-- User name and password, written in their encoded form, and the text after the at sign. Without
an at sign there is neither. -/
def splitUser (kind : Kind) (cs : List Char) :
    Except ParseError (List Char × Option (List Char) × List Char) :=
  let authority := cs.takeWhile fun c => !endsAuthority kind c
  let after := cs.drop authority.length
  let tail := (authority.reverse.takeWhile (· ≠ '@')).reverse
  if tail.length = authority.length then .ok ([], none, cs)
  else
    let info := authority.take (authority.length - tail.length - 1)
    let rest := tail ++ after
    if info.isEmpty ∧ tail.isEmpty ∧ after ≠ [] then .error .emptyHost
    else
      let name := info.takeWhile (· ≠ ':')
      let password := (info.dropWhile (· ≠ ':')).drop 1
      .ok (Percent.encode Percent.userinfoSet name,
        if password.isEmpty then none else some (Percent.encode Percent.userinfoSet password), rest)

/-- The characters of a host at the beginning of a text. A colon in brackets belongs to it. -/
def hostChars (kind : Kind) : Bool → List Char → List Char
  | _, [] => []
  | inside, c :: rest =>
    if endsAuthority kind c || (c = ':' && !inside) then []
    else
      let inside := if c = '[' then true else if c = ']' then false else inside
      c :: hostChars kind inside rest

/-- An address in brackets. -/
def bracketHost (cs : List Char) : Except ParseError Host :=
  if cs.getLast? = some ']' then
    match Ipv6.parse? (cs.drop 1).dropLast with
    | some groups => .ok (.ipv6 groups)
    | none => .error .invalidIpv6
  else .error .invalidIpv6

/-- The host of an address of the web or of a file: an address in brackets, a domain name, or an
address of numbers. -/
def namedHost (cs : List Char) : Except ParseError Host :=
  if cs.head? = some '[' then bracketHost cs
  else
    match Domain.toAscii? (Percent.decode cs) with
    | none => .error .invalidDomain
    | some [] => .error .emptyHost
    | some name =>
      if Ipv4.endsInNumber name then
        match Ipv4.parse? name with
        | some address => .ok (.ipv4 address)
        | none => .error .invalidIpv4
      else .ok (.domain name)

/-- Characters that the host of another scheme may not have. -/
def isBadHostChar (c : Char) : Bool :=
  c.toNat = 0 || ['\t', '\n', '\r', ' ', '#', '/', ':', '<', '>', '?', '@', '[', '\\', ']', '^', '|'].any
    (· == c)

/-- The host of an address of another scheme, of which only control characters and characters
outside ASCII are encoded. -/
def foreignHost (cs : List Char) : Except ParseError Host :=
  if cs.head? = some '[' then bracketHost cs
  else if cs.any isBadHostChar then .error .invalidHostCharacter
  else .ok (.domain (Percent.encode Percent.controlSet cs))

/-- The digits of a port and the text after them. -/
def portDigits : Nat → Bool → List Char → Except ParseError (Option Nat × List Char)
  | port, seen, [] => .ok (if seen then some port else none, [])
  | port, seen, c :: rest =>
    if '0' ≤ c ∧ c ≤ '9' then
      let port := port * 10 + (c.toNat - '0'.toNat)
      if 65535 < port then .error .invalidPort else portDigits port true rest
    else if c = '/' ∨ c = '\\' ∨ c = '?' ∨ c = '#' then
      .ok (if seen then some port else none, c :: rest)
    else .error .invalidPort

/-- A port, when one is written and it is not the one that the scheme implies. -/
def readPort (scheme : List Char) (cs : List Char) : Except ParseError (Option Nat × List Char) :=
  match cs with
  | ':' :: rest =>
    match portDigits 0 false rest with
    | .error e => .error e
    | .ok (port, rest) => .ok (if port = defaultPort? scheme then none else port, rest)
  | cs => .ok (none, cs)

/-- Host and port after the user name, and the text after them. -/
def readHost (scheme : List Char) (kind : Kind) (cs : List Char) :
    Except ParseError (Option Host × Option Nat × List Char) := do
  let text := hostChars kind false cs
  let rest := cs.drop text.length
  if text.isEmpty ∧ (kind = .web ∨ rest.head? = some ':') then .error .emptyHost
  else
    let host ← if text.isEmpty then .ok none
      else (if kind = .web then namedHost text else foreignHost text).map some
    let (port, rest) ← readPort scheme rest
    .ok (host, port, rest)

/-- A segment that stands for the place itself. -/
def isSingleDot (piece : List Char) : Bool :=
  piece.map lower ∈ [['.'], ['%', '2', 'e']]

/-- A segment that stands for the place above. -/
def isDoubleDot (piece : List Char) : Bool :=
  piece.map lower ∈
    [['.', '.'], ['%', '2', 'e', '.'], ['.', '%', '2', 'e'], ['%', '2', 'e', '%', '2', 'e']]

/-- A letter and a colon or a bar. -/
def isDrive (piece : List Char) : Bool :=
  match piece with
  | [a, b] => isLetter a && (b = ':' || b = '|')
  | _ => false

/-- A letter and a colon. -/
def isPlainDrive (piece : List Char) : Bool :=
  match piece with
  | [a, b] => isLetter a && b = ':'
  | _ => false

/-- The segments without the last one. The drive of a file stays. -/
def dropSegment (kind : Kind) (items : List (List Char)) : List (List Char) :=
  match kind, items with
  | .file, [d] => if isPlainDrive d then [d] else []
  | _, items => items.dropLast

/-- Segments after one more piece of a path. -/
def pushPiece (kind : Kind) (items : List (List Char)) (piece : List Char) (last : Bool) :
    List (List Char) :=
  if isDoubleDot piece then
    let items := dropSegment kind items
    if last then items ++ [[]] else items
  else if isSingleDot piece then
    if last then items ++ [[]] else items
  else if kind = .file ∧ items = [] ∧ isDrive piece then
    items ++ [piece.take 1 ++ [':']]
  else items ++ [Percent.encode Percent.pathSet piece]

/-- Segments after the pieces of a path. -/
def pushPieces (kind : Kind) : List (List Char) → List (List Char) → List (List Char)
  | items, [] => items
  | items, [piece] => pushPiece kind items piece true
  | items, piece :: next :: rest =>
    pushPieces kind (pushPiece kind items piece false) (next :: rest)

/-- The pieces of a path between slashes. -/
def piecesOf (kind : Kind) (cs : List Char) : List (List Char) :=
  Text.splitOn '/' (if kind = .other then cs else cs.map fun c => if c = '\\' then '/' else c)

/-- The segments of a path after its first slash. Empty segments at the beginning of the path of a
file say nothing. -/
def readSegments (kind : Kind) (cs : List Char) : List (List Char) :=
  let items := pushPieces kind [] (piecesOf kind cs)
  if kind = .file then
    match items.dropWhile (· = []) with
    | [] => [[]]
    | items => items
  else items

/-- Whether a path begins with the drive of a file, once its dots are gone. -/
def beginsWithDrive (kind : Kind) (cs : List Char) : Bool :=
  kind = .file && (match pushPieces kind [] (piecesOf kind cs) with
    | [] => false
    | item :: _ => isPlainDrive item)

/-- What is encoded in a query. -/
def querySet (kind : Kind) (c : Char) : Bool :=
  Percent.controlSet c || Percent.isOneOf [' ', '"', '#', '<', '>'] c
    || (kind ≠ .other && c = '\'')

/-- Path, query and fragment of the text after the host. -/
structure Tail where
  path : List Char
  query : Option (List Char)
  fragment : Option (List Char)

/-- A text cut at its first question mark and its first number sign. -/
def splitTail (kind : Kind) (cs : List Char) : Tail :=
  let path := cs.takeWhile fun c => c ≠ '?' && c ≠ '#'
  let rest := cs.drop path.length
  let fragmentOf (cs : List Char) : Option (List Char) := match cs with
    | '#' :: text => some (Percent.encode Percent.fragmentSet text)
    | _ => none
  match rest with
  | '?' :: rest =>
    let query := rest.takeWhile (· ≠ '#')
    ⟨path, some (Percent.encode (querySet kind) query), fragmentOf (rest.drop query.length)⟩
  | rest => ⟨path, none, fragmentOf rest⟩

/-- A path without its first slash. -/
def dropSlash (kind : Kind) (cs : List Char) : List Char :=
  match cs with
  | '/' :: rest => rest
  | '\\' :: rest => if kind = .other then '\\' :: rest else rest
  | cs => cs

/-- An address with a host, after its slashes. -/
def parseAuthority (scheme : List Char) (kind : Kind) (cs : List Char) : Except ParseError Url := do
  let (name, password, rest) ← splitUser kind cs
  let (host, port, rest) ← readHost scheme kind rest
  if host.isNone ∧ (name ≠ [] ∨ password.isSome) then .error .emptyHost
  else
    let tail := splitTail kind rest
    let items := if kind = .other ∧ tail.path = [] then []
      else readSegments kind (dropSlash kind tail.path)
    .ok ⟨scheme, name, password, host, port, .segments items, tail.query, tail.fragment⟩

/-- The address of a file with a host, after its slashes. A path that begins with a drive and the
name of the machine itself mean that there is no host. -/
def parseFileHost (scheme : List Char) (cs : List Char) : Except ParseError Url := do
  let text := cs.takeWhile fun c => c ≠ '/' && c ≠ '\\' && c ≠ '?' && c ≠ '#'
  let (text, rest) := if isDrive text then ([], '/' :: cs) else (text, cs.drop text.length)
  let host ← if text.isEmpty then .ok none else (namedHost text).map some
  let tail := splitTail .file rest
  let path := dropSlash .file tail.path
  let host := if host = some (.domain "localhost".toList) ∨ beginsWithDrive .file path then none
    else host
  .ok ⟨scheme, [], none, host, none, .segments (readSegments .file path), tail.query,
    tail.fragment⟩

/-- The address of a file, after the colon. -/
def parseFile (scheme : List Char) (cs : List Char) : Except ParseError Url :=
  let isSlash (c : Option Char) : Bool := c = some '/' || c = some '\\'
  if isSlash cs.head? ∧ isSlash (cs.drop 1).head? then parseFileHost scheme (cs.drop 2)
  else
    let tail := splitTail .file cs
    .ok ⟨scheme, [], none, none, none,
      .segments (readSegments .file (dropSlash .file tail.path)), tail.query, tail.fragment⟩

/-- An address of another scheme, after the colon. -/
def parseOther (scheme : List Char) (cs : List Char) : Except ParseError Url :=
  match cs with
  | '/' :: '/' :: rest => parseAuthority scheme .other rest
  | cs =>
    let tail := splitTail .other cs
    let route : Route := match tail.path with
      | '/' :: path => .segments (readSegments .other path)
      | path => .plain (Percent.encode Percent.controlSet path)
    .ok ⟨scheme, [], none, none, none, route, tail.query, tail.fragment⟩

/-- The address that a text stands for. -/
def parseChars (cs : List Char) : Except ParseError Url :=
  match readScheme? (clean cs) with
  | none => .error .relative
  | some (scheme, rest) =>
    match kindOf scheme with
    | .file => parseFile scheme rest
    | .web => parseAuthority scheme .web (rest.dropWhile fun c => c = '/' || c = '\\')
    | .other => parseOther scheme rest

/-- The address that a string stands for. -/
def parse (s : String) : Except ParseError Url :=
  parseChars s.toList

end CodeNav.Url
