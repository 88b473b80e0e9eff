import CodeNav.Url.Address
import CodeNav.Url.Percent

/-!
# Addresses

A `Url` is an absolute address taken apart: scheme, user name and password, host, port, path, query
and fragment, each in the form in which it is written. Ports that a scheme implies are left out, and
the path of the schemes of the web begins with a slash.

## Main definitions

* `Url`, `Url.Host`, `Url.Route`
* `Url.text`: the address written out
* `Url.withUser`: the address with a user name and a password
* `Url.ParseError`: why a text is no address
-/

namespace CodeNav

/-- Who is addressed. -/
inductive Url.Host where
  | domain (name : List Char)
  | ipv4 (address : Nat)
  | ipv6 (groups : List Nat)
  deriving DecidableEq, Inhabited

/-- What is addressed there: segments between slashes, or a plain text when the address names no
place in a hierarchy. -/
inductive Url.Route where
  | plain (text : List Char)
  | segments (items : List (List Char))
  deriving DecidableEq, Inhabited

/-- An absolute address. -/
structure Url where
  scheme : List Char
  username : List Char
  password : Option (List Char)
  host : Option Url.Host
  port : Option Nat
  route : Url.Route
  query : Option (List Char)
  fragment : Option (List Char)
  deriving DecidableEq, Inhabited

namespace Url

/-- Why a text is no absolute address. -/
inductive ParseError where
  | relative
  | emptyHost
  | invalidPort
  | invalidIpv4
  | invalidIpv6
  | invalidDomain
  | invalidHostCharacter
  deriving DecidableEq, Inhabited

/-- The wording of an error. -/
def ParseError.message : ParseError → String
  | relative => "relative URL without a base"
  | emptyHost => "empty host"
  | invalidPort => "invalid port number"
  | invalidIpv4 => "invalid IPv4 address"
  | invalidIpv6 => "invalid IPv6 address"
  | invalidDomain => "invalid international domain name"
  | invalidHostCharacter => "invalid domain character"

/-- The three kinds of schemes, which differ in how an address is read. -/
inductive Kind where
  | file
  | web
  | other
  deriving DecidableEq

/-- The kind of a scheme. -/
def kindOf (scheme : List Char) : Kind :=
  match String.ofList scheme with
  | "file" => .file
  | "http" | "https" | "ws" | "wss" | "ftp" => .web
  | _ => .other

/-- The port that a scheme implies. -/
def defaultPort? (scheme : List Char) : Option Nat :=
  match String.ofList scheme with
  | "http" | "ws" => some 80
  | "https" | "wss" => some 443
  | "ftp" => some 21
  | _ => none

/-- A host written out. -/
def Host.text : Host → List Char
  | .domain name => name
  | .ipv4 address => Ipv4.text address
  | .ipv6 groups => Ipv6.text groups

/-- A path written out, each segment after a slash. -/
def Route.text : Route → List Char
  | .plain text => text
  | .segments items => (items.map ('/' :: ·)).flatten

/-- User name and password before a host. -/
def userText (u : Url) : List Char :=
  match u.username, u.password with
  | [], none => []
  | name, none => name ++ ['@']
  | name, some password => name ++ ':' :: password ++ ['@']

/-- The address written out. A file address shows the place of its host even without one. -/
def chars (u : Url) : List Char :=
  let authority := match u.host with
    | some host =>
      '/' :: '/' :: u.userText ++ host.text ++
        (match u.port with
          | some port => ':' :: Nat.toDigits 10 port
          | none => [])
    | none => if kindOf u.scheme = .file then ['/', '/'] else []
  let query := match u.query with
    | some query => '?' :: query
    | none => []
  let fragment := match u.fragment with
    | some fragment => '#' :: fragment
    | none => []
  u.scheme ++ ':' :: authority ++ u.route.text ++ query ++ fragment

/-- The address written out. -/
def text (u : Url) : String :=
  String.ofList u.chars

/-- The host written out, when there is one that is not empty. -/
def hostText? (u : Url) : Option (List Char) :=
  (u.host.map Host.text).filter (· ≠ [])

/-- The segments of the path; a plain path has none. -/
def segments (u : Url) : List (List Char) :=
  match u.route with
  | .segments items => items
  | .plain _ => []

/-- The address with a user name and a password. An address without a host and the address of a file
take none. -/
def withUser (u : Url) (name password : List Char) : Url :=
  if u.hostText?.isNone ∨ kindOf u.scheme = .file then u
  else
    { u with
      username := Percent.encode Percent.userinfoSet name
      password := some (Percent.encode Percent.userinfoSet password) }

end Url

end CodeNav
