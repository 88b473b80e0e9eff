import CodeNav.Text.Split
import CodeNav.Text.Quoted

/-!
# Path names

A path is a string whose components are separated by slashes. Empty components, and `.` components
other than a leading one of a relative path, say nothing: two paths with the same components name
the same place, and equality of paths is equality of their components.

## Main definitions

* `Path`: a path name
* `Path.Component`, `Path.components`: its parts
* `Path.join`: one path below another
* `Path.parent?`, `Path.fileName?`, `Path.suffix?`, `Path.withSuffix`: the usual parts
* `Path.stripRoot?`: what is left of a path below another
-/

namespace CodeNav

/-- A path name. -/
structure Path where
  text : String
  deriving DecidableEq, Inhabited, Hashable

namespace Path

/-- The parts of a path that mean something. -/
inductive Component where
  | root
  | current
  | parent
  | normal (name : List Char)
  deriving DecidableEq, Inhabited

/-- The component written as `piece`, when it says anything. -/
def Component.ofPiece? (piece : List Char) : Option Component :=
  if piece = [] ∨ piece = ['.'] then none
  else if piece = ['.', '.'] then some .parent
  else some (.normal piece)

/-- The components of the text of a path. -/
def componentsOf (cs : List Char) : List Component :=
  match cs with
  | '/' :: _ => .root :: (Text.splitOn '/' cs).filterMap Component.ofPiece?
  | cs =>
    match Text.splitOn '/' cs with
    | ['.'] :: rest => .current :: rest.filterMap Component.ofPiece?
    | pieces => pieces.filterMap Component.ofPiece?

/-- The components of a path. -/
def components (p : Path) : List Component :=
  componentsOf p.text.toList

/-- Whether two paths have the same components. -/
def same (p q : Path) : Bool :=
  decide (p.components = q.components)

/-- Whether the path begins at the root. -/
def isAbsolute (p : Path) : Bool :=
  p.text.toList.head? = some '/'

/-- The text of `q` below the text of `p`; an absolute `q` stands for itself. -/
def joinChars (p q : List Char) : List Char :=
  if q.head? = some '/' then q
  else if p = [] ∨ p.getLast? = some '/' then p ++ q
  else p ++ '/' :: q

/-- The path `q` below `p`; an absolute `q` stands for itself. -/
def join (p : Path) (q : String) : Path :=
  ⟨String.ofList (joinChars p.text.toList q.toList)⟩

/-- The text without trailing slashes and without trailing `.` components that say nothing, read
from the end. A slash at the very beginning stays. -/
def dropIdleEnd : List Char → List Char
  | ['/'] => ['/']
  | '/' :: rest => dropIdleEnd rest
  | '.' :: '/' :: rest => dropIdleEnd ('/' :: rest)
  | cs => cs

/-- The path without its last component; nothing for the empty path and the root. -/
def parent? (p : Path) : Option Path :=
  match p.components.getLast? with
  | none => none
  | some .root => none
  | some _ =>
    let backwards := (dropIdleEnd p.text.toList.reverse).dropWhile (· ≠ '/')
    some ⟨String.ofList (dropIdleEnd backwards).reverse⟩

/-- The last component, when it is a name. -/
def fileName? (p : Path) : Option String :=
  match p.components.getLast? with
  | some (.normal name) => some (String.ofList name)
  | _ => none

/-- A file name cut at its last dot, when there is one after its first character. -/
def cutSuffix (name : List Char) : List Char × Option (List Char) :=
  let back := name.reverse
  let suffix := back.takeWhile (· ≠ '.')
  match back.dropWhile (· ≠ '.') with
  | [] => (name, none)
  | ['.'] => (name, none)
  | '.' :: stem => (stem.reverse, some suffix.reverse)
  | _ => (name, none)

/-- What follows the last dot of the file name. -/
def suffix? (p : Path) : Option String :=
  match p.components.getLast? with
  | some (.normal name) => (cutSuffix name).2.map String.ofList
  | _ => none

/-- The path with another suffix after the stem of its file name. -/
def withSuffix (p : Path) (suffix : String) : Path :=
  match p.components.getLast? with
  | some (.normal name) =>
    let stem := (cutSuffix name).1
    let folder := ((dropIdleEnd p.text.toList.reverse).dropWhile (· ≠ '/')).reverse
    ⟨String.ofList (folder ++ stem ++ '.' :: suffix.toList)⟩
  | _ => p

/-- The components of a path below another one. -/
def stripRoot? : List Component → List Component → Option (List Component)
  | [], cs => some cs
  | _ :: _, [] => none
  | r :: rs, c :: cs => if r = c then stripRoot? rs cs else none

/-- The path between double quotes. -/
def quoted (p : Path) : String :=
  Text.quoted p.text

end Path

end CodeNav
