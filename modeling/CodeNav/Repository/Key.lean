import CodeNav.Path
import CodeNav.Text.Blank
import CodeNav.Text.Letters
import CodeNav.Json.Basic

/-!
# Repository keys

A repository is identified by the host it lives on, its *resource*, and by the path that names it
there, its *slug*: owner, name and perhaps groups between them. Both are normalized when a key is
made, so that the spellings that pages and requests use for one repository give one key.

## Main definitions

* `RepositoryKey`: resource and slug
* `RepositoryKey.normalize`: the key of two arbitrary strings
* `RepositoryKey.isComplete`: whether it names a repository
* `RepositoryKey.checkoutPath`: the directory of its checkout below a root
-/

namespace CodeNav

/-- The identity of a repository. -/
structure RepositoryKey where
  resource : String
  slug : String
  deriving DecidableEq, Inhabited, Hashable

namespace RepositoryKey

/-- A text with its ASCII letters in lower case. -/
def lowerChars (cs : List Char) : List Char :=
  cs.map Text.lowerAscii

/-- Whether a path component refers to a directory relative to another. -/
def isDots (piece : List Char) : Bool :=
  piece = ['.'] || piece = ['.', '.']

/-- The host in a resource: the first nonempty piece after a scheme, in lower case. A piece of dots
is no host. -/
def normalizeResource (cs : List Char) : List Char :=
  let lowered := lowerChars (Text.trim cs)
  let rest := match Text.splitOnce [':', '/', '/'] lowered with
    | some (_, rest) => rest
    | none => lowered
  match (Text.splitOn '/' rest).find? (· ≠ []) with
  | some host => if isDots host then [] else host
  | none => []

/-- The ending that clone addresses carry. -/
def gitSuffix : List Char := ['.', 'g', 'i', 't']

/-- A list with its last item changed. -/
def mapLast {α : Type} (f : α → α) : List α → List α
  | [] => []
  | [x] => [f x]
  | x :: y :: rest => x :: mapLast f (y :: rest)

/-- The pieces of a slug: those that are not empty and not dots, the last one without the ending of
clone addresses, which may leave nothing of it. -/
def slugPieces (cs : List Char) : List (List Char) :=
  let pieces := (Text.splitOn '/' (Text.trim cs)).filter fun p => p ≠ [] && !isDots p
  (mapLast (Text.stripSuffix gitSuffix) pieces).filter (· ≠ [])

/-- The pieces of a slug, joined again. -/
def normalizeSlug (cs : List Char) : List Char :=
  Text.joinWith '/' (slugPieces cs)

/-- The key of a resource and a slug as they were written somewhere. -/
def normalize (resource slug : String) : RepositoryKey :=
  ⟨String.ofList (normalizeResource resource.toList), String.ofList (normalizeSlug slug.toList)⟩

/-- The pieces of the slug of a key. -/
def segments (key : RepositoryKey) : List (List Char) :=
  Text.splitOn '/' key.slug.toList

/-- Whether the key has a host and names at least an owner and a repository. -/
def isComplete (key : RepositoryKey) : Bool :=
  !key.resource.isEmpty && 2 ≤ key.segments.length

/-- The directory of the checkout: the root, the resource and one level for each piece of the
slug. -/
def checkoutPath (key : RepositoryKey) (root : Path) : Path :=
  key.segments.foldl (fun p piece => p.join (String.ofList piece)) (root.join key.resource)

/-- Resource and slug with a slash between them. -/
def text (key : RepositoryKey) : String :=
  key.resource ++ "/" ++ key.slug

/-- The key as a JSON object. -/
def toJson (key : RepositoryKey) : Json :=
  .ofFields [("resource", .string key.resource), ("slug", .string key.slug)]

/-- Whether a key comes before another: by resource, then by slug. -/
def before (a b : RepositoryKey) : Bool :=
  a.resource < b.resource || (a.resource == b.resource && a.slug < b.slug)

/-- A key put into a sorted list that it is not yet in. -/
def insertSorted (key : RepositoryKey) : List RepositoryKey → List RepositoryKey
  | [] => [key]
  | k :: rest =>
    if key.before k then key :: k :: rest
    else if key = k then k :: rest
    else k :: insertSorted key rest

/-- The keys in order, each once. -/
def sortDistinct (keys : List RepositoryKey) : List RepositoryKey :=
  keys.foldr insertSorted []

end RepositoryKey

end CodeNav
