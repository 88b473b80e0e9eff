import CodeNav.Path
import CodeNav.Url.Parser

/-!
# Addresses of files

A file with an absolute path has an address: the components of the path, each percent-encoded.
The other way, an address of a file without a host names the path whose bytes its segments decode
to, so a slash may also come from an encoded one.

## Main definitions

* `Url.ofFile?`, `Url.ofFolder?`: the address of a path
* `Url.filePath?`: the bytes of the path that an address names
-/

namespace CodeNav.Url

/-- How a component of a path is written in an address. -/
def componentText? : Path.Component → Option (List Char)
  | .root => none
  | .current => some ['.']
  | .parent => some ['.', '.']
  | .normal name => some (Percent.encode Percent.segmentSet name)

/-- The address of a file with some segments. -/
def ofSegments (items : List (List Char)) : Url :=
  ⟨"file".toList, [], none, none, none, .segments items, none, none⟩

/-- The address of an absolute path. -/
def ofFile? (p : Path) : Option Url :=
  if p.isAbsolute then
    match p.components.filterMap componentText? with
    | [] => some (ofSegments [[]])
    | items => some (ofSegments items)
  else none

/-- The address of an absolute path, with a slash at its end. -/
def ofFolder? (p : Path) : Option Url :=
  if p.isAbsolute then some (ofSegments (p.components.filterMap componentText? ++ [[]])) else none

/-- The bytes of the path that the address of a file names. A drive at the end is followed by a
slash. -/
def filePath? (u : Url) : Option (List UInt8) :=
  if String.ofList u.scheme = "file" ∧ u.host.isNone then
    match u.route with
    | .plain _ => none
    | .segments items =>
      let bytes := items.flatMap fun item => 0x2F :: Percent.decode item
      match bytes.reverse with
      | b :: a :: _ :: _ =>
        if isDrive [Char.ofNat a.toNat, Char.ofNat b.toNat] then some (bytes ++ [0x2F])
        else some bytes
      | _ => some bytes
  else none

end CodeNav.Url
