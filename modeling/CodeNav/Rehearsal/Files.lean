import CodeNav.FileSystem.Basic
import CodeNav.Text.Utf8

/-!
# Files for a rehearsal

A rehearsal starts from files that are laid out one by one, with the folders above them, and may lay
out or remove more of them on the way.

## Main definitions

* `Rehearsal.FileItem`: a file, folder or link to be laid out
* `Rehearsal.layOut`: the file system with an item
* `Rehearsal.remove`: the file system without what is at a path
-/

namespace CodeNav.Rehearsal

/-- What is laid out. -/
inductive FileContent where
  | folder
  | link (target : String)
  | bytes (bytes : List UInt8)

/-- A file, folder or link. -/
structure FileItem where
  path : Path
  content : FileContent
  runnable : Bool
  mtime : Option Int

/-- The file system with the folders above a path. -/
def withParents (fs : FileSystem) (p : Path) : FileSystem :=
  match p.parent? with
  | none => fs
  | some folder => ((fs.makeDirs folder).toOption).getD fs

/-- The file system with an item and the folders above it. -/
def layOut (fs : FileSystem) (item : FileItem) : FileSystem :=
  let fs := withParents fs item.path
  let fs := match item.content with
    | .folder => ((fs.makeDirs item.path).toOption).getD fs
    | .link target =>
      match fs.walk item.path false with
      | .ok (.absent folder name) => fs.add folder name (.link target)
      | _ => fs
    | .bytes bytes => ((fs.write item.path ⟨bytes.toArray⟩).toOption).getD fs
  let fs := if item.runnable then
      match fs.stat item.path with
      | .ok (place, .file bytes _) => fs.put place (.file bytes true)
      | _ => fs
    else fs
  match item.mtime with
  | some time => fs.setTime item.path time
  | none => fs

/-- The file system with all items, laid out in their order. -/
def layOutAll (fs : FileSystem) (items : List FileItem) : FileSystem :=
  items.foldl layOut fs

/-- Removes what is at a path, and tells whether there was anything. -/
def remove (fs : FileSystem) (p : Path) : Bool × FileSystem :=
  match fs.walk p false with
  | .ok (.at place _) => (true, fs.eraseTree place)
  | _ => (false, fs)

/-- The text of a file, when it can be read. -/
def text? (fs : FileSystem) (p : Path) : Option String :=
  match fs.read p with
  | .ok bytes => some (Text.utf8Shown bytes.toList)
  | .error _ => none

end CodeNav.Rehearsal
