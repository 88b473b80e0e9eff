import CodeNav.Path

/-!
# A file system

A file system maps places to entries. A place is the list of names on the way down from the root,
without links; an entry is a directory, a file or a symbolic link. Operations take path names, walk
them entry by entry and follow links on the way, and fail with one of a few causes.

## Main definitions

* `FileSystem`: the entries
* `FileSystem.Cause`: why an operation failed
* `FileSystem.walk`: from a path name to a place
* `FileSystem.stat`, `FileSystem.present`, `FileSystem.canonical`: what is at a path
* `FileSystem.read`, `FileSystem.write`, `FileSystem.rename`: files
* `FileSystem.makeDirs`, `FileSystem.removeTree`: directories
-/

namespace CodeNav

/-- What stands at a place. -/
inductive FileSystem.Entry where
  | dir (mtime : Int)
  | file (bytes : ByteArray) (runnable : Bool)
  | link (target : String)
  deriving Inhabited

/-- Entries by their places. The root is a directory and has no entry. -/
structure FileSystem where
  entries : List (List (List Char) × FileSystem.Entry)
  deriving Inhabited

namespace FileSystem

/-- The names on the way from the root. -/
abbrev Place := List (List Char)

/-- Why an operation failed. -/
inductive Cause where
  | notFound
  | permissionDenied
  | alreadyExists
  | notDirectory
  | isDirectory
  | invalidArgument
  | directoryNotEmpty
  | tooManyLinks
  | busy
  deriving DecidableEq, Inhabited

/-- The wording of a cause. -/
def Cause.message : Cause → String
  | notFound => "No such file or directory (os error 2)"
  | permissionDenied => "Permission denied (os error 13)"
  | alreadyExists => "File exists (os error 17)"
  | notDirectory => "Not a directory (os error 20)"
  | isDirectory => "Is a directory (os error 21)"
  | invalidArgument => "Invalid argument (os error 22)"
  | directoryNotEmpty => "Directory not empty (os error 39)"
  | tooManyLinks => "Too many levels of symbolic links (os error 40)"
  | busy => "Device or resource busy (os error 16)"

/-- The modification time of a directory for which none was set since it last changed. -/
def usualTime : Int := 1600000000

/-- The file system with nothing in it. -/
def empty : FileSystem := ⟨[]⟩

/-- The entry at a place. -/
def entry? (fs : FileSystem) (place : Place) : Option Entry :=
  if place = [] then some (.dir usualTime) else go fs.entries
where
  /-- The entry at the place in a list. -/
  go : List (Place × Entry) → Option Entry
    | [] => none
    | (p, e) :: rest => if p = place then some e else go rest

/-- Whether a directory stands at a place. -/
def isDirAt (fs : FileSystem) (place : Place) : Bool :=
  match fs.entry? place with
  | some (.dir _) => true
  | _ => false

/-- A step of a walk: a name, the place above, or the place itself. -/
inductive Step where
  | down (name : List Char)
  | up
  | stay
  deriving DecidableEq

/-- The steps of a path name. A slash at the end asks for a directory, as `.` does. -/
def stepsOf (cs : List Char) : List Step :=
  (Text.splitOn '/' cs).map fun piece =>
    if piece = [] ∨ piece = ['.'] then .stay
    else if piece = ['.', '.'] then .up
    else .down piece

/-- Where a walk ended: at an entry, or at a name that is missing from a directory. -/
inductive Found where
  | at (place : Place) (entry : Entry)
  | absent (folder : Place) (name : List Char)

/-- Walks from a directory along steps. Links are followed, at most `links` of them; one in the last
step only if `follow`. -/
def walkFrom (fs : FileSystem) (follow : Bool) : Nat → Nat → Place → List Step → Except Cause Found
  | 0, _, _, _ => .error .tooManyLinks
  | fuel + 1, links, here, steps =>
    match fs.entry? here with
    | none => .error .notFound
    | some (.dir time) =>
      match steps with
      | [] => .ok (.at here (.dir time))
      | .stay :: rest => walkFrom fs follow fuel links here rest
      | .up :: rest => walkFrom fs follow fuel links here.dropLast rest
      | .down name :: rest =>
        let next := here ++ [name]
        match fs.entry? next with
        | none => if rest.all (· == .stay) then .ok (.absent here name) else .error .notFound
        | some (.link target) =>
          if rest = [] ∧ follow = false then .ok (.at next (.link target))
          else
            match links with
            | 0 => .error .tooManyLinks
            | links + 1 =>
              let start := if target.toList.head? = some '/' then [] else here
              walkFrom fs follow fuel links start (stepsOf target.toList ++ rest)
        | some (.file bytes runnable) =>
          if rest = [] then .ok (.at next (.file bytes runnable)) else .error .notDirectory
        | some (.dir _) => walkFrom fs follow fuel links next rest
    | some _ => .error .notDirectory

/-- How many links a walk follows. -/
def maxLinks : Nat := 40

/-- Fuel for a walk: every step and every step of every link that may be followed. -/
def walkFuel (fs : FileSystem) (steps : List Step) : Nat :=
  let longest := fs.entries.foldl (fun acc (_, e) => match e with
    | .link target => max acc target.length
    | _ => acc) 0
  steps.length + (maxLinks + 1) * (longest + 2) + 2

/-- Walks along a path name from the root. -/
def walk (fs : FileSystem) (p : Path) (follow : Bool) : Except Cause Found :=
  if p.text.isEmpty then .error .notFound
  else
    let steps := stepsOf p.text.toList
    walkFrom fs follow (walkFuel fs steps) maxLinks [] steps

/-- The entry a path names, links followed, and its place. -/
def stat (fs : FileSystem) (p : Path) : Except Cause (Place × Entry) :=
  match walk fs p true with
  | .error c => .error c
  | .ok (.absent _ _) => .error .notFound
  | .ok (.at place entry) => .ok (place, entry)

/-- Whether something is at a path. -/
def present (fs : FileSystem) (p : Path) : Bool :=
  (stat fs p).isOk

/-- Whether a directory is at a path. -/
def isDir (fs : FileSystem) (p : Path) : Bool :=
  match stat fs p with
  | .ok (_, .dir _) => true
  | _ => false

/-- The path name of a place. -/
def pathOf (place : Place) : Path :=
  ⟨String.ofList (if place = [] then ['/'] else (place.map ('/' :: ·)).flatten)⟩

/-- The path name without links of what a path names. -/
def canonical (fs : FileSystem) (p : Path) : Except Cause Path :=
  match stat fs p with
  | .error c => .error c
  | .ok (place, _) => .ok (pathOf place)

/-- The bytes of a file. -/
def read (fs : FileSystem) (p : Path) : Except Cause ByteArray :=
  match stat fs p with
  | .error c => .error c
  | .ok (_, .file bytes _) => .ok bytes
  | .ok _ => .error .isDirectory

/-- The entries with one replaced or added. -/
def putEntry (place : Place) (e : Entry) : List (Place × Entry) → List (Place × Entry)
  | [] => [(place, e)]
  | (p, old) :: rest => if p = place then (p, e) :: rest else (p, old) :: putEntry place e rest

/-- The file system with another entry at a place. -/
def put (fs : FileSystem) (place : Place) (e : Entry) : FileSystem :=
  ⟨putEntry place e fs.entries⟩

/-- The file system after something changed in a directory, whose time is then the usual one. -/
def touch (fs : FileSystem) (place : Place) : FileSystem :=
  if place ≠ [] ∧ fs.isDirAt place then fs.put place (.dir usualTime) else fs

/-- The file system with an entry that was not there before. -/
def add (fs : FileSystem) (folder : Place) (name : List Char) (e : Entry) : FileSystem :=
  (fs.put (folder ++ [name]) e).touch folder

/-- The file system without the entry at a place and without all that is below it. -/
def eraseTree (fs : FileSystem) (place : Place) : FileSystem :=
  (FileSystem.mk (fs.entries.filter fun (p, _) => !place.isPrefixOf p)).touch place.dropLast

/-- The last step of a path name, when it has one. -/
def lastStep? (p : Path) : Option Step :=
  (stepsOf (p.text.toList.reverse.dropWhile (· = '/')).reverse).getLast?

/-- Writes a file, which is made when it is missing and otherwise keeps its permission to run. -/
def write (fs : FileSystem) (p : Path) (bytes : ByteArray) : Except Cause FileSystem :=
  match walk fs p true with
  | .error c => .error c
  | .ok (.absent folder name) =>
    if lastStep? p = some .stay then .error .notFound
    else if p.text.toList.getLast? = some '/' then .error .isDirectory
    else .ok (fs.add folder name (.file bytes false))
  | .ok (.at place (.file _ runnable)) => .ok (fs.put place (.file bytes runnable))
  | .ok (.at _ _) => .error .isDirectory

/-- Makes one directory. -/
def makeDir (fs : FileSystem) (p : Path) : Except Cause FileSystem :=
  match walk fs p false with
  | .error c => .error c
  | .ok (.at _ _) => .error .alreadyExists
  | .ok (.absent folder name) =>
    if lastStep? p = some .stay then .error .notFound
    else .ok (fs.add folder name (.dir usualTime))

/-- Makes a directory and those above it that are missing. The fuel bounds how many are above. -/
def makeDirsWith : Nat → FileSystem → Path → Except Cause FileSystem
  | 0, _, _ => .error .notFound
  | fuel + 1, fs, p =>
    if p.text.isEmpty then .ok fs
    else
      match makeDir fs p with
      | .ok fs => .ok fs
      | .error .notFound =>
        match p.parent? with
        | none => .error .notFound
        | some parent =>
          match makeDirsWith fuel fs parent with
          | .error c => .error c
          | .ok fs =>
            match makeDir fs p with
            | .ok fs => .ok fs
            | .error c => if fs.isDir p then .ok fs else .error c
      | .error c => if fs.isDir p then .ok fs else .error c

/-- Makes a directory and those above it that are missing. -/
def makeDirs (fs : FileSystem) (p : Path) : Except Cause FileSystem :=
  makeDirsWith (p.components.length + 1) fs p

/-- What is left when a directory and those above it cannot all be made: some of those above it may have been
made before. -/
def madeBeforeWith : Nat → FileSystem → Path → FileSystem
  | 0, fs, _ => fs
  | fuel + 1, fs, p =>
    match makeDir fs p, p.parent? with
    | .error .notFound, some parent =>
      match makeDirsWith fuel fs parent with
      | .error _ => madeBeforeWith fuel fs parent
      | .ok fs => fs
    | _, _ => fs

/-- What is left when a directory and those above it cannot all be made. -/
def madeBefore (fs : FileSystem) (p : Path) : FileSystem :=
  madeBeforeWith (p.components.length + 1) fs p

/-- Removes a directory with all that is in it, or a link. A path that ends in `.` or `..` loses only
what is in its directory and is then refused, unless it leads nowhere any more. -/
def removeTree (fs : FileSystem) (p : Path) : Except Cause Unit × FileSystem :=
  match walk fs p false with
  | .error c => (.error c, fs)
  | .ok (.absent _ _) => (.error .notFound, fs)
  | .ok (.at place (.link _)) => (.ok (), fs.eraseTree place)
  | .ok (.at _ (.file _ _)) => (.error .notDirectory, fs)
  | .ok (.at place (.dir time)) =>
    let emptied := ((fs.eraseTree place).put place (.dir time)).touch place
    match lastStep? p with
    | some .stay => (.error .invalidArgument, emptied)
    | some .up => (if present emptied p then .error .directoryNotEmpty else .ok (), emptied)
    | _ => (.ok (), fs.eraseTree place)

/-- Puts an entry that stands at one place where another walk ended. -/
def moveEntry (fs : FileSystem) (place : Place) (e : Entry) : Found → Except Cause FileSystem
  | .absent folder name => .ok ((fs.eraseTree place).add folder name e)
  | .at there old =>
    match e, old with
    | .dir _, .dir _ =>
      if place = there then .ok fs else .error .directoryNotEmpty
    | .dir _, _ => .error .notDirectory
    | _, .dir _ => .error .isDirectory
    | _, _ =>
      if place = there then .ok fs
      else .ok (((fs.eraseTree place).put there e).touch there.dropLast)

/-- What keeps an entry from being put where a walk along a path ended: a path that does not end in a name, or
a slash at its end, which only a directory may have. -/
def refusal? (target : Path) (e : Entry) (found : Found) : Option Cause :=
  match lastStep? target, found, e with
  | some (.down _), _, .dir _ => none
  | some (.down _), _, _ => if target.text.toList.getLast? = some '/' then some .notDirectory else none
  | _, .absent _ _, _ => some .notFound
  | _, .at _ _, _ => some .busy

/-- Gives the entry at one path the name of another, in whose place it is put. -/
def rename (fs : FileSystem) (source target : Path) : Except Cause FileSystem :=
  match walk fs source false, walk fs target false with
  | .error c, _ => .error c
  | .ok (.absent _ _), _ => .error .notFound
  | .ok (.at _ _), .error c => .error c
  | .ok (.at place e), .ok found =>
    match refusal? target e found with
    | some c => .error c
    | none => moveEntry fs place e found

/-- The modification time of the directory at a path. -/
def dirTime? (fs : FileSystem) (p : Path) : Option Int :=
  match stat fs p with
  | .ok (_, .dir time) => some time
  | _ => none

/-- The file system with another modification time of the directory at a path. -/
def setTime (fs : FileSystem) (p : Path) (time : Int) : FileSystem :=
  match stat fs p with
  | .ok (place, .dir _) => if place = [] then fs else fs.put place (.dir time)
  | _ => fs

end FileSystem

end CodeNav
