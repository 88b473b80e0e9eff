import CodeNav.FileSystem.Basic

/-!
# Programs on a rehearsed machine

A machine has a shell and a few tools, which are found by their names alone, and files that may be
run. Starting anything else fails.

## Main definitions

* `Rehearsal.Program`: what can be started
* `Rehearsal.findProgram`: from a name to a program
-/

namespace CodeNav.Rehearsal

/-- What can be started. -/
inductive Program where
  | tool (name : String)
  | file (bytes : ByteArray)

/-- Why a program could not be started. -/
inductive StartFault where
  | system (cause : FileSystem.Cause)
  /-- A name, argument or variable holds U+0000. -/
  | nul
  /-- A file may be run, but nothing tells how. -/
  | badFormat

/-- The wording of a fault. -/
def StartFault.message : StartFault → String
  | system cause => cause.message
  | nul => "nul byte found in provided data"
  | badFormat => "Exec format error (os error 8)"

/-- The tools that every machine has. -/
def tools : List String :=
  ["cat", "echo", "env", "false", "head", "ls", "mkdir", "printf", "pwd", "rm", "seq", "sh", "sleep",
    "touch", "tr", "true", "wc", "yes"]

/-- The tool that a path names. -/
def toolAt? (path : String) : Option String :=
  tools.find? fun t => path = "/bin/" ++ t ∨ path = "/usr/bin/" ++ t

/-- The file that is started from a folder by its path. -/
def findFile (fs : FileSystem) (folder : Path) (program : String) : Except FileSystem.Cause Program :=
  match toolAt? program with
  | some t => .ok (.tool t)
  | none =>
    match fs.stat (folder.join program) with
    | .error c => .error c
    | .ok (_, .file bytes true) => .ok (.file bytes)
    | .ok _ => .error .permissionDenied

/-- The program with a name, started from a folder, which has to be there. A name without a slash is
that of a tool. -/
def findProgram (fs : FileSystem) (folder : Path) (program : String) (texts : List String) :
    Except StartFault Program :=
  if (folder.text :: program :: texts).any fun t => t.toList.contains '\x00' then .error .nul
  else
    match fs.stat folder with
    | .error c => .error (.system c)
    | .ok (_, .dir _) =>
      if program.toList.contains '/' then (findFile fs folder program).mapError .system
      else if tools.contains program then .ok (.tool program)
      else .error (.system .notFound)
    | .ok _ => .error (.system .notDirectory)

end CodeNav.Rehearsal
