import CodeNav.Command.Output
import CodeNav.Server.Error
import CodeNav.Text.Quoted

/-!
# Trying a language server

Before it is used, a language server may be asked for help; the first line that it writes tells what
it is.

## Main definitions

* `Preflight.banner`: what the run of a server tells
* `Preflight.usualCommand`: the server that is used when none is named
-/

namespace CodeNav.Preflight

/-- The arguments with which a server is tried. -/
def arguments : List String := ["--help"]

/-- The first line of a text without blanks around it. -/
def firstLine (s : String) : String :=
  String.ofList (Text.trim (((Text.splitOn '\n' s.toList).head?).getD []))

/-- The first line that a server has written, unless it could not be run or has failed. -/
def banner (command : String) (run : Except String ProgramRun) : Except SessionError String :=
  match run with
  | .error reason => .error (.launch command reason)
  | .ok r =>
    if r.status.isSuccess then .ok (firstLine (Text.utf8Shown (r.bytes .output)))
    else
      let messages := Text.trimmed (Text.utf8Shown (r.bytes .messages))
      .error (.launch command
        ("`" ++ command ++ " --help` failed (status=" ++ r.status.text ++ " stderr="
          ++ Text.quoted messages ++ ")"))

/-- The variable that names the server. -/
def variableName : String := "SOURCELENS_SERVER_COMMAND"

/-- The server of the platform. -/
def platformCommand : String := "sourcekit-lsp"

/-- The server that is used when none is named: that of the environment, unless it is blank. -/
def usualCommand (fromEnv : Option String) : String :=
  (fromEnv.filter fun c => !Text.isBlankText c).getD platformCommand

end CodeNav.Preflight
