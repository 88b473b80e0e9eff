import CodeNav.Path
import CodeNav.Text.Split

/-!
# Commands

A command is a program with arguments, to be run in some folder. It may have secrets, which are
replaced by asterisks wherever the command or its output is shown.

## Main definitions

* `Command`: a command, with `Command.withSecret`
* `Command.redact`, `Command.display`: what may be shown
* `CommandStatus`: how a command ended
-/

namespace CodeNav

/-- A command. -/
structure Command where
  program : String
  args : List String
  folder : Option Path
  secrets : List String
  deriving DecidableEq, Inhabited

namespace Command

/-- A command with one more secret. Nothing is no secret. -/
def withSecret (c : Command) (secret : String) : Command :=
  if secret = "" then c else { c with secrets := c.secrets ++ [secret] }

/-- What is shown in place of a secret. -/
def mask : String := "***"

/-- A text with the secrets replaced, one after the other. -/
def redact (c : Command) (text : String) : String :=
  c.secrets.foldl (fun acc secret => Text.replaced secret mask acc) text

/-- Program and arguments with blanks between them. -/
def line (c : Command) : String :=
  c.args.foldl (fun acc arg => acc ++ " " ++ arg) c.program

/-- The command as it may be shown. -/
def display (c : Command) : String :=
  c.redact c.line

end Command

/-- How a command ended: with an exit code, or with none when a signal ended it. -/
structure CommandStatus where
  code : Option Int
  deriving DecidableEq, Inhabited

/-- Whether a command did what it should. -/
def CommandStatus.isSuccess (s : CommandStatus) : Bool :=
  s.code = some 0

/-- The wording of a status. -/
def CommandStatus.text (s : CommandStatus) : String :=
  match s.code with
  | some code => "exit code " ++ toString code
  | none => "a signal"

end CodeNav
