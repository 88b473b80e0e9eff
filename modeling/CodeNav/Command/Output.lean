import CodeNav.Command
import CodeNav.Progress
import CodeNav.Text.Blank
import CodeNav.Text.Utf8

/-!
# The output of commands

A command writes to two streams, its output and its messages. Each stream is read line by line, and
every line is added to the log of the command, without its secrets. A reader stops for good at a line
that is no text.

## Main definitions

* `LineReader`: a reader of the lines of a stream
* `OutputLog`: the readers of both streams of a command, filling its log
* `ExitStatus`, `ProgramRun`: how a program ended, and what it wrote
-/

namespace CodeNav

/-- Variables that are set for every command: nobody is there to answer questions. -/
def Command.extraVariables : List (String × String) := [("GIT_TERMINAL_PROMPT", "0")]

/-- A reader of lines: the bytes of the line so far, the last one first, unless it has stopped. -/
inductive LineReader where
  | reading (line : List UInt8)
  | stopped
  deriving DecidableEq, Inhabited

namespace LineReader

/-- A reader at the beginning of a stream. -/
def fresh : LineReader := .reading []

/-- A line without its line end, of which a carriage return may be a part. -/
def withoutLineEnd (cs : List Char) : List Char :=
  match cs.reverse with
  | '\n' :: '\r' :: rest => rest.reverse
  | '\n' :: rest => rest.reverse
  | _ => cs

/-- The text of a line, given by its bytes. -/
def lineText? (bytes : List UInt8) : Option String :=
  (Text.utf8Text? bytes).map fun s => String.ofList (withoutLineEnd s.toList)

/-- The reader after one more byte, with the line that the byte completes. -/
def step (r : LineReader) (b : UInt8) : LineReader × Option String :=
  match r with
  | reading line =>
    if b = 0x0A then
      match lineText? (b :: line).reverse with
      | some text => (.fresh, some text)
      | none => (.stopped, none)
    else (.reading (b :: line), none)
  | stopped => (.stopped, none)

/-- The reader after more bytes, with the lines that they complete. -/
def feed (r : LineReader) : List UInt8 → LineReader × List String
  | [] => (r, [])
  | b :: rest =>
    let (r, line) := r.step b
    let (r, lines) := feed r rest
    (r, line.toList ++ lines)

/-- The line that the end of the stream completes. -/
def finish : LineReader → Option String
  | reading [] => none
  | reading line => lineText? line.reverse
  | stopped => none

/-- The lines of a whole stream. -/
def linesOf (bytes : List UInt8) : List String :=
  let (r, lines) := fresh.feed bytes
  lines ++ r.finish.toList

end LineReader

/-- The streams of a program. -/
inductive Channel where
  | output
  | messages
  deriving DecidableEq, Inhabited

/-- The readers of the streams of a command, and its log. -/
structure OutputLog where
  output : LineReader
  messages : LineReader
  log : ProgressLog
  deriving Inhabited

namespace OutputLog

/-- The readers at the beginning of both streams. -/
def start (log : ProgressLog) : OutputLog := ⟨.fresh, .fresh, log⟩

/-- The log with more lines of a command. -/
def addLines (c : Command) (lines : List String) (log : ProgressLog) : ProgressLog :=
  lines.foldl (fun log line => log.append (c.redact line ++ "\n")) log

/-- The reader of a stream. -/
def reader (o : OutputLog) : Channel → LineReader
  | .output => o.output
  | .messages => o.messages

/-- A reader takes some bytes of its stream. -/
def take (c : Command) (channel : Channel) (bytes : List UInt8) (o : OutputLog) : OutputLog :=
  let (r, lines) := (o.reader channel).feed bytes
  let log := addLines c lines o.log
  match channel with
  | .output => ⟨r, o.messages, log⟩
  | .messages => ⟨o.output, r, log⟩

/-- A reader comes to the end of its stream. -/
def close (c : Command) (channel : Channel) (o : OutputLog) : OutputLog :=
  let log := addLines c (o.reader channel).finish.toList o.log
  match channel with
  | .output => ⟨.stopped, o.messages, log⟩
  | .messages => ⟨o.output, .stopped, log⟩

/-- The log after a command has written pieces of its streams, one after the other, and ended. -/
def whole (c : Command) (pieces : List (Channel × List UInt8)) (log : ProgressLog) : ProgressLog :=
  let o := pieces.foldl (fun o p => o.take c p.1 p.2) (start log)
  ((o.close c .output).close c .messages).log

end OutputLog

/-- How a program ended. -/
inductive ExitStatus where
  | exited (code : Nat)
  | signalled (number : Nat)
  deriving DecidableEq, Inhabited

namespace ExitStatus

/-- The names of signals by their numbers, from one on. -/
def signalNames : List String :=
  ["SIGHUP", "SIGINT", "SIGQUIT", "SIGILL", "SIGTRAP", "SIGABRT", "SIGBUS", "SIGFPE", "SIGKILL",
    "SIGUSR1", "SIGSEGV", "SIGUSR2", "SIGPIPE", "SIGALRM", "SIGTERM", "SIGSTKFLT", "SIGCHLD",
    "SIGCONT", "SIGSTOP", "SIGTSTP", "SIGTTIN", "SIGTTOU", "SIGURG", "SIGXCPU", "SIGXFSZ",
    "SIGVTALRM", "SIGPROF", "SIGWINCH", "SIGIO", "SIGPWR", "SIGSYS"]

/-- Whether a program did what it should. -/
def isSuccess (s : ExitStatus) : Bool := s = .exited 0

/-- The wording of a status. -/
def text : ExitStatus → String
  | exited code => "exit status: " ++ toString code
  | signalled n =>
    "signal: " ++ toString n ++ match signalNames[n - 1]? with
      | some name => if n = 0 then "" else " (" ++ name ++ ")"
      | none => ""

/-- The status of a command that ended so. -/
def commandStatus : ExitStatus → CommandStatus
  | exited code => ⟨some code⟩
  | signalled _ => ⟨none⟩

end ExitStatus

/-- What a program did: how it ended, and the pieces that it wrote, in their order. -/
structure ProgramRun where
  status : ExitStatus
  pieces : List (Channel × List UInt8)
  deriving Inhabited

/-- All that was written to a stream. -/
def ProgramRun.bytes (r : ProgramRun) (channel : Channel) : List UInt8 :=
  (r.pieces.filter fun p => p.1 = channel).flatMap (·.2)

end CodeNav
