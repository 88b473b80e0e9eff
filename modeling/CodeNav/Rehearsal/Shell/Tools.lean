import CodeNav.Rehearsal.Shell.State

/-!
# Tools of the shell

Programs that every machine has, so that scripts can do something.

## Main definitions

* `Shell.runTool`: a tool with arguments
-/

namespace CodeNav.Rehearsal.Shell

/-- The value of octal digits, at most so many of them, and the text after them. -/
def octal (most value : Nat) : List Char → Nat × List Char
  | [] => (value, [])
  | c :: cs =>
    match most with
    | 0 => (value, c :: cs)
    | most + 1 =>
      if '0' ≤ c ∧ c ≤ '7' then octal most (value * 8 + (c.toNat - '0'.toNat)) cs
      else (value, c :: cs)

/-- Text with escape sequences as bytes. `echo` wants a zero before octal digits and may be ended by
`\c`; the answer tells whether it was. -/
def escaped (fuel : Nat) (zero : Bool) (cs : List Char) : List UInt8 × Bool :=
  match fuel with
  | 0 => ([], false)
  | fuel + 1 =>
    let add (bytes : List UInt8) (rest : List Char) : List UInt8 × Bool :=
      let (more, stop) := escaped fuel zero rest
      (bytes ++ more, stop)
    match cs with
    | [] => ([], false)
    | '\\' :: c :: rest =>
      match c with
      | 'n' => add [10] rest
      | 't' => add [9] rest
      | 'r' => add [13] rest
      | 'a' => add [7] rest
      | 'b' => add [8] rest
      | 'f' => add [12] rest
      | 'v' => add [11] rest
      | '\\' => add [92] rest
      | 'c' => ([], true)
      | '0' =>
        let (n, rest) := octal 3 0 rest
        add [UInt8.ofNat n] rest
      | c =>
        if !zero && '0' ≤ c && c ≤ '7' then
          let (n, rest) := octal 3 0 (c :: rest)
          add [UInt8.ofNat n] rest
        else add (Text.utf8Bytes ['\\', c]) rest
    | c :: rest => add (Text.utf8Bytes [c]) rest

/-- The number that a text is. -/
def number? (s : String) : Option Int :=
  let digits (cs : List Char) : Option Int :=
    if cs ≠ [] ∧ cs.all (·.isDigit) then
      some (cs.foldl (fun n c => n * 10 + (c.toNat - '0'.toNat : Nat)) 0)
    else none
  match s.toList with
  | '-' :: cs => (digits cs).map (- ·)
  | cs => digits cs

/-- Bytes filled up to a width, with blanks or zeros before them or blanks after them. -/
def padded (after zeros : Bool) (width : Nat) (bytes : List UInt8) : List UInt8 :=
  let gap (b : UInt8) : List UInt8 := List.replicate (width - bytes.length) b
  if after then bytes ++ gap 32 else gap (if zeros then 48 else 32) ++ bytes

/-- One pass of a format over its arguments: what is written, and the arguments that are left. -/
def format (fuel : Nat) (cs : List Char) (args : List String) : List UInt8 × List String :=
  match fuel with
  | 0 => ([], args)
  | fuel + 1 =>
    let add (bytes : List UInt8) (rest : List Char) (args : List String) :
        List UInt8 × List String :=
      let (more, args) := format fuel rest args
      (bytes ++ more, args)
    let arg := args.head?.getD ""
    match cs with
    | [] => ([], args)
    | '%' :: '%' :: rest => add [37] rest args
    | '%' :: rest =>
      let flags := rest.takeWhile fun c => c = '-' || c = '0'
      let width := (rest.drop flags.length).takeWhile (·.isDigit)
      let put (bytes : List UInt8) (rest : List Char) : List UInt8 × List String :=
        add (padded (flags.contains '-') (flags.contains '0') ((number? (String.ofList width)).getD 0).toNat
          bytes) rest (args.drop 1)
      let text (cs : List Char) (rest : List Char) : List UInt8 × List String :=
        put (Text.utf8Bytes cs) rest
      let value : Int := (number? arg).getD 0
      match rest.drop (flags.length + width.length) with
      | 's' :: rest => text arg.toList rest
      | 'd' :: rest => text (toString value).toList rest
      | 'i' :: rest => text (toString value).toList rest
      | 'x' :: rest => text (Nat.toDigits 16 value.toNat) rest
      | 'o' :: rest => text (Nat.toDigits 8 value.toNat) rest
      | 'c' :: rest => text (arg.toList.take 1) rest
      | 'b' :: rest => put (escaped (arg.length + 1) true arg.toList).1 rest
      | rest => add [37] rest args
    | '\\' :: c :: rest =>
      let sequence := if '0' ≤ c ∧ c ≤ '7' then '\\' :: c ::
          rest.takeWhile (fun d => '0' ≤ d && d ≤ '7') |>.take 4 else ['\\', c]
      add (escaped 5 false sequence).1 ((c :: rest).drop (sequence.length - 1)) args
    | c :: rest => add (Text.utf8Bytes [c]) rest args

/-- A format over all arguments. -/
def formatAll (fuel : Nat) (cs : List Char) (args : List String) : List UInt8 :=
  match fuel with
  | 0 => []
  | fuel + 1 =>
    let (bytes, rest) := format (cs.length + 1) cs args
    if rest ≠ [] ∧ rest.length < args.length then bytes ++ formatAll fuel cs rest else bytes

/-- The truth of a condition. -/
def condition (m : Machine) : List String → Bool
  | [] => false
  | [s] => s ≠ ""
  | "!" :: rest => !condition m rest
  | ["-n", s] => s ≠ ""
  | ["-z", s] => s = ""
  | ["-e", p] => m.fs.present (m.pathOf p)
  | ["-d", p] => m.fs.isDir (m.pathOf p)
  | ["-f", p] => (m.fs.read (m.pathOf p)).isOk
  | ["-s", p] => ((m.fs.read (m.pathOf p)).toOption.any fun bytes => bytes.size > 0)
  | [a, operator, b] =>
    let compare (f : Int → Int → Bool) : Bool :=
      match number? a, number? b with
      | some x, some y => f x y
      | _, _ => false
    match operator with
    | "=" => a = b
    | "!=" => a ≠ b
    | "-eq" => compare (· == ·)
    | "-ne" => compare (· != ·)
    | "-lt" => compare fun x y => x < y
    | "-le" => compare fun x y => x ≤ y
    | "-gt" => compare fun x y => y < x
    | "-ge" => compare fun x y => y ≤ x
    | _ => false
  | _ => false

/-- A time in seconds, in milliseconds. -/
def milliseconds (s : String) : Nat :=
  let (whole, part) := (s.toList.takeWhile (·.isDigit), (s.toList.dropWhile (·.isDigit)).drop 1)
  let value (cs : List Char) : Nat := cs.foldl (fun n c => n * 10 + (c.toNat - '0'.toNat)) 0
  let digits := (part.takeWhile (·.isDigit)).take 3
  value whole * 1000 + value (digits ++ List.replicate (3 - digits.length) '0')

/-- Arguments without options. -/
def plainArgs (args : List String) : List String :=
  args.filter fun a => !"-".toList.isPrefixOf a.toList || a = "-"

/-- The wording of a cause, without its number. -/
def plainReason (c : FileSystem.Cause) : String := (c.message.splitOn " (").head?.getD ""

/-- Shows files one after the other. -/
def showFiles (args : List String) (m : Machine) : Machine :=
  args.foldl (fun m a =>
    if a = "-" then { m.say m.input with input := [] }
    else
      match m.fs.read (m.pathOf a) with
      | .ok bytes => m.say bytes.toList
      | .error c =>
        m.complain ("cat: " ++ a ++ ": " ++ plainReason c) 1)
    (m.ended 0)

/-- Makes folders. -/
def makeFolders (args : List String) (m : Machine) : Machine :=
  (plainArgs args).foldl (fun m a =>
    let p := m.pathOf a
    match if args.contains "-p" then m.fs.makeDirs p else m.fs.makeDir p with
    | .ok fs => { m with fs := fs }
    | .error c => m.complain ("mkdir: cannot create directory '" ++ a ++ "': "
        ++ plainReason c) 1) (m.ended 0)

/-- Makes files that are missing. -/
def touchFiles (args : List String) (m : Machine) : Machine :=
  (plainArgs args).foldl (fun m a =>
    let p := m.pathOf a
    if m.fs.present p then m
    else
      match m.fs.write p ⟨#[]⟩ with
      | .ok fs => { m with fs := fs }
      | .error c => m.complain ("touch: cannot touch '" ++ a ++ "': "
          ++ plainReason c) 1) (m.ended 0)

/-- Removes files and folders. -/
def removeFiles (args : List String) (m : Machine) : Machine :=
  let forced := args.any fun a => a.toList.head? = some '-' && a.toList.contains 'f'
  (plainArgs args).foldl (fun m a =>
    match m.fs.walk (m.pathOf a) false with
    | .ok (.at place _) => { m with fs := m.fs.eraseTree place }
    | _ =>
      if forced then m
      else m.complain ("rm: cannot remove '" ++ a ++ "': No such file or directory") 1)
    (m.ended 0)

/-- Shows the names in folders. -/
def showFolders (args : List String) (m : Machine) : Machine :=
  let places := plainArgs args
  (if places = [] then ["."] else places).foldl (fun m a =>
    match m.fs.stat (m.pathOf a) with
    | .ok (place, .dir _) =>
      let names := m.fs.entries.filterMap fun e =>
        match e.1.getLast? with
        | some name => if e.1.dropLast = place then some (String.ofList name) else none
        | none => none
      let shown := (names.filter fun n => n.toList.head? ≠ some '.').mergeSort fun a b => a ≤ b
      m.sayText (String.join (shown.map (· ++ "\n")))
    | .ok _ => m.sayText (a ++ "\n")
    | .error c => m.complain ("ls: cannot access '" ++ a ++ "': " ++ plainReason c) 2) (m.ended 0)

/-- Numbers, one in each line. -/
def countLines (args : List String) : List Char :=
  let (first, last) : Int × Int := match args.map fun a => (number? a).getD 0 with
    | [last] => (1, last)
    | first :: last :: _ => (first, last)
    | [] => (1, 0)
  (List.range (last - first + 1).toNat).flatMap fun (n : Nat) =>
    (toString (first + (n : Int))).toList ++ ['\n']

/-- The bytes up to the end of a line, so many times. -/
def firstLines : Nat → List UInt8 → List UInt8
  | _, [] => []
  | 0, _ => []
  | n + 1, b :: rest => b :: firstLines (if b = 10 then n else n + 1) rest

/-- The beginning of the input or of a file. -/
def showBeginning (args : List String) (m : Machine) : Machine :=
  let amount (s : String) : Nat := ((number? s).getD 0).toNat
  let (bytes, count, files) := match args with
    | "-c" :: n :: rest => (true, amount n, rest)
    | "-n" :: n :: rest => (false, amount n, rest)
    | first :: rest =>
      match first.toList with
      | '-' :: 'c' :: n => (true, amount (String.ofList n), rest)
      | '-' :: 'n' :: n => (false, amount (String.ofList n), rest)
      | '-' :: n => (false, amount (String.ofList n), rest)
      | _ => (false, 10, args)
    | [] => (false, 10, [])
  let part (all : List UInt8) : List UInt8 :=
    if bytes then all.take count else firstLines count all
  match files with
  | [] => ({ m with input := [] }.say (part m.input)).ended 0
  | ["/dev/zero"] => (m.say (part (List.replicate count 0))).ended 0
  | file :: _ =>
    match m.fs.read (m.pathOf file) with
    | .ok content => (m.say (part content.toList)).ended 0
    | .error c =>
      m.complain ("head: cannot open '" ++ file ++ "' for reading: " ++ plainReason c) 1

/-- The bytes of a set of characters, with ranges. -/
def setOf : List UInt8 → List UInt8
  | a :: 45 :: b :: rest =>
    ((List.range (b.toNat - a.toNat + 1)).map fun n => UInt8.ofNat (a.toNat + n)) ++ setOf rest
  | a :: rest => a :: setOf rest
  | [] => []

/-- The set that an argument describes. -/
def setArg (s : String) : List UInt8 := setOf (escaped (s.length + 1) false s.toList).1

/-- Replaces or leaves out bytes of the input. -/
def replaceBytes (args : List String) (m : Machine) : Machine :=
  let result : List UInt8 := match args with
    | ["-d", set] => m.input.filter fun b => !(setArg set).contains b
    | [source, target] =>
      let target := setArg target
      m.input.map fun b =>
        match (setArg source).idxOf? b with
        | some i => (target[i]?).getD (target.getLastD b)
        | none => b
    | _ => m.input
  ({ m with input := [] }.say result).ended 0

/-- How many lines, words or bytes the input has. -/
def countInput (args : List String) (m : Machine) : Machine :=
  let isGap (b : UInt8) : Bool := b = 32 || (9 ≤ b && b ≤ 13)
  let words := (m.input.foldl (fun (n, inside) b =>
    (if !inside && !isGap b then n + 1 else n, !isGap b)) (0, false)).1
  let text := match args with
    | ["-l"] => toString (m.input.count 10)
    | ["-w"] => toString words
    | ["-c"] => toString m.input.length
    | _ => String.intercalate " " ([m.input.count 10, words, m.input.length].map fun n =>
        String.ofList (List.replicate (7 - (toString n).length) ' ') ++ toString n)
  ({ m with input := [] }.sayText (text ++ "\n")).ended 0

/-- How often a text is repeated where it would be repeated for ever. -/
def manyTimes : Nat := 20000

/-- The names of the tools that are no programs of their own. -/
def builtins : List String :=
  [":", "[", "cd", "exit", "export", "kill", "read", "set", "shift", "test", "unset", "wait", "break",
    "continue"]

/-- The signal that a text names. -/
def signalNumber (s : String) : Nat :=
  match number? s with
  | some n => n.toNat
  | none =>
    let name := if "SIG".toList.isPrefixOf s.toList then s else "SIG" ++ s
    ((ExitStatus.signalNames.zipIdx.find? fun n => n.1 = name).map (·.2 + 1)).getD 15

/-- The number of the script's own process. -/
def ownNumber : String := "4242"

/-- A signal is sent. -/
def kill (args : List String) (m : Machine) : Flow × Machine :=
  let (signal, targets) := match args with
    | "-s" :: name :: rest => (signalNumber name, rest)
    | first :: rest =>
      if "-".toList.isPrefixOf first.toList then
        (signalNumber (String.ofList (first.toList.drop 1)), rest)
      else (15, args)
    | [] => (15, [])
  if targets.contains ownNumber && signal ≠ 0 then (.signal signal, m) else (.next, m.ended 0)

/-- A tool with arguments, in a line of a script. -/
def runTool (line : Nat) (name : String) (args : List String) (m : Machine) : Flow × Machine :=
  let done (m : Machine) : Flow × Machine := (.next, m)
  let fault (text : String) : Machine :=
    m.complain (m.name ++ ": " ++ toString line ++ ": " ++ text) 2
  match name with
  | ":" => done (m.ended 0)
  | "true" => done (m.ended 0)
  | "false" => done (m.ended 1)
  | "echo" =>
    let (bare, words) := match args with
      | "-n" :: rest => (true, rest)
      | words => (false, words)
    let text := " ".intercalate words
    let (bytes, stop) := escaped (text.length + 1) true text.toList
    done ((m.say (if bare || stop then bytes else bytes ++ [10])).ended 0)
  | "printf" =>
    match args with
    | [] => done (m.complain "printf: usage: printf format [arg ...]" 2)
    | f :: rest => done ((m.say (formatAll (rest.length + 1) f.toList rest)).ended 0)
  | "cat" => done (showFiles (if args = [] then ["-"] else args) m)
  | "pwd" => done ((m.sayText (m.folder.text ++ "\n")).ended 0)
  | "env" =>
    done ((m.sayText (String.join (m.vars.map fun v => v.1 ++ "=" ++ v.2 ++ "\n"))).ended 0)
  | "mkdir" => done (makeFolders args m)
  | "touch" => done (touchFiles args m)
  | "rm" => done (removeFiles args m)
  | "sleep" =>
    let (flow, m) := m.wait (milliseconds (args.head?.getD ""))
    (flow, m.ended 0)
  | "test" => done (m.ended (if condition m args then 0 else 1))
  | "[" =>
    if args.getLast? = some "]" then done (m.ended (if condition m args.dropLast then 0 else 1))
    else done (fault "[: missing ]")
  | "cd" =>
    let target := m.pathOf ((args.head?.orElse fun _ => m.value? "HOME").getD "/")
    if m.fs.isDir target then
      done ({ m with folder := (m.fs.canonical target).toOption.getD target }.ended 0)
    else done (fault ("cd: can't cd to " ++ args.head?.getD ""))
  | "exit" =>
    match args.head? with
    | none => (.exit, m)
    | some a =>
      match number? a with
      | some (.ofNat n) => (.exit, m.ended (n % 256))
      | _ => (.exit, fault ("exit: Illegal number: " ++ a))
  | "export" =>
    done ((args.foldl (fun m a =>
      match Text.splitOnce ['='] a.toList with
      | some (name, value) => m.set (String.ofList name) (String.ofList value)
      | none => m) m).ended 0)
  | "unset" => done ({ m with vars := m.vars.filter fun v => !args.contains v.1 }.ended 0)
  | "set" =>
    match args with
    | "--" :: rest => done ({ m with args := rest }.ended 0)
    | "-e" :: _ => done ({ m with strict := true }.ended 0)
    | "+e" :: _ => done ({ m with strict := false }.ended 0)
    | first :: _ =>
      if first.toList.head? = some '-' then done (m.ended 0)
      else done ({ m with args := args }.ended 0)
    | [] => done (m.ended 0)
  | "shift" => done ({ m with args := m.args.drop 1 }.ended 0)
  | "kill" => kill args m
  | "wait" => done (m.ended 0)
  | "read" =>
    let text := m.input.takeWhile (· ≠ 10)
    let value := Text.utf8Shown text
    let m := { m with input := m.input.drop (text.length + 1) }
      |>.ended (if text.length < m.input.length then 0 else 1)
    done ((plainArgs args).head?.elim m fun name => m.set name (Text.trimmed value))
  | "ls" => done (showFolders args m)
  | "seq" => done ((m.say (Text.utf8Bytes (countLines args))).ended 0)
  | "head" => done (showBeginning args m)
  | "tr" => done (replaceBytes args m)
  | "wc" => done (countInput args m)
  | "yes" =>
    let text := (if args = [] then "y" else " ".intercalate args) ++ "\n"
    done ((m.say (List.replicate manyTimes (Text.utf8Bytes text.toList)).flatten).ended 0)
  | "break" => (.leave, m.ended 0)
  | "continue" => (.again, m.ended 0)
  | _ => done (m.complain (name ++ ": not rehearsed") 127)

end CodeNav.Rehearsal.Shell
