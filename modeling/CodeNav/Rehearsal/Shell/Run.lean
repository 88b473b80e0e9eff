import CodeNav.Rehearsal.Shell.Parser
import CodeNav.Rehearsal.Shell.Sum
import CodeNav.Rehearsal.Shell.Tools

/-!
# Running shell scripts

A script is run on a machine. Words are expanded first: variables, sums and outputs are put in, and
what is not quoted is split at blanks.

## Main definitions

* `Shell.fieldsOf`, `Shell.joined`: what an expanded word stands for
* `Shell.matchesPattern`: patterns
* `Shell.run`: a script on a machine
* `Shell.runProgram`: a program with arguments
-/

namespace CodeNav.Rehearsal.Shell

/-- A part of a word after expansion. -/
inductive Piece where
  /-- Text that is kept as it is. -/
  | fixed (chars : List Char) (quoted : Bool)
  /-- A value that is split at blanks. -/
  | value (chars : List Char)
  /-- Values of which each is a field of its own. -/
  | fields (values : List (List Char))

/-- Characters, and whether they were quoted. -/
abbrev Field := List (Char × Bool)

/-- Fields that are done, the last one first, and the one that is being made. -/
abbrev Fields := List Field × Option Field

/-- The fields with more text in the current one. -/
def addText (cs : List Char) (quoted : Bool) (fs : Fields) : Fields :=
  (fs.1, some (fs.2.getD [] ++ cs.map fun c => (c, quoted)))

/-- The fields with the current one done. -/
def closeField (fs : Fields) : Fields :=
  match fs.2 with
  | some f => (f :: fs.1, none)
  | none => fs

/-- Whether values are split at a character. -/
def isGap (c : Char) : Bool := c = ' ' || c = '\t' || c = '\n'

/-- The fields with a value that is split. -/
def addValue (cs : List Char) (fs : Fields) : Fields :=
  cs.foldl (fun fs c => if isGap c then closeField fs else addText [c] false fs) fs

/-- The fields with values that are fields of their own. -/
def addFields : List (List Char) → Fields → Fields
  | [], fs => fs
  | [v], fs => addText v true fs
  | v :: rest, fs => addFields rest (closeField (addText v true fs))

/-- The fields of a word. -/
def fieldsOf (pieces : List Piece) : List Field :=
  (closeField (pieces.foldl (fun fs p => match p with
    | .fixed cs quoted => if cs = [] && !quoted then fs else addText cs quoted fs
    | .value cs => addValue cs fs
    | .fields vs => addFields vs fs) ([], none))).1.reverse

/-- The text of a word that is not split. -/
def joined (pieces : List Piece) : Field :=
  pieces.flatMap fun p => match p with
    | .fixed cs quoted => cs.map fun c => (c, quoted)
    | .value cs => cs.map fun c => (c, false)
    | .fields vs => ((" ".intercalate (vs.map String.ofList)).toList).map fun c => (c, true)

/-- The text of a field. -/
def textOf (f : Field) : String := String.ofList (f.map (·.1))

/-- Whether a text fits a pattern, in which unquoted stars and question marks are special. -/
def matchesPattern (fuel : Nat) (pattern : Field) (cs : List Char) : Bool :=
  match fuel with
  | 0 => false
  | fuel + 1 =>
    match pattern with
    | [] => cs.isEmpty
    | ('*', false) :: rest =>
      matchesPattern fuel rest cs || (match cs with
        | [] => false
        | _ :: cs => matchesPattern fuel pattern cs)
    | ('?', false) :: rest =>
      match cs with
      | [] => false
      | _ :: cs => matchesPattern fuel rest cs
    | (p, _) :: rest =>
      match cs with
      | [] => false
      | c :: cs => p = c && matchesPattern fuel rest cs

/-- The value of a variable of the shell itself or of the script. -/
def parameterValue? (m : Machine) (name : String) : Option String :=
  match name with
  | "?" => some (toString m.status)
  | "#" => some (toString m.args.length)
  | "$" => some ownNumber
  | "0" => some m.name
  | "*" => some (" ".intercalate m.args)
  | "@" => some (" ".intercalate m.args)
  | "!" => some ""
  | "-" => some ""
  | name =>
    match number? name with
    | some n => m.args[n.toNat - 1]?
    | none => m.value? name

/-- Trailing line ends are no part of an output that is put in. -/
def withoutEnd (cs : List Char) : List Char :=
  (cs.reverse.dropWhile (· = '\n')).reverse

/-- How a script that was started by its name begins: what runs it, and with which arguments. -/
def interpreter? (bytes : List UInt8) : Option (List String) :=
  match (Text.utf8Shown bytes).toList with
  | '#' :: '!' :: rest =>
    let line := String.ofList (rest.takeWhile (· ≠ '\n'))
    let words := (Text.pieces ' ' line).filter (· ≠ "")
    if words = [] then none else some words
  | _ => none

/-- Whether a tool is a shell. -/
def isShell (path : String) : Bool :=
  path = "sh" || path = "/bin/sh" || path = "/usr/bin/sh" || path = "/bin/bash"
    || path = "/usr/bin/bash" || path = "/bin/dash"

/-- The words of an interpreter that are a shell's. -/
def isShellLine (words : List String) : Bool :=
  match words with
  | ["/usr/bin/env", shell] => shell = "sh" || shell = "bash"
  | path :: _ => isShell path
  | [] => false

/-- A script that has to go well ends where a command fails. -/
def checked (r : Flow × Machine) : Flow × Machine :=
  match r with
  | (.next, m) => if m.strict && !m.lenient && m.status ≠ 0 then (.exit, m) else (.next, m)
  | other => other

/-- What a command did that was allowed to fail. -/
def tried (m : Machine) (r : Flow × Machine) : Flow × Machine :=
  (r.1, { r.2 with lenient := m.lenient })

mutual

/-- The pieces of a word. -/
def expand (fuel : Nat) (w : Word) (m : Machine) : List Piece × Machine :=
  match fuel with
  | 0 => ([], m)
  | fuel + 1 =>
    match w with
    | [] => ([], m)
    | part :: rest =>
      let (piece, m) : Piece × Machine := match part with
        | .text cs quoted => (.fixed cs quoted, m)
        | .parameter "@" _ true => (.fields (m.args.map String.toList), m)
        | .parameter name fallback quoted =>
          let value := match parameterValue? m name, fallback with
            | none, some f => f
            | some "", some f => f
            | some v, _ => v.toList
            | none, none => []
          (if quoted then .fixed value true else .value value, m)
        | .sum source quoted =>
          let value (name : String) : Int := ((parameterValue? m name).bind number?).getD 0
          let text := (toString (sumValue value source)).toList
          (if quoted then .fixed text true else .value text, m)
        | .output source quoted =>
          match parse? source with
          | none => (.fixed [] quoted, m)
          | some script =>
            let (_, after) := run fuel script { m with out := .captured, pieces := [] }
            let (bytes, after) := after.takeCaptured
            let text := withoutEnd (Text.utf8Shown bytes).toList
            (if quoted then .fixed text true else .value text,
              { m with
                fs := after.fs
                status := after.status
                elapsed := after.elapsed
                pieces := after.pieces ++ m.pieces })
      let (pieces, m) := expand fuel rest m
      (piece :: pieces, m)

/-- The fields of words. -/
def expandAll (fuel : Nat) (ws : List Word) (m : Machine) : List String × Machine :=
  match fuel with
  | 0 => ([], m)
  | fuel + 1 =>
    match ws with
    | [] => ([], m)
    | w :: rest =>
      let (pieces, m) := expand fuel w m
      let (more, m) := expandAll fuel rest m
      ((fieldsOf pieces).map textOf ++ more, m)

/-- The machine with streams led elsewhere, or what cannot be done when a file cannot be opened. -/
def redirected (fuel : Nat) (rs : List Redirect) (m : Machine) : Except String Machine :=
  match fuel with
  | 0 => .ok m
  | fuel + 1 =>
    match rs with
    | [] => .ok m
    | r :: rest =>
      let put (m : Machine) (stream : Nat) (sink : Sink) : Machine :=
        if stream = 2 then { m with err := sink } else { m with out := sink }
      match r with
      | .copy stream w =>
        let (pieces, m) := expand fuel w m
        redirected fuel rest (put m stream
          (if textOf (joined pieces) = "2" then m.err else m.out))
      | .file stream append w =>
        let (pieces, m) := expand fuel w m
        let name := textOf (joined pieces)
        if name = "/dev/null" then redirected fuel rest (put m stream .nowhere)
        else
          let path := m.pathOf name
          let opened := if append && m.fs.present path then .ok m.fs else m.fs.write path ⟨#[]⟩
          match opened with
          | .ok fs => redirected fuel rest (put { m with fs := fs } stream (.file path))
          | .error .notFound => .error ("cannot create " ++ name ++ ": Directory nonexistent")
          | .error c => .error ("cannot create " ++ name ++ ": " ++ plainReason c)
      | .input w =>
        let (pieces, m) := expand fuel w m
        let name := textOf (joined pieces)
        if name = "/dev/null" then redirected fuel rest { m with input := [] }
        else
          match m.fs.read (m.pathOf name) with
          | .ok bytes => redirected fuel rest { m with input := bytes.toList }
          | .error .notFound => .error ("cannot open " ++ name ++ ": No such file")
          | .error c => .error ("cannot open " ++ name ++ ": " ++ plainReason c)

/-- A command with its words expanded. -/
def runWords (fuel : Nat) (line : Nat) (words : List String) (m : Machine) : Flow × Machine :=
  match fuel with
  | 0 => (.late, m)
  | fuel + 1 =>
    match words with
    | [] => (.next, m)
    | "exec" :: rest =>
      match rest with
      | [] => (.next, m)
      | name :: _ =>
        let missing := !builtins.contains name && (findProgram m.fs m.folder name []).isOk = false
        let (flow, m) := if missing then
            (.next, m.complain (m.name ++ ": " ++ toString line ++ ": exec: " ++ name ++ ": not found")
              127)
          else runWords fuel line rest m
        (if flow = .next then .exit else flow, m)
    | "command" :: rest => runWords fuel line rest m
    | "sh" :: rest => runShell fuel rest m
    | name :: args =>
      if builtins.contains name then runTool line name args m
      else
        match findProgram m.fs m.folder name args with
        | .error fault =>
          let place := m.name ++ ": " ++ toString line ++ ": " ++ name ++ ": "
          match fault with
          | .system .permissionDenied => (.next, m.complain (place ++ "Permission denied") 126)
          | .system .notFound =>
            (.next, m.complain (place ++ (if name = "" then "Permission denied" else "not found")) 127)
          | _ => (.next, m.complain (place ++ "not found") 127)
        | .ok (.tool tool) =>
          if tool = "sh" then runShell fuel args m else runTool line tool args m
        | .ok (.file bytes) =>
          match parse? (Text.utf8Shown bytes.toList).toList with
          | none => (.next, m.complain (name ++ ": Syntax error") 2)
          | some script =>
            let (flow, after) := run fuel script { m with name := name, args := args }
            afterChild m (flow, after)

/-- A shell with arguments. -/
def runShell (fuel : Nat) (args : List String) (m : Machine) : Flow × Machine :=
  match fuel with
  | 0 => (.late, m)
  | fuel + 1 =>
    let child (name : String) (args : List String) (source : List Char) : Flow × Machine :=
      match parse? source with
      | none => (.next, m.complain (name ++ ": 1: Syntax error") 2)
      | some script => afterChild m (run fuel script { m with name := name, args := args })
    match args with
    | "-c" :: source :: name :: args => child name args source.toList
    | ["-c", source] => child "sh" [] source.toList
    | [] =>
      let (input, m) := (m.input, { m with input := [] })
      match parse? (Text.utf8Shown input).toList with
      | none => (.next, m.complain "sh: 1: Syntax error" 2)
      | some script => afterChild m (run fuel script { m with name := "sh", args := [] })
    | file :: args =>
      match m.fs.read (m.pathOf file) with
      | .ok bytes => child file args (Text.utf8Shown bytes.toList).toList
      | .error _ => (.next, m.complain ("sh: 0: cannot open " ++ file ++ ": No such file") 2)

/-- The machine after a script of its own was run: only files, streams and time are shared. -/
def afterChild (m : Machine) (r : Flow × Machine) : Flow × Machine :=
  let (flow, after) := r
  let m := { m with
    fs := after.fs
    input := after.input
    pieces := after.pieces
    elapsed := after.elapsed
    status := after.status }
  match flow with
  | .late => (.late, m)
  | .signal n => (.next, m.ended (128 + n))
  | _ => (.next, m)

/-- The first branch of a distinction that fits. -/
def runBranches (fuel : Nat) (subject : List Char) (bs : List (List Word × Script)) (m : Machine) :
    Flow × Machine :=
  match fuel with
  | 0 => (.late, m)
  | fuel + 1 =>
    match bs with
    | [] => (.next, m.ended 0)
    | (patterns, body) :: rest =>
      let fits := patterns.any fun w =>
        let pattern := joined (expand fuel w m).1
        matchesPattern (pattern.length + subject.length + 1) pattern subject
      if fits then run fuel body (m.ended 0) else runBranches fuel subject rest m

/-- A body for each of some values. -/
def runEach (fuel : Nat) (name : String) (values : List String) (body : Script) (m : Machine) :
    Flow × Machine :=
  match fuel with
  | 0 => (.late, m)
  | fuel + 1 =>
    match values with
    | [] => (.next, m)
    | v :: rest =>
      match run fuel body (m.set name v) with
      | (.next, m) => runEach fuel name rest body m
      | (.again, m) => runEach fuel name rest body m
      | (.leave, m) => (.next, m)
      | other => other

/-- A script on a machine. -/
def run (fuel : Nat) (s : Script) (m : Machine) : Flow × Machine :=
  match fuel with
  | 0 => (.late, m)
  | fuel + 1 =>
    match s with
    | .nothing => (.next, m)
    | .first a b =>
      match run fuel a m with
      | (.next, m) => run fuel b m
      | other => other
    | .both a b =>
      match tried m (run fuel a m.eased) with
      | (.next, m) => if m.status = 0 then run fuel b m else (.next, m)
      | other => other
    | .either a b =>
      match tried m (run fuel a m.eased) with
      | (.next, m) => if m.status = 0 then (.next, m) else run fuel b m
      | other => other
    | .negated a =>
      match tried m (run fuel a m.eased) with
      | (.next, m) => (.next, m.ended (if m.status = 0 then 1 else 0))
      | other => other
    | .piped a b =>
      let (flow, after) := run fuel a { m with out := .captured, pieces := [] }
      let (bytes, after) := after.takeCaptured
      let (flow', after) := run fuel b { after with
        out := m.out, err := m.err, input := bytes, vars := m.vars, args := m.args
        folder := m.folder, pieces := after.pieces ++ m.pieces }
      let m := { after with vars := m.vars, args := m.args, folder := m.folder, input := m.input }
      (if flow = .late || flow' = .late then .late else .next, m)
    | .grouped a apart rs =>
      match redirected fuel rs m with
      | .error reason => (.next, m.complain (m.name ++ ": " ++ reason) 2)
      | .ok inner =>
        let (flow, after) := run fuel a inner
        if apart then checked (afterChild m (flow, after))
        else (flow, { after with out := m.out, err := m.err })
    | .choice condition positive negative =>
      match tried m (run fuel condition m.eased) with
      | (.next, m) =>
        if m.status = 0 then run fuel positive m else run fuel negative (m.ended 0)
      | other => other
    | .repeated wanted condition body =>
      match tried m (run fuel condition m.eased) with
      | (.next, m) =>
        if (m.status = 0) = wanted then
          match run fuel body m with
          | (.next, m) => run fuel s m
          | (.again, m) => run fuel s m
          | (.leave, m) => (.next, m)
          | other => other
        else (.next, m.ended 0)
      | other => other
    | .each name words body =>
      match words with
      | none => runEach fuel name m.args body m
      | some ws =>
        let (values, m) := expandAll fuel ws m
        runEach fuel name values body m
    | .cases subject bs =>
      let (pieces, m) := expand fuel subject m
      runBranches fuel ((joined pieces).map (·.1)) bs m
    | .command sets words rs line =>
      let (fields, m) := expandAll fuel words m
      let m' := sets.foldl (fun m set =>
        let (pieces, m) := expand fuel set.2 m
        m.set set.1 (textOf (joined pieces))) m
      if fields = [] then (.next, if sets.isEmpty then m' else m'.ended 0)
      else
        match redirected fuel rs m' with
        | .error reason =>
          checked (.next, m.complain (m.name ++ ": " ++ toString line ++ ": " ++ reason) 2)
        | .ok inner =>
          let (flow, after) := runWords fuel line fields inner
          let vars := if sets.isEmpty then after.vars else m.vars
          checked (flow, { after with out := m.out, err := m.err, vars := vars })

end

/-- How many steps a script may take. -/
def stepLimit : Nat := 200000

/-- A program with arguments, started from a folder with variables: what it did, how long it took and
the files afterwards. Nothing is said about how it ended when its time was over before. -/
def runProgram (fs : FileSystem) (folder : Path) (vars : List (String × String))
    (limit : Option Nat) (program : String) (args : List String) :
    Except StartFault (Option ExitStatus × List (Channel × List UInt8) × Nat × FileSystem) :=
  let m : Machine :=
    ⟨fs, folder, vars, program, args, 0, [], [], .channel .output, .channel .messages, 0, limit, false,
      false⟩
  let finish (r : Flow × Machine) :
      Option ExitStatus × List (Channel × List UInt8) × Nat × FileSystem :=
    let (flow, m) := r
    let status := match flow with
      | .late => none
      | .signal n => some (.signalled n)
      | _ => some (.exited m.status)
    let pieces := m.pieces.reverse.filterMap fun p => match p.1 with
      | .channel c => some (c, p.2)
      | _ => none
    (status, pieces, m.elapsed, m.fs)
  match findProgram fs folder program args with
  | .error fault => .error fault
  | .ok (.tool "sh") =>
    match args with
    | "-c" :: source :: rest =>
      match parse? source.toList with
      | none => .ok (finish (.next, m.complain "sh: 1: Syntax error" 2))
      | some script =>
        .ok (finish (run stepLimit script
          { m with name := rest.head?.getD "sh", args := rest.drop 1 }))
    | args => .ok (finish (runShell stepLimit args m))
  | .ok (.tool tool) => .ok (finish (runTool 1 tool args m))
  | .ok (.file bytes) =>
    match interpreter? bytes.toList with
    | none => .error .badFormat
    | some words =>
      if isShellLine words then
        match parse? (Text.utf8Shown bytes.toList).toList with
        | none => .ok (finish (.next, m.complain (program ++ ": 1: Syntax error") 2))
        | some script => .ok (finish (run stepLimit script m))
      else
        match toolAt? (words.head?.getD "") with
        | some tool => .ok (finish (runTool 1 tool (words.drop 1 ++ program :: args) m))
        | none => .error (.system .notFound)

end CodeNav.Rehearsal.Shell
