import CodeNav.Rehearsal.Shell.Syntax

/-!
# Reading shell scripts

## Main definitions

* `Shell.parse?`: the script that a text holds
-/

namespace CodeNav.Rehearsal.Shell

/-- Characters that end a word. -/
def isMeta (c : Char) : Bool :=
  c = ' ' || c = '\t' || c = '\n' || c = ';' || c = '&' || c = '|' || c = '<' || c = '>'
    || c = '(' || c = ')'

/-- Characters of names. -/
def isNameChar (c : Char) : Bool := c.isAlphanum || c = '_'

/-- Whether a text is a name. -/
def isName (cs : List Char) : Bool :=
  match cs with
  | [] => false
  | c :: _ => !c.isDigit && cs.all isNameChar

/-- The text after blanks, and after a comment. -/
def dropBlanks : List Char → List Char
  | ' ' :: cs => dropBlanks cs
  | '\t' :: cs => dropBlanks cs
  | '\\' :: '\n' :: cs => dropBlanks cs
  | '#' :: cs => cs.dropWhile (· ≠ '\n')
  | cs => cs

/-- The text after blanks, line ends and comments. -/
def dropLines (fuel : Nat) (cs : List Char) : List Char :=
  match fuel with
  | 0 => cs
  | fuel + 1 =>
    match dropBlanks cs with
    | '\n' :: cs => dropLines fuel cs
    | cs => cs

/-- A text up to the bracket that closes it, and the text after that. -/
def enclosed (depth : Nat) (taken : List Char) : List Char → Option (List Char × List Char)
  | [] => none
  | '(' :: cs => enclosed (depth + 1) ('(' :: taken) cs
  | ')' :: cs =>
    match depth with
    | 0 => some (taken.reverse, cs)
    | depth + 1 => enclosed depth (')' :: taken) cs
  | c :: cs => enclosed depth (c :: taken) cs

/-- A variable in braces: its name and fallback. -/
def braced (cs : List Char) : Option ((String × Option (List Char)) × List Char) :=
  let body := cs.takeWhile (· ≠ '\x7d')
  match cs.drop body.length with
  | [] => none
  | _ :: rest =>
    let name := body.takeWhile isNameChar
    let name := if name = [] then body.take 1 else name
    match body.drop name.length with
    | [] => some ((String.ofList name, none), rest)
    | ':' :: '-' :: fallback => some ((String.ofList name, some fallback), rest)
    | '-' :: fallback => some ((String.ofList name, some fallback), rest)
    | _ => none

/-- What a dollar sign introduces. -/
def dollar (quoted : Bool) (cs : List Char) : Option (Part × List Char) :=
  match cs with
  | '(' :: '(' :: cs => do
    let (source, rest) ← enclosed 0 [] cs
    match rest with
    | ')' :: rest => some (.sum source quoted, rest)
    | _ => none
  | '(' :: cs => do
    let (source, rest) ← enclosed 0 [] cs
    some (.output source quoted, rest)
  | '\x7b' :: cs => do
    let ((name, fallback), rest) ← braced cs
    some (.parameter name fallback quoted, rest)
  | c :: rest =>
    if "$?#*@!-".toList.contains c || c.isDigit then
      some (.parameter (String.ofList [c]) none quoted, rest)
    else if isNameChar c then
      let name := cs.takeWhile isNameChar
      some (.parameter (String.ofList name) none quoted, cs.drop name.length)
    else some (.text ['$'] true, cs)
  | [] => some (.text ['$'] true, [])

/-- The parts up to a closing double quote. -/
def doubleQuoted (fuel : Nat) (cs : List Char) : Option (List Part × List Char) :=
  match fuel with
  | 0 => none
  | fuel + 1 =>
    let add (p : Part) (rest : List Char) : Option (List Part × List Char) :=
      (doubleQuoted fuel rest).map fun (ps, rest) => (p :: ps, rest)
    match cs with
    | [] => none
    | '"' :: rest => some ([], rest)
    | '\\' :: '\n' :: rest => doubleQuoted fuel rest
    | '\\' :: c :: rest =>
      if c = '"' ∨ c = '\\' ∨ c = '$' then add (.text [c] true) rest
      else add (.text ['\\', c] true) rest
    | '$' :: rest => do
      let (p, rest) ← dollar true rest
      add p rest
    | c :: rest => add (.text [c] true) rest

/-- A word; there is none when no part of it is there. -/
def word (fuel : Nat) (cs : List Char) : Option (Word × List Char) :=
  match fuel with
  | 0 => none
  | fuel + 1 =>
    let add (ps : List Part) (rest : List Char) : Option (Word × List Char) :=
      (word fuel rest).map fun (w, rest) => (ps ++ w, rest)
    match cs with
    | [] => some ([], [])
    | '\\' :: '\n' :: rest => word fuel rest
    | '\\' :: c :: rest => add [.text [c] true] rest
    | '\'' :: rest =>
      let text := rest.takeWhile (· ≠ '\'')
      match rest.drop text.length with
      | [] => none
      | _ :: rest => add [.text text true] rest
    | '"' :: rest => do
      let (ps, rest) ← doubleQuoted fuel rest
      add (.text [] true :: ps) rest
    | '`' :: rest =>
      let source := rest.takeWhile (· ≠ '`')
      match rest.drop source.length with
      | [] => none
      | _ :: rest => add [.output source false] rest
    | '$' :: rest => do
      let (p, rest) ← dollar false rest
      add [p] rest
    | c :: rest => if isMeta c then some ([], cs) else add [.text [c] false] rest

/-- The text of a word that holds nothing special. -/
def plain? : Word → Option (List Char)
  | [] => some []
  | .text cs false :: rest => (plain? rest).map (cs ++ ·)
  | _ => none

/-- The name and the value of a word that sets a variable. -/
def setting? (w : Word) : Option (String × Word) :=
  go [] w
where
  /-- Goes on after the characters of a name. -/
  go (name : List Char) : Word → Option (String × Word)
    | .text ['='] false :: rest =>
      if isName name.reverse then some (String.ofList name.reverse, rest) else none
    | .text [c] false :: rest => if isNameChar c then go (c :: name) rest else none
    | _ => none

/-- Words that end a list of commands. -/
def closers : List String := ["then", "fi", "do", "done", "esac", "else", "elif", "\x7d"]

/-- The plain word at the beginning of a text. -/
def leading (cs : List Char) : String :=
  String.ofList (cs.takeWhile fun c => !isMeta c)

/-- Whether a list of commands ends here. -/
def closes (cs : List Char) : Bool :=
  match cs with
  | [] => true
  | ')' :: _ => true
  | ';' :: ';' :: _ => true
  | _ => closers.contains (leading cs)

/-- The text after a certain word. -/
def expect (keyword : String) (fuel : Nat) (cs : List Char) : Option (List Char) :=
  let cs := dropLines fuel cs
  if leading cs = keyword then some (cs.drop keyword.length) else none

/-- A redirection, if one is here. -/
def redirect (fuel : Nat) (cs : List Char) : Option (Redirect × List Char) :=
  let (stream, rest) := match cs with
    | '1' :: '>' :: _ => (1, cs.drop 1)
    | '2' :: '>' :: _ => (2, cs.drop 1)
    | cs => (1, cs)
  let target (rest : List Char) : Option (Word × List Char) := word fuel (dropBlanks rest)
  match rest with
  | '>' :: '&' :: rest => (target rest).map fun (w, rest) => (.copy stream w, rest)
  | '>' :: '>' :: rest => (target rest).map fun (w, rest) => (.file stream true w, rest)
  | '>' :: rest => (target rest).map fun (w, rest) => (.file stream false w, rest)
  | '<' :: rest => (target rest).map fun (w, rest) => (.input w, rest)
  | _ => none

/-- Redirections after a group. -/
def redirects (fuel : Nat) (cs : List Char) : List Redirect × List Char :=
  match fuel with
  | 0 => ([], cs)
  | fuel + 1 =>
    match redirect fuel (dropBlanks cs) with
    | some (r, rest) =>
      let (rs, rest) := redirects fuel rest
      (r :: rs, rest)
    | none => ([], cs)

/-- The words and redirections of a command. -/
def simple (fuel : Nat) (sets : List (String × Word)) (words : List Word) (rs : List Redirect)
    (cs : List Char) : Option ((List (String × Word) × List Word × List Redirect) × List Char) :=
  match fuel with
  | 0 => none
  | fuel + 1 =>
    let cs := dropBlanks cs
    match redirect fuel cs with
    | some (r, rest) => simple fuel sets words (rs ++ [r]) rest
    | none =>
      match word fuel cs with
      | none => none
      | some ([], _) => some ((sets, words, rs), cs)
      | some (w, rest) =>
        match words, setting? w with
        | [], some set => simple fuel (sets ++ [set]) [] rs rest
        | _, _ => simple fuel sets (words ++ [w]) rs rest

/-- The words up to the end of a list of words. -/
def wordList (fuel : Nat) (cs : List Char) : Option (List Word × List Char) :=
  (simple fuel [] [[]] [] cs).map fun ((_, words, _), rest) => (words.drop 1, rest)

/-- The patterns of a branch, up to the bracket after them. -/
def patterns (fuel : Nat) (cs : List Char) : Option (List Word × List Char) :=
  match fuel with
  | 0 => none
  | fuel + 1 =>
    match word fuel (dropBlanks cs) with
    | none => none
    | some (w, rest) =>
      match dropBlanks rest with
      | '|' :: rest => (patterns fuel rest).map fun (ws, rest) => (w :: ws, rest)
      | ')' :: rest => some ([w], rest)
      | _ => none

mutual

/-- A list of commands; `total` is the number of line ends in the whole text. -/
def list (total fuel : Nat) (cs : List Char) : Option (Script × List Char) :=
  match fuel with
  | 0 => none
  | fuel + 1 =>
    let cs := dropLines (fuel + 1) cs
    if closes cs then some (.nothing, cs)
    else do
      let (a, rest) ← andOr total fuel cs
      match dropBlanks rest with
      | ';' :: ';' :: _ => some (a, dropBlanks rest)
      | ';' :: rest => (list total fuel rest).map fun (b, rest) => (.first a b, rest)
      | '&' :: rest => (list total fuel rest).map fun (b, rest) => (.first a b, rest)
      | '\n' :: rest => (list total fuel rest).map fun (b, rest) => (.first a b, rest)
      | rest => if closes rest then some (a, rest) else none

/-- Commands of which the later ones depend on the earlier ones. -/
def andOr (total fuel : Nat) (cs : List Char) : Option (Script × List Char) :=
  match fuel with
  | 0 => none
  | fuel + 1 => do
    let (a, rest) ← pipeline total fuel cs
    chain total fuel a rest

/-- What depends on a command. -/
def chain (total fuel : Nat) (a : Script) (cs : List Char) : Option (Script × List Char) :=
  match fuel with
  | 0 => none
  | fuel + 1 =>
    match dropBlanks cs with
    | '&' :: '&' :: rest => do
      let (b, rest) ← pipeline total fuel (dropLines fuel rest)
      chain total fuel (.both a b) rest
    | '|' :: '|' :: rest => do
      let (b, rest) ← pipeline total fuel (dropLines fuel rest)
      chain total fuel (.either a b) rest
    | rest => some (a, rest)

/-- Commands of which each one reads what the one before it writes. -/
def pipeline (total fuel : Nat) (cs : List Char) : Option (Script × List Char) :=
  match fuel with
  | 0 => none
  | fuel + 1 =>
    let cs := dropBlanks cs
    if leading cs = "!" then
      (pipeline total fuel (cs.drop 1)).map fun (a, rest) => (.negated a, rest)
    else do
      let (a, rest) ← command total fuel cs
      pipes total fuel a rest

/-- What reads the output of a command. -/
def pipes (total fuel : Nat) (a : Script) (cs : List Char) : Option (Script × List Char) :=
  match fuel with
  | 0 => none
  | fuel + 1 =>
    match dropBlanks cs with
    | '|' :: '|' :: rest => some (a, '|' :: '|' :: rest)
    | '|' :: rest => do
      let (b, rest) ← command total fuel (dropLines fuel rest)
      pipes total fuel (.piped a b) rest
    | rest => some (a, rest)

/-- A command. -/
def command (total fuel : Nat) (cs : List Char) : Option (Script × List Char) :=
  match fuel with
  | 0 => none
  | fuel + 1 =>
    let cs := dropBlanks cs
    match cs with
    | '(' :: rest => do
      let (a, rest) ← list total fuel rest
      match rest with
      | ')' :: rest =>
        let (rs, rest) := redirects fuel rest
        some (.grouped a true rs, rest)
      | _ => none
    | _ =>
      match leading cs with
      | "\x7b" => do
        let (a, rest) ← list total fuel (cs.drop 1)
        let rest ← expect "\x7d" fuel rest
        let (rs, rest) := redirects fuel rest
        some (.grouped a false rs, rest)
      | "if" => choiceRest total fuel (cs.drop 2)
      | "while" => loopRest total fuel true (cs.drop 5)
      | "until" => loopRest total fuel false (cs.drop 5)
      | "for" => do
        let (w, rest) ← word fuel (dropBlanks (cs.drop 3))
        let name ← plain? w
        let rest := dropLines fuel rest
        let (words, rest) ← if leading rest = "in" then
            (wordList fuel (rest.drop 2)).map fun (ws, rest) => (some ws, rest)
          else some (none, rest)
        let rest := match dropBlanks rest with
          | ';' :: rest => rest
          | rest => rest
        let rest ← expect "do" fuel rest
        let (body, rest) ← list total fuel rest
        let rest ← expect "done" fuel rest
        let (rs, rest) := redirects fuel rest
        some (.grouped (.each (String.ofList name) words body) false rs, rest)
      | "case" => do
        let (subject, rest) ← word fuel (dropBlanks (cs.drop 4))
        let rest ← expect "in" fuel rest
        let (bs, rest) ← branches total fuel rest
        some (.cases subject bs, rest)
      | _ => do
        let ((sets, words, rs), rest) ← simple fuel [] [] [] cs
        let line := total - (cs.count '\n') + 1
        if sets.isEmpty && words.isEmpty && rs.isEmpty then none
        else some (.command sets words rs line, rest)

/-- A choice after its first word. -/
def choiceRest (total fuel : Nat) (cs : List Char) : Option (Script × List Char) :=
  match fuel with
  | 0 => none
  | fuel + 1 => do
    let (condition, rest) ← list total fuel cs
    let rest ← expect "then" fuel rest
    let (positive, rest) ← list total fuel rest
    let rest := dropLines fuel rest
    match leading rest with
    | "fi" => some (.choice condition positive .nothing, rest.drop 2)
    | "elif" =>
      (choiceRest total fuel (rest.drop 4)).map fun (negative, rest) =>
        (.choice condition positive negative, rest)
    | "else" => do
      let (negative, rest) ← list total fuel (rest.drop 4)
      let rest ← expect "fi" fuel rest
      some (.choice condition positive negative, rest)
    | _ => none

/-- A repetition after its first word. -/
def loopRest (total fuel : Nat) (wanted : Bool) (cs : List Char) : Option (Script × List Char) :=
  match fuel with
  | 0 => none
  | fuel + 1 => do
    let (condition, rest) ← list total fuel cs
    let rest ← expect "do" fuel rest
    let (body, rest) ← list total fuel rest
    let rest ← expect "done" fuel rest
    let (rs, rest) := redirects fuel rest
    some (.grouped (.repeated wanted condition body) false rs, rest)

/-- The branches of a distinction, up to its last word. -/
def branches (total fuel : Nat) (cs : List Char) :
    Option (List (List Word × Script) × List Char) :=
  match fuel with
  | 0 => none
  | fuel + 1 =>
    let cs := dropLines (fuel + 1) cs
    if leading cs = "esac" then some ([], cs.drop 4)
    else do
      let cs := match cs with
        | '(' :: cs => cs
        | cs => cs
      let (ps, rest) ← patterns fuel cs
      let (body, rest) ← list total fuel rest
      match dropLines fuel rest with
      | ';' :: ';' :: rest => do
        let (bs, rest) ← branches total fuel rest
        some ((ps, body) :: bs, rest)
      | rest => do
        let rest ← expect "esac" fuel rest
        some ([(ps, body)], rest)

end

/-- The script that a text holds. -/
def parse? (cs : List Char) : Option Script :=
  match list (cs.count '\n') (20 * cs.length + 20) cs with
  | some (s, rest) => if dropLines (cs.length + 1) rest = [] then some s else none
  | none => none

end CodeNav.Rehearsal.Shell
