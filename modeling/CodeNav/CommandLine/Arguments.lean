import CodeNav.Path
import CodeNav.Text.Split

/-!
# The command line

The program serves the browser unless a command says otherwise. Options may stand before and after
the command; the later place counts. A browser that starts the program adds arguments of its own,
which say nothing.

## Main definitions

* `CommandLine.Grammar`, `CommandLine.scan`: words that stand on one level of the command line
* `CommandLine.Verb`, `CommandLine.Arguments`: what is asked for
* `CommandLine.parse`: the arguments of the words on a command line
-/

namespace CodeNav.CommandLine

/-- Why nothing is asked for. -/
inductive Stop where
  /-- The words make no sense. -/
  | wrong
  | help
  | version
  deriving DecidableEq, Inhabited

/-- What may stand on one level of a command line. -/
structure Grammar where
  /-- Options with a value that may be empty. -/
  texts : List String
  /-- Options with a path. -/
  paths : List String
  flags : List String
  /-- How many plain words there may be, when they are limited. -/
  plain : Option Nat
  commands : List String
  knowsVersion : Bool

/-- What stands on one level of a command line. -/
structure Level where
  values : List (String × String)
  flags : List String
  plain : List String
  /-- The command that follows, with the words after it. -/
  command : Option (String × List String)
  deriving DecidableEq, Inhabited

namespace Level

/-- Nothing yet. -/
def empty : Level := ⟨[], [], [], none⟩

/-- The level with the value of an option, which may be given once. -/
def addValue (g : Grammar) (name value : String) (l : Level) : Except Stop Level :=
  if (l.values.lookup name).isSome ∨ (g.paths.contains name ∧ value = "") then .error .wrong
  else .ok { l with values := l.values ++ [(name, value)] }

/-- The level with a flag, which may be given once. -/
def addFlag (name : String) (l : Level) : Except Stop Level :=
  if l.flags.contains name then .error .wrong else .ok { l with flags := l.flags ++ [name] }

/-- The level with a plain word. -/
def addPlain (g : Grammar) (word : String) (l : Level) : Except Stop Level :=
  if g.plain.any (· ≤ l.plain.length) then .error .wrong
  else .ok { l with plain := l.plain ++ [word] }

end Level

/-- Whether a word can be the value of the option before it. -/
def isValue (word : String) : Bool :=
  word = "-" || word.toList.head? ≠ some '-'

/-- Whether an option wants a value. -/
def Grammar.wantsValue (g : Grammar) (name : String) : Bool :=
  g.texts.contains name || g.paths.contains name

/-- The level with an option that has no value. -/
def addOption (g : Grammar) (name : String) (l : Level) : Except Stop Level :=
  if g.flags.contains name then l.addFlag name
  else if name = "help" then .error .help
  else if name = "version" ∧ g.knowsVersion then .error .version
  else .error .wrong

/-- What a word with a single dash asks for. -/
def shortOption (g : Grammar) (c : Char) : Stop :=
  if c = 'h' then .help else if c = 'V' ∧ g.knowsVersion then .version else .wrong

/-- Reads words. After two dashes all words are plain. A plain word that may be followed by more of
them keeps the next word from being a command. -/
def scan (g : Grammar) (onlyPlain afterPlain : Bool) (l : Level) :
    List String → Except Stop Level
  | [] => .ok l
  | word :: rest =>
    if onlyPlain then
      match l.addPlain g word with
      | .ok l => scan g true afterPlain l rest
      | .error e => .error e
    else if !afterPlain && g.commands.contains word then .ok { l with command := some (word, rest) }
    else
      match word.toList with
      | ['-', '-'] => scan g true false l rest
      | '-' :: '-' :: option =>
        match Text.splitOnce ['='] option with
        | some (name, value) =>
          if g.wantsValue (String.ofList name) then
            match l.addValue g (String.ofList name) (String.ofList value) with
            | .ok l => scan g false false l rest
            | .error e => .error e
          else .error .wrong
        | none =>
          let name := String.ofList option
          if g.wantsValue name then
            match rest with
            | [] => .error .wrong
            | value :: rest =>
              if isValue value then
                match l.addValue g name value with
                | .ok l => scan g false false l rest
                | .error e => .error e
              else .error .wrong
          else
            match addOption g name l with
            | .ok l => scan g false false l rest
            | .error e => .error e
      | '-' :: c :: _ => .error (shortOption g c)
      | _ =>
        match l.addPlain g word with
        | .ok l => scan g false g.plain.isNone l rest
        | .error e => .error e

/-- Options that may stand on every level. -/
def sharedPaths : List String := ["config", "checkout-root"]

/-- The words before a command. -/
def outerGrammar : Grammar :=
  ⟨["parent-window"], sharedPaths, [], none, ["serve", "sync", "doctor", "help"], true⟩

/-- The words after a command that takes none. -/
def bareGrammar : Grammar := ⟨[], sharedPaths, [], some 0, [], false⟩

/-- The words after the command that synchronizes. -/
def syncGrammar : Grammar := ⟨["token"], sharedPaths, ["force"], some 1, [], false⟩

/-- What the program is asked to do. -/
inductive Verb where
  | serve
  | sync (url : String) (force : Bool) (token : Option String)
  | doctor
  deriving DecidableEq, Inhabited

/-- What is asked for. -/
structure Arguments where
  config : Option Path
  checkoutRoot : Option Path
  verb : Verb
  deriving DecidableEq, Inhabited

/-- The variable that names the checkout root. -/
def rootVariable : String := "SOURCELENS_CHECKOUT_ROOT"

/-- The variable that holds the access token. -/
def tokenVariable : String := "SOURCELENS_ACCESS_TOKEN"

/-- The value of an option on levels of which the last one counts. -/
def valueOn (levels : List Level) (name : String) : Option String :=
  (levels.reverse.filterMap fun l => l.values.lookup name).head?

/-- The arguments on levels. A checkout root that is nothing may not be in the environment, unless all
levels say something else. -/
def assemble (env : List (String × String)) (levels : List Level) (verb : Verb) :
    Except Stop Arguments :=
  let fromEnv := env.lookup rootVariable
  if fromEnv = some "" ∧ levels.any fun l => (l.values.lookup "checkout-root").isNone then
    .error .wrong
  else
    .ok
      { config := (valueOn levels "config").map Path.mk
        checkoutRoot := ((valueOn levels "checkout-root").orElse fun _ => fromEnv).map Path.mk
        verb := verb }

/-- What is asked for when help is. -/
def helpStop : List String → Stop
  | [] => .help
  | [name] => if outerGrammar.commands.contains name then .help else .wrong
  | _ => .wrong

/-- The arguments of the words on a command line. -/
def parse (env : List (String × String)) (words : List String) : Except Stop Arguments := do
  let outer ← scan outerGrammar false false .empty words
  match outer.command with
  | none => assemble env [outer] .serve
  | some ("help", rest) => .error (helpStop rest)
  | some ("sync", rest) =>
    let inner ← scan syncGrammar false false .empty rest
    match inner.plain with
    | [url] =>
      let token := (inner.values.lookup "token").orElse fun _ => env.lookup tokenVariable
      assemble env [outer, inner] (.sync url (inner.flags.contains "force") token)
    | _ => .error .wrong
  | some (name, rest) =>
    let inner ← scan bareGrammar false false .empty rest
    assemble env [outer, inner] (if name = "doctor" then .doctor else .serve)

end CodeNav.CommandLine
