/-!
# Shell scripts

The part of the shell's language that rehearsals need.

## Main definitions

* `Shell.Part`, `Shell.Word`: words, with what is put in for variables, sums and outputs
* `Shell.Script`: commands and how they are combined
-/

namespace CodeNav.Rehearsal.Shell

/-- A part of a word. Only parts that are not quoted are split into fields. -/
inductive Part where
  | text (chars : List Char) (quoted : Bool)
  /-- The value of a variable, or the fallback when there is none. -/
  | parameter (name : String) (fallback : Option (List Char)) (quoted : Bool)
  /-- The value of a sum. -/
  | sum (source : List Char) (quoted : Bool)
  /-- What a script writes. -/
  | output (source : List Char) (quoted : Bool)
  deriving Inhabited

/-- A word. -/
abbrev Word := List Part

/-- Where a stream is led. -/
inductive Redirect where
  | file (stream : Nat) (append : Bool) (target : Word)
  | copy (stream : Nat) (source : Word)
  | input (source : Word)
  deriving Inhabited

/-- A script. -/
inductive Script where
  | nothing
  /-- A command: variables that are set, words and redirections, and the number of its line. -/
  | command (sets : List (String × Word)) (words : List Word) (redirects : List Redirect)
      (line : Nat)
  | first (a : Script) (b : Script)
  | both (a : Script) (b : Script)
  | either (a : Script) (b : Script)
  | negated (a : Script)
  | piped (a : Script) (b : Script)
  | grouped (a : Script) (apart : Bool) (redirects : List Redirect)
  | choice (condition : Script) (positive : Script) (negative : Script)
  /-- Repeats while the condition succeeds, or until it does. -/
  | repeated (wanted : Bool) (condition : Script) (body : Script)
  /-- Repeats for each of the words, or for the arguments. -/
  | each (name : String) (words : Option (List Word)) (body : Script)
  | cases (subject : Word) (branches : List (List Word × Script))
  deriving Inhabited

end CodeNav.Rehearsal.Shell
