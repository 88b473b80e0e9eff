/-!
# Splitting, joining and replacing

Operations that cut a text at separators. A split keeps empty pieces, so that joining the pieces
with the same separator gives the text back.

## Main definitions

* `splitOn`, `joinWith`: cutting at a character and its inverse
* `splitOnce`: the text before and after the first occurrence of a pattern
* `replaceAll`: every occurrence of a pattern, from the left and without overlap
* `occurs`: whether a pattern occurs at all
* `stripSuffix`: one ending removed

## Main statements

* `joinWith_splitOn`: joining undoes splitting
* `splitOn_ne_nil`: there is always at least one piece
-/

namespace CodeNav.Text

/-- The pieces of a text between occurrences of `sep`, empty pieces included. -/
def splitOn (sep : Char) : List Char → List (List Char)
  | [] => [[]]
  | c :: cs =>
    if c = sep then [] :: splitOn sep cs
    else
      match splitOn sep cs with
      | [] => [[c]]
      | p :: ps => (c :: p) :: ps

/-- The pieces written one after the other with `sep` between them. -/
def joinWith (sep : Char) : List (List Char) → List Char
  | [] => []
  | [p] => p
  | p :: q :: ps => p ++ sep :: joinWith sep (q :: ps)

/-- A split has at least one piece. -/
theorem splitOn_ne_nil (sep : Char) (cs : List Char) : splitOn sep cs ≠ [] := by
  cases cs with
  | nil => simp [splitOn]
  | cons c cs =>
    simp only [splitOn]
    split
    · simp
    · split <;> simp

/-- Joining the pieces of a split gives the text back. -/
theorem joinWith_splitOn (sep : Char) (cs : List Char) :
    joinWith sep (splitOn sep cs) = cs := by
  induction cs with
  | nil => rfl
  | cons c cs ih =>
    simp only [splitOn]
    cases hs : splitOn sep cs with
    | nil => exact absurd hs (splitOn_ne_nil sep cs)
    | cons p ps =>
      rw [hs] at ih
      by_cases hc : c = sep
      · simp [hc, joinWith, ih]
      · cases ps with
        | nil => simpa [hc, joinWith] using ih
        | cons q qs => simpa [hc, joinWith] using ih

/-- The rest of a text after `pat`, when the text begins with it. -/
def dropLead? : List Char → List Char → Option (List Char)
  | [], cs => some cs
  | _ :: _, [] => none
  | p :: ps, c :: cs => if p = c then dropLead? ps cs else none

/-- The text before and the text after the first occurrence of `pat`. -/
def splitOnce (pat : List Char) : List Char → Option (List Char × List Char)
  | [] => (dropLead? pat []).map fun rest => ([], rest)
  | c :: cs =>
    match dropLead? pat (c :: cs) with
    | some rest => some ([], rest)
    | none => (splitOnce pat cs).map fun (before, after) => (c :: before, after)

/-- Whether `pat` occurs in a text. -/
def occurs (pat cs : List Char) : Bool :=
  (splitOnce pat cs).isSome

/-- A text from which the first `skip` characters are left out and in which every later occurrence
of `pat`, found from the left and without overlap, is replaced by `new`. -/
def replaceFrom (pat new : List Char) : Nat → List Char → List Char
  | _, [] => []
  | skip + 1, _ :: cs => replaceFrom pat new skip cs
  | 0, c :: cs =>
    if (dropLead? pat (c :: cs)).isSome then new ++ replaceFrom pat new (pat.length - 1) cs
    else c :: replaceFrom pat new 0 cs

/-- Every occurrence of `pat` replaced by `new`. An empty pattern replaces nothing. -/
def replaceAll (pat new cs : List Char) : List Char :=
  if pat.isEmpty then cs else replaceFrom pat new 0 cs

/-- The text without `ending` when it ends with it, and the text itself otherwise. -/
def stripSuffix (ending cs : List Char) : List Char :=
  match dropLead? ending.reverse cs.reverse with
  | some rest => rest.reverse
  | none => cs

/-- Whether a string occurs in another. -/
def occursIn (pat s : String) : Bool :=
  occurs pat.toList s.toList

/-- The pieces of a string between occurrences of a character. -/
def pieces (sep : Char) (s : String) : List String :=
  (splitOn sep s.toList).map String.ofList

/-- Every occurrence of one string in another replaced by a third. -/
def replaced (pat new s : String) : String :=
  String.ofList (replaceAll pat.toList new.toList s.toList)

end CodeNav.Text
