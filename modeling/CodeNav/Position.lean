import CodeNav.Text.Split
import CodeNav.Width

/-!
# Places in a document

A position is a line, counted from zero, and a column in UTF-16 units. A code page shows tokens
without their leading blanks and dots, so a column reported for such a token is moved to the right
by the number of characters that the page left out.

## Main definitions

* `Position`: line and column
* `leadingSkip`: how many characters the page leaves out
* `Position.ofPage`: the position that a place on a page stands for
* `excerpt`: some lines of a document
-/

namespace CodeNav

/-- The largest line or column. -/
def maxCoordinate : Nat := wordValues 32 - 1

/-- A line and a column, both counted from zero. -/
structure Position where
  line : Nat
  character : Nat
  deriving DecidableEq, Inhabited

/-- The number of spaces and dots at the beginning of a token. -/
def leadingSkip (token : String) : Nat :=
  (token.toList.takeWhile fun c => c = ' ' || c = '.').length

/-- The position of a token that a page shows at `line` and `character`. A column never grows
beyond the largest one. -/
def Position.ofPage (line character : Nat) (token : String) : Position :=
  ⟨line, min (character + leadingSkip token) maxCoordinate⟩

/-- A line without its carriage return. -/
def withoutReturn (line : List Char) : List Char :=
  Text.stripSuffix ['\r'] line

/-- At most `count` lines of a text from line `start` on, without carriage returns. -/
def excerpt (content : String) (start count : Nat) : String :=
  let lines := ((Text.splitOn '\n' content.toList).drop start).take count
  String.ofList (Text.joinWith '\n' (lines.map withoutReturn))

end CodeNav
