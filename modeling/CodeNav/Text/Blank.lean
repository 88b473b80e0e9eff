/-!
# Blank characters and trimming

A character is *blank* when it has the Unicode property `White_Space`. Trimming removes blank
characters at the ends of a text and nothing else; every other module trims through this one, so
that "surrounding white space" means one thing in the whole library.

## Main definitions

* `isBlank`: the property, as a table of ranges
* `trimStart`, `trimEnd`, `trim`: on lists of characters
* `trimmed`: on strings
-/

namespace CodeNav.Text

/-- The code points with the property `White_Space`, as inclusive ranges in increasing order. -/
def blankRanges : List (Nat × Nat) :=
  [(0x09, 0x0D), (0x20, 0x20), (0x85, 0x85), (0xA0, 0xA0), (0x1680, 0x1680), (0x2000, 0x200A),
    (0x2028, 0x2029), (0x202F, 0x202F), (0x205F, 0x205F), (0x3000, 0x3000)]

/-- Whether a character is white space. -/
def isBlank (c : Char) : Bool :=
  blankRanges.any fun r => r.1 ≤ c.toNat && c.toNat ≤ r.2

/-- The text without its leading blank characters. -/
def trimStart (cs : List Char) : List Char :=
  cs.dropWhile isBlank

/-- The text without its trailing blank characters. -/
def trimEnd (cs : List Char) : List Char :=
  (cs.reverse.dropWhile isBlank).reverse

/-- The text without blank characters at either end. -/
def trim (cs : List Char) : List Char :=
  trimEnd (trimStart cs)

/-- The string without blank characters at either end. -/
def trimmed (s : String) : String :=
  String.ofList (trim s.toList)

/-- The string without trailing blank characters. -/
def trimmedEnd (s : String) : String :=
  String.ofList (trimEnd s.toList)

/-- Whether nothing is left of the string after trimming. -/
def isBlankText (s : String) : Bool :=
  s.toList.all isBlank

end CodeNav.Text
