/-!
# Letters of ASCII

Host names and file suffixes are compared without regard to the case of ASCII letters; letters
outside ASCII are never changed.

## Main definitions

* `lowerAscii`: a letter in lower case
* `sameLetters`: whether two texts differ at most in case
-/

namespace CodeNav.Text

/-- An ASCII letter in lower case; other characters stay. -/
def lowerAscii (c : Char) : Char :=
  if 'A' ≤ c ∧ c ≤ 'Z' then Char.ofNat (c.toNat + 32) else c

/-- Whether two texts differ at most in the case of ASCII letters. -/
def sameLetters (s t : String) : Bool :=
  s.toList.map lowerAscii = t.toList.map lowerAscii

end CodeNav.Text
