/-!
# Widths of whole numbers

Whole numbers are unbounded here; where a format gives them a width, the bound is stated with
`wordValues`.

## Main definitions

* `wordValues`: how many values a word of so many bits has
* `Signed64`: the integers of 64 bits with a sign
-/

namespace CodeNav

/-- How many values a word of `bits` bits has. -/
def wordValues (bits : Nat) : Nat := Nat.pow 2 bits

/-- The integer fits in 64 bits with a sign. -/
def Signed64 (i : Int) : Prop := -(wordValues 63 : Int) ≤ i ∧ i < wordValues 63

instance (i : Int) : Decidable (Signed64 i) := inferInstanceAs (Decidable (_ ∧ _))

end CodeNav
