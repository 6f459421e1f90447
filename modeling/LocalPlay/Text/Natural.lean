/-!
# Natural numbers as people type them

Decimal digits, with a plus in front if one likes and as many zeros as one likes.
-/

namespace LocalPlay.Text

/-- The number a text stands for, if it is below `bound`. -/
def natural? (bound : Nat) (text : String) : Option Nat :=
  let digits := if text.toList.head? = some '+' then text.toList.tail else text.toList
  let value := digits.foldl (fun value digit => value * 10 + (digit.toNat - '0'.toNat)) 0
  if digits ≠ [] ∧ digits.all Char.isDigit ∧ value < bound then some value else none

end LocalPlay.Text
