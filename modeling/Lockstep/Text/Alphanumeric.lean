import Lockstep.Text.AlphanumericTable
import Lockstep.Text.NumeralTable

/-!
# Letters and numbers

Which characters are letters or numbers, in any script.
-/

namespace Lockstep.Text

/-- Whether a character is a letter or a number. -/
def isAlphanumeric (c : Char) : Bool :=
  alphanumericRanges.any fun (first,last) => first ≤ c.toNat && c.toNat ≤ last

/-- Whether a character is a number and no letter. -/
def isNumeral (c : Char) : Bool :=
  numeralRanges.any fun (first,last) => first ≤ c.toNat && c.toNat ≤ last

/-- Whether a character is a letter. -/
def isLetter (c : Char) : Bool := isAlphanumeric c && !isNumeral c

end Lockstep.Text
