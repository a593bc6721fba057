/-!
The whole numbers that 64 bits hold.
-/

namespace PolicyWarden.Number

/-- How many numbers there are; without a sign they are those below. -/
def wordCount : Nat := 18446744073709551616

/-- With a sign the numbers are those below in magnitude, and the negative of this one. -/
def signedLimit : Nat := 9223372036854775808

def fitsSigned (value : Int) : Bool :=
  -(signedLimit : Int) ≤ value && value < signedLimit

example : wordCount = 2 * signedLimit := rfl

example : fitsSigned 9223372036854775807 = true := rfl

example : fitsSigned 9223372036854775808 = false := rfl

example : fitsSigned (-9223372036854775808) = true := rfl

end PolicyWarden.Number
