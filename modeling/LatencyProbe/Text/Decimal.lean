/-!
# Whole numbers in decimal

A whole number is written with the digits of its absolute value, and a minus in front of a negative
one. Nothing else is written, so the text says which number it is.
-/

namespace LatencyProbe.Text

/-- The decimal digits of a whole number, a minus in front if it is negative. -/
def decimal : Int → List Char
  | .ofNat n => Nat.toDigits 10 n
  | .negSucc n => '-' :: Nat.toDigits 10 (n + 1)

@[simp] theorem decimal_natCast (n : Nat) : decimal n = Nat.toDigits 10 n := rfl

/-- The decimal text of a whole number. -/
def ofInt (n : Int) : String := String.ofList (decimal n)

@[simp] theorem toList_ofInt (n : Int) : (ofInt n).toList = decimal n := String.toList_ofList

end LatencyProbe.Text
