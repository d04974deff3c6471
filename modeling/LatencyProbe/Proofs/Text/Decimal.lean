import LatencyProbe.Text.Decimal
import Mathlib

/-!
# Decimals are read back

The text of a whole number is the library's own, so the library reads it back, and no two numbers
have one text. It holds nothing but digits and a minus, so any other character can stand between two
decimals and tell where the first one ends.
-/

namespace LatencyProbe.Text

theorem ofInt_eq_repr (n : Int) : ofInt n = n.repr := by
  cases n with
  | ofNat n => rfl
  | negSucc n =>
      apply String.toList_injective
      simp [decimal, Int.repr, Nat.repr_eq_ofList_toDigits]

@[simp] theorem toInt?_ofInt (n : Int) : (ofInt n).toInt? = some n := by
  rw [ofInt_eq_repr, Int.toInt?_repr]

@[simp] theorem toNat?_ofInt_natCast (n : Nat) : (ofInt n).toNat? = some n := by
  rw [ofInt_eq_repr]
  exact Nat.toNat?_repr n

theorem ofInt_injective : Function.Injective ofInt := by
  intro m n h
  have hread := congrArg String.toInt? h
  rwa [toInt?_ofInt, toInt?_ofInt, Option.some_inj] at hread

theorem decimal_injective : Function.Injective decimal := by
  intro m n h
  exact ofInt_injective (congrArg String.ofList h)

theorem eq_minus_or_isDigit_of_mem_decimal {n : Int} {c : Char} (h : c ∈ decimal n) :
    c = '-' ∨ c.isDigit := by
  have hdigits {m : Nat} (hc : c ∈ Nat.toDigits 10 m) : c.isDigit :=
    Nat.isDigit_of_mem_toDigits (by decide) (by decide) hc
  cases n with
  | ofNat n => exact .inr (hdigits h)
  | negSucc n => exact (List.mem_cons.mp h).imp_right hdigits

theorem notMem_decimal {c : Char} (hminus : c ≠ '-') (hdigit : c.isDigit = false) (n : Int) :
    c ∉ decimal n := by
  intro h
  rcases eq_minus_or_isDigit_of_mem_decimal h with hc | hc
  · exact hminus hc
  · rw [hdigit] at hc
    cases hc

end LatencyProbe.Text
