import Mathlib.Algebra.Group.Nat.Defs
import Mathlib.Data.List.Basic

/-!
# Numbers with a fixed width

The digits of a number behind as many zeros as fill a width, and the number that they spell.
-/

namespace BasicNext.Lib

/-- The digits of a number, behind zeros up to a width. -/
def paddedDigits (base width n : Nat) : List Char :=
  let digits := Nat.toDigits base n
  List.replicate (width - digits.length) '0' ++ digits

/-- The decimal digits of a number up to a width, with its sign. -/
def zeroPadded (width : Nat) (n : Int) : List Char :=
  if n < 0 then '-' :: paddedDigits 10 (width - 1) n.natAbs else paddedDigits 10 width n.natAbs

variable {base width n : Nat}

theorem length_paddedDigits (big : 1 < base) (some : 0 < width) (fits : n < base ^ width) :
    (paddedDigits base width n).length = width := by
  have short := (Nat.length_toDigits_le_iff big some).2 fits
  simp only [paddedDigits, List.length_append, List.length_replicate]
  omega

theorem paddedDigits_succ (big : 1 < base) :
    paddedDigits base (width + 2) n = paddedDigits base (width + 1) (n / base) ++ [Nat.digitChar (n % base)] := by
  unfold paddedDigits
  by_cases small : n < base
  · rw [Nat.toDigits_of_lt_base small, Nat.div_eq_of_lt small, Nat.mod_eq_of_lt small, Nat.toDigits_zero]
    simp [List.replicate_succ']
  · rw [Nat.toDigits_of_base_le big (by omega)]
    simp

theorem paddedDigits_one (small : n < base) : paddedDigits base 1 n = [Nat.digitChar n] := by
  simp [paddedDigits, Nat.toDigits_of_lt_base small]

theorem isDigit_paddedDigits {c : Char} (member : c ∈ paddedDigits 10 width n) : c.isDigit = true := by
  simp only [paddedDigits, List.mem_append, List.mem_replicate] at member
  rcases member with ⟨-, rfl⟩ | digit
  · decide
  · exact Nat.isDigit_of_mem_toDigits (by omega) (by omega) digit

theorem ofDigitChars_paddedDigits : Nat.ofDigitChars 10 (paddedDigits 10 width n) 0 = n := by
  simp [paddedDigits, Nat.ofDigitChars_append]

end BasicNext.Lib
