/-
# Numbers in decimal

The text of a number, and the reading of one as an unsigned integer type does
it: an optional plus, at least one digit, nothing else, and a value the type
can hold.
-/
import Mathlib.Data.Nat.Digits.Defs

namespace Decimal

def text (n : ℕ) : List Char := Nat.toDigits 10 n

def parse (bound : ℕ) (t : List Char) : Option ℕ :=
  let ds := if t.head? = some '+' then t.tail else t
  let n := Nat.ofDigitChars 10 ds 0
  if ds ≠ [] ∧ ds.all Char.isDigit ∧ n < bound then some n else none

theorem isDigit_of_mem_text {n : ℕ} {c : Char} (h : c ∈ text n) : c.isDigit :=
  Nat.isDigit_of_mem_toDigits (by decide) (by decide) h

theorem not_mem_text {c : Char} (hc : c.isDigit = false) (n : ℕ) : c ∉ text n := fun h => by
  simp [isDigit_of_mem_text h] at hc

theorem parse_text (bound n : ℕ) : parse bound (text n) = if n < bound then some n else none := by
  have hplus : (text n).head? ≠ some '+' := fun h =>
    not_mem_text (by decide) n (List.mem_of_mem_head? h)
  have hvalue : Nat.ofDigitChars 10 (text n) 0 = n :=
    Nat.ofDigitChars_toDigits (by decide) (by decide)
  have hne : text n ≠ [] := List.length_pos_iff.1 Nat.length_toDigits_pos
  have hall : (text n).all Char.isDigit := List.all_eq_true.2 fun _ => isDigit_of_mem_text
  simp only [parse, if_neg hplus, hvalue, hne, hall, ne_eq, not_false_eq_true, true_and]

end Decimal
