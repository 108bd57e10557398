import Mathlib.Algebra.Ring.Nat
import TypedCql.Json.Number
import TypedCql.Timestamp.Text

/-!
# Decimal digits read back

Numbers are written as their decimal digits, and with zeros in front of them up to a width in dates
and times. Both have the value that they were written for, and a reader of digits takes all of them
and no more.
-/

namespace TypedCql

/-! ## The value of digits -/

theorem Json.digitsValue_eq (digits : List Char) :
    Json.digitsValue digits = Nat.ofDigitChars 10 digits 0 := by
  unfold Json.digitsValue Nat.ofDigitChars
  congr 1
  funext n c
  rw [Nat.mul_comm]

/-- Dates and documents give digits the same value. -/
theorem Timestamp.digitsValue_eq (digits : List Char) :
    Timestamp.digitsValue digits = Nat.ofDigitChars 10 digits 0 :=
  Json.digitsValue_eq digits

theorem Json.digitsValue_toDigits (n : Nat) : Json.digitsValue (Nat.toDigits 10 n) = n := by
  rw [Json.digitsValue_eq, Nat.ofDigitChars_ten_toDigits]

/-! ## Runs of digits -/

/-- Nothing but decimal digits. -/
def AllDigits (cs : List Char) : Prop := ∀ c ∈ cs, c.isDigit = true

theorem allDigits_toDigits (n : Nat) : AllDigits (Nat.toDigits 10 n) :=
  fun _ hc => Nat.isDigit_of_mem_toDigits (by decide) (Nat.le_refl 10) hc

theorem AllDigits.isDigit_head {digits rest left : List Char} {c : Char} (h : AllDigits digits)
    (hne : digits ≠ []) (heq : digits ++ rest = c :: left) : c.isDigit = true := by
  cases digits with
  | nil => exact absurd rfl hne
  | cons d ds =>
      obtain rfl : d = c := (List.cons.inj heq).1
      exact h d (List.mem_cons_self ..)

/-- The text does not begin with a digit. -/
def NoDigitFirst (cs : List Char) : Prop := ∀ c ∈ cs.head?, c.isDigit = false

theorem takeWhile_digits {digits rest : List Char} (h : AllDigits digits) (hrest : NoDigitFirst rest) :
    (digits ++ rest).takeWhile Char.isDigit = digits := by
  rw [List.takeWhile_append_of_pos h]
  cases rest with
  | nil => simp
  | cons c rest =>
      have hc : c.isDigit = false := hrest c rfl
      rw [List.takeWhile_cons_of_neg (by simp [hc]), List.append_nil]

theorem dropWhile_digits {digits rest : List Char} (h : AllDigits digits) (hrest : NoDigitFirst rest) :
    (digits ++ rest).dropWhile Char.isDigit = rest := by
  rw [List.dropWhile_append_of_pos h]
  cases rest with
  | nil => rfl
  | cons c rest =>
      have hc : c.isDigit = false := hrest c rfl
      rw [List.dropWhile_cons_of_neg (by simp [hc])]

theorem AllDigits.takeWhile_eq {digits : List Char} (h : AllDigits digits) :
    digits.takeWhile Char.isDigit = digits := by
  have hnil : NoDigitFirst [] := by simp [NoDigitFirst]
  simpa using takeWhile_digits h hnil

theorem AllDigits.dropWhile_eq {digits : List Char} (h : AllDigits digits) :
    digits.dropWhile Char.isDigit = [] := by
  have hnil : NoDigitFirst [] := by simp [NoDigitFirst]
  simpa using dropWhile_digits h hnil

/-- Only zero is written with a zero in front. -/
theorem head?_toDigits {n : Nat} (h : 0 < n) : (Nat.toDigits 10 n).head? ≠ some '0' := by
  induction n using Nat.strongRecOn with
  | ind n ih =>
      rw [Nat.toDigits_eq_if (by decide)]
      split
      · next hlt =>
          have hdigit : ∀ k < 10, 0 < k → Nat.digitChar k ≠ '0' := by decide
          simpa using hdigit n hlt h
      · next hge =>
          have hfirst := ih (n / 10) (by omega) (by omega)
          cases hdigits : Nat.toDigits 10 (n / 10) with
          | nil => exact absurd hdigits Nat.toDigits_ne_nil
          | cons c cs =>
              rw [hdigits] at hfirst
              exact hfirst

/-! ## Padded numbers -/

namespace Timestamp

theorem toList_padded (width n : Nat) :
    (padded width n).toList =
      List.replicate (width - (Nat.toDigits 10 n).length) '0' ++ Nat.toDigits 10 n := by
  rw [padded, String.toList_ofList]

theorem allDigits_padded (width n : Nat) : AllDigits (padded width n).toList := by
  intro c hc
  rw [toList_padded, List.mem_append, List.mem_replicate] at hc
  rcases hc with ⟨-, rfl⟩ | hc
  · decide
  · exact allDigits_toDigits n c hc

theorem digitsValue_padded (width n : Nat) : digitsValue (padded width n).toList = n := by
  rw [digitsValue_eq, toList_padded, Nat.ofDigitChars_append, Nat.ofDigitChars_replicate_zero,
    Nat.mul_zero, Nat.ofDigitChars_ten_toDigits]

/-- A number of at most that many digits takes up the whole width, and no more. -/
theorem length_padded {width n : Nat} (hwidth : 0 < width) (h : n < 10 ^ width) :
    (padded width n).toList.length = width := by
  have hlength : (Nat.toDigits 10 n).length ≤ width :=
    (Nat.length_toDigits_le_iff (by decide) hwidth).mpr h
  rw [toList_padded, List.length_append, List.length_replicate]
  omega

theorem padded_ne_nil (width n : Nat) : (padded width n).toList ≠ [] := by
  rw [toList_padded]
  exact List.append_ne_nil_of_right_ne_nil _ Nat.toDigits_ne_nil

end Timestamp

end TypedCql
