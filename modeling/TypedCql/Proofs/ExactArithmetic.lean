import Mathlib.Algebra.Ring.Int.Defs
import Mathlib.Algebra.Ring.Nat
import TypedCql.Proofs.Counters

/-!
# Exact arithmetic

Sums, differences, products, quotients and remainders of integers are the ones of mathematics,
or there is an error. Which number an operator should give is a matter of numbers alone
(`BinaryOp.Gives`), and whether the operands' type has it a matter of values
(`Value.IsInteger`); `integers_exact` puts the two together. One remainder is missing, that of the
least wide integer by `-1`, because the quotient that belongs to it is too large.

An evaluator on a machine does not calculate with unbounded numbers: it calculates in the wide type,
with a flag for results that are too large, and narrows what it gets. `integerArithmetic_eq_narrow`
says that this comes to the same, so nothing is lost on the way for narrow operands.
-/

namespace TypedCql

/-! ## Numbers -/

/-- The quotient and the remainder of a division that truncates toward zero: together they make up
the dividend, and the remainder is smaller than the divisor and has the sign of the dividend. -/
structure Truncates (a b q r : Int) : Prop where
  dividend : b * q + r = a
  smaller : r.natAbs < b.natAbs
  sign : r = 0 ∨ r.sign = a.sign

theorem truncates_iff {a b q r : Int} :
    Truncates a b q r ↔ b ≠ 0 ∧ q = a.tdiv b ∧ r = a.tmod b := by
  constructor
  · rintro ⟨hdividend, hsmaller, hsign⟩
    have hb : b ≠ 0 := by omega
    have hsum : r + b * q = a := by omega
    -- The quotient is unique for each sign of the dividend, which the remainder has as well.
    rcases Int.le_total 0 a with ha | ha
    · have hr : 0 ≤ r := by
        rcases hsign with rfl | hsign
        · exact Int.le_refl 0
        · exact Int.sign_nonneg_iff.mp (hsign ▸ Int.sign_nonneg_iff.mpr ha)
      obtain ⟨hq, hr⟩ := (Int.tdiv_tmod_unique ha hb).mpr ⟨hsum, hr, by omega⟩
      exact ⟨hb, hq.symm, hr.symm⟩
    · have hr : r ≤ 0 := by
        rcases hsign with rfl | hsign
        · exact Int.le_refl 0
        · exact Int.sign_nonpos_iff.mp (hsign ▸ Int.sign_nonpos_iff.mpr ha)
      obtain ⟨hq, hr⟩ := (Int.tdiv_tmod_unique' ha hb).mpr ⟨hsum, by omega, hr⟩
      exact ⟨hb, hq.symm, hr.symm⟩
  · rintro ⟨hb, rfl, rfl⟩
    refine ⟨Int.mul_tdiv_add_tmod a b, ?_, ?_⟩
    · rw [Int.natAbs_tmod]
      exact Nat.mod_lt _ (Int.natAbs_pos.mpr hb)
    · rw [Int.sign_tmod]
      split
      · next hdvd => exact .inl (Int.tmod_eq_zero_of_dvd hdvd)
      · exact .inr rfl

namespace BinaryOp

def isArithmetic : BinaryOp → Bool
  | .add | .sub | .mul | .div | .rem => true
  | _ => false

/-- The number that an arithmetical operator makes of two. By zero nothing can be divided. -/
def Gives (op : BinaryOp) (a b n : Int) : Prop :=
  match op with
  | .add => n = a + b
  | .sub => n = a - b
  | .mul => n = a * b
  | .div => ∃ r, Truncates a b n r
  | .rem => ∃ q, Truncates a b q n
  | _ => False

/-- The operator divides by the second number, and this is zero. -/
def DividesByZero (op : BinaryOp) (b : Int) : Prop := (op = .div ∨ op = .rem) ∧ b = 0

/-- The one remainder that is an integer of its type and not given. -/
def Withholds (op : BinaryOp) (a b : Int) : Prop :=
  op = .rem ∧ a = Int64.minValue.toInt ∧ b = -1

theorem gives_div_iff {a b n : Int} : Gives .div a b n ↔ b ≠ 0 ∧ n = a.tdiv b := by
  simp [Gives, truncates_iff]

theorem gives_rem_iff {a b n : Int} : Gives .rem a b n ↔ b ≠ 0 ∧ n = a.tmod b := by
  simp [Gives, truncates_iff]

/-- An arithmetical operator makes one number of two, unless it divides by zero. -/
theorem existsUnique_gives {op : BinaryOp} (hop : op.isArithmetic = true) {a b : Int}
    (hb : ¬op.DividesByZero b) : ∃! n, op.Gives a b n := by
  cases op with
  | add | sub | mul => exact existsUnique_eq
  | div =>
      have hne : b ≠ 0 := fun h => hb ⟨.inl rfl, h⟩
      exact ⟨a.tdiv b, gives_div_iff.mpr ⟨hne, rfl⟩, fun n hn => (gives_div_iff.mp hn).2⟩
  | rem =>
      have hne : b ≠ 0 := fun h => hb ⟨.inr rfl, h⟩
      exact ⟨a.tmod b, gives_rem_iff.mpr ⟨hne, rfl⟩, fun n hn => (gives_rem_iff.mp hn).2⟩
  | _ => exact nomatch hop

theorem not_gives_of_dividesByZero {op : BinaryOp} {a b n : Int} (hb : op.DividesByZero b) :
    ¬op.Gives a b n := by
  obtain ⟨rfl | rfl, rfl⟩ := hb
  · exact fun h => (gives_div_iff.mp h).1 rfl
  · exact fun h => (gives_rem_iff.mp h).1 rfl

end BinaryOp

namespace Value

open BinaryOp

/-! ## Values -/

/-- The value is this number as an integer of the wide or the narrow type. -/
def IsInteger (v : Value) (wide : Bool) (n : Int) : Prop :=
  match v with
  | .int i => wide = false ∧ i.toInt = n
  | .bigint i => wide = true ∧ i.toInt = n
  | _ => False

end Value

/-- What an arithmetical operator should come to on two integers, the wider of them of this type:
the number it gives, as an integer of that type. -/
structure BinaryOp.ExactOn (op : BinaryOp) (wide : Bool) (a b : Int) (o : Outcome Value) :
    Prop where
  value : ∀ v, o = .ok v ↔ ∃ n, op.Gives a b n ∧ v.IsInteger wide n ∧ ¬op.Withholds a b
  /-- Every number that is not given is an overflow. -/
  overflow : o = .error (.evaluation .overflow) ↔
    ∃ n, op.Gives a b n ∧ ((¬∃ v : Value, v.IsInteger wide n) ∨ op.Withholds a b)
  divisionByZero : o = .error (.evaluation .divisionByZero) ↔ op.DividesByZero b
  number : ¬op.DividesByZero b → ∃! n, op.Gives a b n

namespace Value

open BinaryOp

variable {u v : Value} {wide : Bool} {a b n : Int} {op : BinaryOp}

theorem isInteger_narrow_iff : v.IsInteger false n ↔ ∃ i, v = .int i ∧ i.toInt = n := by
  cases v <;> simp [IsInteger]

theorem isInteger_wide_iff : v.IsInteger true n ↔ ∃ i, v = .bigint i ∧ i.toInt = n := by
  cases v <;> simp [IsInteger]

/-- A type has exactly the integers between its bounds. -/
theorem exists_isInteger_iff :
    (∃ v : Value, v.IsInteger wide n) ↔
      if wide then -2 ^ 63 ≤ n ∧ n < 2 ^ 63 else -2 ^ 31 ≤ n ∧ n < 2 ^ 31 := by
  cases wide with
  | true =>
      simp only [isInteger_wide_iff, if_true]
      constructor
      · rintro ⟨-, i, -, rfl⟩
        exact ⟨i.le_toInt, i.toInt_lt⟩
      · rintro ⟨hlow, hhigh⟩
        exact ⟨_, _, rfl, Int64.toInt_ofInt_of_le hlow hhigh⟩
  | false =>
      simp only [isInteger_narrow_iff, Bool.false_eq_true, if_false]
      constructor
      · rintro ⟨-, i, -, rfl⟩
        exact ⟨i.le_toInt, i.toInt_lt⟩
      · rintro ⟨hlow, hhigh⟩
        exact ⟨_, _, rfl, Int32.toInt_ofInt_of_le hlow hhigh⟩

theorem ofInteger_eq_ok_iff : ofInteger wide n = .ok v ↔ v.IsInteger wide n := by
  unfold ofInteger
  rw [Int64.toInt_minValue, Int64.toInt_maxValue, Int32.toInt_minValue, Int32.toInt_maxValue]
  cases wide with
  | true =>
      rw [if_pos rfl, isInteger_wide_iff]
      constructor
      · intro h
        split at h
        · next hbounds =>
            exact ⟨_, (Except.ok.inj h).symm, Int64.toInt_ofInt_of_le hbounds.1 (by omega)⟩
        · exact nomatch h
      · rintro ⟨i, rfl, rfl⟩
        rw [if_pos ⟨i.le_toInt, Int.le_sub_one_of_lt i.toInt_lt⟩, Int64.ofInt_toInt]
  | false =>
      rw [if_neg Bool.false_ne_true, isInteger_narrow_iff]
      constructor
      · intro h
        split at h
        · next hbounds =>
            exact ⟨_, (Except.ok.inj h).symm, Int32.toInt_ofInt_of_le hbounds.1 (by omega)⟩
        · exact nomatch h
      · rintro ⟨i, rfl, rfl⟩
        rw [if_pos ⟨i.le_toInt, Int.le_sub_one_of_lt i.toInt_lt⟩, Int32.ofInt_toInt]

theorem eq_overflow_of_ofInteger {err : Error} (h : ofInteger wide n = .error err) :
    err = .evaluation .overflow := by
  unfold ofInteger at h
  split at h
  · split at h
    · exact nomatch h
    · exact (Except.error.inj h).symm
  · split at h
    · exact nomatch h
    · exact (Except.error.inj h).symm

/-- A number of no integer is an overflow, and the only kind of one. -/
theorem ofInteger_eq_error_iff {err : Error} :
    ofInteger wide n = .error err ↔
      err = .evaluation .overflow ∧ ¬∃ v : Value, v.IsInteger wide n := by
  constructor
  · intro h
    refine ⟨eq_overflow_of_ofInteger h, ?_⟩
    rintro ⟨v, hv⟩
    exact nomatch (ofInteger_eq_ok_iff.mpr hv).symm.trans h
  · rintro ⟨rfl, hnone⟩
    cases h : ofInteger wide n with
    | ok v => exact absurd ⟨v, ofInteger_eq_ok_iff.mp h⟩ hnone
    | error err => rw [eq_overflow_of_ofInteger h]

theorem exactResult?_of_gives (h : op.Gives a b n) :
    (op.Withholds a b → exactResult? op a b = none) ∧
      (¬op.Withholds a b → exactResult? op a b = some n) := by
  cases op with
  | add | sub | mul => exact ⟨fun hw => (nomatch hw.1), fun _ => congrArg some h.symm⟩
  | div =>
      exact ⟨fun hw => (nomatch hw.1), fun _ => congrArg some (gives_div_iff.mp h).2.symm⟩
  | rem =>
      refine ⟨fun hw => if_pos hw.2, fun hw => ?_⟩
      exact (if_neg fun hbounds => hw ⟨rfl, hbounds⟩).trans
        (congrArg some (gives_rem_iff.mp h).2.symm)
  | _ => exact h.elim

theorem integerArithmetic_of_dividesByZero (hb : op.DividesByZero b) :
    integerArithmetic op wide a b = .error (.evaluation .divisionByZero) := if_pos hb

theorem integerArithmetic_of_withholds (hn : op.Gives a b n) (hw : op.Withholds a b) :
    integerArithmetic op wide a b = .error (.evaluation .overflow) := by
  have hb : ¬op.DividesByZero b := fun hb => not_gives_of_dividesByZero hb hn
  refine (if_neg hb).trans ?_
  rw [(exactResult?_of_gives hn).1 hw]

theorem integerArithmetic_of_gives (hn : op.Gives a b n) (hw : ¬op.Withholds a b) :
    integerArithmetic op wide a b = ofInteger wide n := by
  have hb : ¬op.DividesByZero b := fun hb => not_gives_of_dividesByZero hb hn
  refine (if_neg hb).trans ?_
  rw [(exactResult?_of_gives hn).2 hw]

/-- **Calculating with numbers is exact.** -/
theorem integerArithmetic_exact (hop : op.isArithmetic = true) (wide : Bool) (a b : Int) :
    op.ExactOn wide a b (integerArithmetic op wide a b) := by
  by_cases hzero : op.DividesByZero b
  · have hgives (n : Int) : ¬op.Gives a b n := not_gives_of_dividesByZero hzero
    rw [integerArithmetic_of_dividesByZero hzero]
    refine ⟨fun v => ⟨fun h => (nomatch h), ?_⟩, ⟨fun h => (nomatch h), ?_⟩,
      iff_of_true rfl hzero, fun h => absurd hzero h⟩
    · rintro ⟨n, hn, -⟩
      exact absurd hn (hgives n)
    · rintro ⟨n, hn, -⟩
      exact absurd hn (hgives n)
  · obtain ⟨n, hn, hunique⟩ := existsUnique_gives hop hzero (a := a)
    by_cases hw : op.Withholds a b
    · rw [integerArithmetic_of_withholds hn hw]
      exact ⟨fun v => ⟨fun h => (nomatch h), fun ⟨_, _, _, h⟩ => absurd hw h⟩,
        iff_of_true rfl ⟨n, hn, .inr hw⟩, ⟨fun h => (nomatch h), fun h => absurd h hzero⟩,
        existsUnique_gives hop⟩
    · rw [integerArithmetic_of_gives hn hw]
      refine ⟨fun v => ?_, ?_, ⟨fun h => ?_, fun h => absurd h hzero⟩, existsUnique_gives hop⟩
      · rw [ofInteger_eq_ok_iff]
        constructor
        · exact fun hv => ⟨n, hn, hv, hw⟩
        · rintro ⟨n', hn', hv, -⟩
          exact hunique n' hn' ▸ hv
      · rw [ofInteger_eq_error_iff]
        constructor
        · exact fun ⟨_, hnone⟩ => ⟨n, hn, .inl hnone⟩
        · rintro ⟨n', hn', hnone | hw'⟩
          · exact ⟨rfl, hunique n' hn' ▸ hnone⟩
          · exact absurd hw' hw
      · exact nomatch eq_overflow_of_ofInteger h

/-! ## Words -/

/-- The operation of the wide type; none if its result is too large for that type. -/
def checked? (op : BinaryOp) (x y : Int64) : Option Int64 :=
  match op with
  | .add => if x.toBitVec.saddOverflow y.toBitVec then none else some (x + y)
  | .sub => if x.toBitVec.ssubOverflow y.toBitVec then none else some (x - y)
  | .mul => if x.toBitVec.smulOverflow y.toBitVec then none else some (x * y)
  | .div => if x = Int64.minValue ∧ y = -1 then none else some (x / y)
  | .rem => if x = Int64.minValue ∧ y = -1 then none else some (x % y)
  | _ => none

/-- A wide result where the type of the operands is that or the narrow one. -/
def narrow (wide : Bool) (z : Int64) : Outcome Value :=
  if wide then .ok (.bigint z)
  else if z.toInt32.toInt64 = z then .ok (.int z.toInt32)
  else .error (.evaluation .overflow)

theorem narrow_eq_ok_iff {z : Int64} : narrow wide z = .ok v ↔ v.IsInteger wide z.toInt := by
  unfold narrow
  cases wide with
  | true =>
      rw [if_pos rfl, isInteger_wide_iff]
      simp [Int64.toInt_inj, eq_comm]
  | false =>
      rw [if_neg Bool.false_ne_true, isInteger_narrow_iff]
      constructor
      · intro h
        split at h
        · next hz =>
            refine ⟨_, (Except.ok.inj h).symm, ?_⟩
            rw [← Int32.toInt_toInt64, hz]
        · exact nomatch h
      · rintro ⟨i, rfl, hi⟩
        have hz : i.toInt64 = z := Int64.toInt_inj.mp ((Int32.toInt_toInt64 i).trans hi)
        subst hz
        simp

theorem eq_overflow_of_narrow {z : Int64} {err : Error} (h : narrow wide z = .error err) :
    err = .evaluation .overflow := by
  unfold narrow at h
  split at h
  · exact nomatch h
  · split at h
    · exact nomatch h
    · exact (Except.error.inj h).symm

/-- The flag tells whether the word is the exact number. -/
theorem flagged_eq_some_iff {flag : Prop} [Decidable flag] {w z : Int64}
    (hw : w.toInt = n.bmod (2 ^ 64)) (hflag : flag ↔ n < -2 ^ 63 ∨ 2 ^ 63 ≤ n) :
    (if flag then none else some w) = some z ↔ z.toInt = n := by
  have hlow := z.le_toInt
  have hhigh := z.toInt_lt
  by_cases h : flag
  · rw [if_pos h]
    exact ⟨fun h => (nomatch h), fun hz => by have := hflag.mp h; omega⟩
  · have hbounds := mt hflag.mpr h
    have hexact : n.bmod (2 ^ 64) = n := Int.bmod_eq_of_le (by omega) (by omega)
    rw [if_neg h, Option.some.injEq, ← Int64.toInt_inj, hw, hexact]
    exact eq_comm

/-- Of all quotients only one is too large. -/
theorem quotient_tooLarge_iff {x y : Int64} (hy : y.toInt ≠ 0) :
    (x.toInt = Int64.minValue.toInt ∧ y.toInt = -1) ↔
      x.toInt.tdiv y.toInt < -2 ^ 63 ∨ 2 ^ 63 ≤ x.toInt.tdiv y.toInt := by
  have hlow := x.le_toInt
  have hhigh := x.toInt_lt
  rw [Int64.toInt_minValue]
  by_cases hopposite : y.toInt = -1
  · rw [hopposite, Int.tdiv_neg, Int.tdiv_one]
    omega
  · by_cases hsame : y.toInt = 1
    · rw [hsame, Int.tdiv_one]
      omega
    · -- By anything else the dividend is at least halved.
      have hhalf : (x.toInt.tdiv y.toInt).natAbs ≤ x.toInt.natAbs / 2 := by
        rw [Int.natAbs_tdiv]
        exact Nat.div_le_div_left (by omega) (by omega)
      omega

theorem checked?_eq_some_iff {x y z : Int64} (hop : op.isArithmetic = true)
    (hy : ¬op.DividesByZero y.toInt) :
    checked? op x y = some z ↔
      op.Gives x.toInt y.toInt z.toInt ∧ ¬op.Withholds x.toInt y.toInt := by
  have hleast : (x = Int64.minValue ∧ y = -1) ↔ x.toInt = Int64.minValue.toInt ∧ y.toInt = -1 :=
    and_congr Int64.toInt_inj.symm (by rw [← Int64.toInt_inj]; rfl)
  cases op with
  | add =>
      have hflag : x.toBitVec.saddOverflow y.toBitVec = true ↔
          x.toInt + y.toInt < -2 ^ 63 ∨ 2 ^ 63 ≤ x.toInt + y.toInt := by
        simp only [BitVec.saddOverflow, Bool.or_eq_true, decide_eq_true_eq, Int64.toInt_toBitVec]
        omega
      simp [Withholds, Gives, checked?, flagged_eq_some_iff (Int64.toInt_add x y) hflag]
  | sub =>
      have hflag : x.toBitVec.ssubOverflow y.toBitVec = true ↔
          x.toInt - y.toInt < -2 ^ 63 ∨ 2 ^ 63 ≤ x.toInt - y.toInt := by
        simp only [BitVec.ssubOverflow, Bool.or_eq_true, decide_eq_true_eq, Int64.toInt_toBitVec]
        omega
      simp [Withholds, Gives, checked?, flagged_eq_some_iff (Int64.toInt_sub x y) hflag]
  | mul =>
      have hflag : x.toBitVec.smulOverflow y.toBitVec = true ↔
          x.toInt * y.toInt < -2 ^ 63 ∨ 2 ^ 63 ≤ x.toInt * y.toInt := by
        simp only [BitVec.smulOverflow, Bool.or_eq_true, decide_eq_true_eq, Int64.toInt_toBitVec]
        omega
      simp [Withholds, Gives, checked?, flagged_eq_some_iff (Int64.toInt_mul x y) hflag]
  | div =>
      have hne : y.toInt ≠ 0 := fun h => hy ⟨.inl rfl, h⟩
      have hflag := hleast.trans (quotient_tooLarge_iff hne)
      simp [Withholds, gives_div_iff, hne, checked?,
        flagged_eq_some_iff (Int64.toInt_div x y) hflag]
  | rem =>
      have hne : y.toInt ≠ 0 := fun h => hy ⟨.inr rfl, h⟩
      simp only [Withholds, gives_rem_iff, checked?, Option.ite_none_left_eq_some,
        Option.some.injEq, ← Int64.toInt_inj, Int64.toInt_mod]
      simp [hne, eq_comm, and_comm]
  | _ => exact nomatch hop

theorem ofInteger_toInt (wide : Bool) (z : Int64) : ofInteger wide z.toInt = narrow wide z := by
  cases h : narrow wide z with
  | ok v => exact ofInteger_eq_ok_iff.mpr (narrow_eq_ok_iff.mp h)
  | error err =>
      refine ofInteger_eq_error_iff.mpr ⟨eq_overflow_of_narrow h, ?_⟩
      rintro ⟨v, hv⟩
      exact nomatch h.symm.trans (narrow_eq_ok_iff.mpr hv)

theorem IsInteger.exists_word (h : v.IsInteger wide n) : ∃ z : Int64, z.toInt = n := by
  cases wide with
  | true =>
      obtain ⟨i, -, hi⟩ := isInteger_wide_iff.mp h
      exact ⟨i, hi⟩
  | false =>
      obtain ⟨i, -, hi⟩ := isInteger_narrow_iff.mp h
      exact ⟨i.toInt64, (Int32.toInt_toInt64 i).trans hi⟩

/-- **Words suffice.** To calculate in the wide type, stop if the result is too large for it, and
narrow the result otherwise, comes to the same as to calculate with numbers. -/
theorem integerArithmetic_eq_narrow (hop : op.isArithmetic = true) (wide : Bool) {x y : Int64}
    (hy : ¬op.DividesByZero y.toInt) :
    integerArithmetic op wide x.toInt y.toInt =
      (checked? op x y).elim (.error (.evaluation .overflow)) (narrow wide) := by
  cases hchecked : checked? op x y with
  | some z =>
      obtain ⟨hz, hw⟩ := (checked?_eq_some_iff hop hy).mp hchecked
      rw [integerArithmetic_of_gives hz hw]
      exact ofInteger_toInt wide z
  | none =>
      obtain ⟨n, hn, -⟩ := existsUnique_gives hop hy (a := x.toInt)
      by_cases hw : op.Withholds x.toInt y.toInt
      · exact integerArithmetic_of_withholds hn hw
      · rw [integerArithmetic_of_gives hn hw]
        refine ofInteger_eq_error_iff.mpr ⟨rfl, ?_⟩
        rintro ⟨v, hv⟩
        obtain ⟨z, rfl⟩ := hv.exists_word
        exact nomatch hchecked.symm.trans ((checked?_eq_some_iff hop hy).mpr ⟨hn, hw⟩)

/-- Nothing that is made of two narrow integers is too large for the wide type. -/
theorem checked?_isSome_of_narrow (hop : op.isArithmetic = true) {i j : Int32}
    (hj : ¬op.DividesByZero j.toInt) : (checked? op i.toInt64 j.toInt64).isSome = true := by
  have hdividend := And.intro i.le_toInt i.toInt_lt
  have hdivisor := And.intro j.le_toInt j.toInt_lt
  rw [← Int32.toInt_toInt64] at hj hdivisor
  rw [← Int32.toInt_toInt64 i] at hdividend
  obtain ⟨n, hn, -⟩ := existsUnique_gives hop hj (a := i.toInt64.toInt)
  -- The largest of the results is the square of the least narrow integer.
  have hbound : n.natAbs ≤ 2 ^ 62 := by
    cases op with
    | add | sub =>
        have hn : n = _ := hn
        omega
    | mul =>
        have hn : n = i.toInt64.toInt * j.toInt64.toInt := hn
        have hleft : i.toInt64.toInt.natAbs ≤ 2 ^ 31 := by omega
        have hright : j.toInt64.toInt.natAbs ≤ 2 ^ 31 := by omega
        rw [hn, Int.natAbs_mul]
        exact Nat.le_trans (Nat.mul_le_mul hleft hright) (by decide)
    | div =>
        have hquotient := Int.natAbs_tdiv_le_natAbs i.toInt64.toInt j.toInt64.toInt
        rw [← (gives_div_iff.mp hn).2] at hquotient
        omega
    | rem =>
        have hremainder := Int.natAbs_tmod i.toInt64.toInt j.toInt64.toInt
        have hle := Nat.mod_le i.toInt64.toInt.natAbs j.toInt64.toInt.natAbs
        rw [← (gives_rem_iff.mp hn).2] at hremainder
        omega
    | _ => exact nomatch hop
  have hw : ¬op.Withholds i.toInt64.toInt j.toInt64.toInt := by
    rintro ⟨-, hleast, -⟩
    rw [Int64.toInt_minValue] at hleast
    omega
  have hz : (Int64.ofInt n).toInt = n := Int64.toInt_ofInt_of_le (by omega) (by omega)
  rw [← hz] at hn
  exact Option.isSome_iff_exists.mpr ⟨_, (checked?_eq_some_iff hop hj).mpr ⟨hn, hw⟩⟩

/-! ## Operators -/

theorem IsInteger.number? (h : v.IsInteger wide n) :
    ∃ i, v.number? = some (.integer i wide) ∧ i.toInt = n := by
  cases wide with
  | true =>
      obtain ⟨i, rfl, hi⟩ := isInteger_wide_iff.mp h
      exact ⟨i, rfl, hi⟩
  | false =>
      obtain ⟨i, rfl, hi⟩ := isInteger_narrow_iff.mp h
      exact ⟨i.toInt64, rfl, (Int32.toInt_toInt64 i).trans hi⟩

theorem binary_of_integers {wideL wideR : Bool} (hop : op.isArithmetic = true)
    (hu : u.IsInteger wideL a) (hv : v.IsInteger wideR b) :
    binary op u v = integerArithmetic op (wideL || wideR) a b := by
  obtain ⟨i, hi, rfl⟩ := hu.number?
  obtain ⟨j, hj, rfl⟩ := hv.number?
  have hcalculate : calculate op u v = arithmetic op (.integer i wideL) (.integer j wideR) :=
    calculate_of_numbers hi hj
  cases op with
  | add | sub | mul | div | rem => exact hcalculate
  | _ => exact nomatch hop

theorem negate_of_integer (hu : u.IsInteger wide a) :
    unary .negate u = ofInteger wide (-a) := by
  cases wide with
  | true =>
      obtain ⟨i, rfl, rfl⟩ := isInteger_wide_iff.mp hu
      rfl
  | false =>
      obtain ⟨i, rfl, rfl⟩ := isInteger_narrow_iff.mp hu
      rfl

/-- Only the least integers have no opposite. -/
theorem opposite_exists_iff (hu : u.IsInteger wide a) :
    (∃ v : Value, v.IsInteger wide (-a)) ↔
      u ≠ .int Int32.minValue ∧ u ≠ .bigint Int64.minValue := by
  rw [exists_isInteger_iff]
  cases wide with
  | true =>
      obtain ⟨i, rfl, rfl⟩ := isInteger_wide_iff.mp hu
      have hlow := i.le_toInt
      have hhigh := i.toInt_lt
      rw [if_pos rfl]
      simp only [ne_eq, reduceCtorEq, not_false_eq_true, true_and, Value.bigint.injEq,
        ← Int64.toInt_inj, Int64.toInt_minValue]
      omega
  | false =>
      obtain ⟨i, rfl, rfl⟩ := isInteger_narrow_iff.mp hu
      have hlow := i.le_toInt
      have hhigh := i.toInt_lt
      rw [if_neg Bool.false_ne_true]
      simp only [ne_eq, reduceCtorEq, not_false_eq_true, and_true, Value.int.injEq,
        ← Int32.toInt_inj, Int32.toInt_minValue]
      omega

end Value

namespace Expr

/-- **Arithmetic on integers is exact.** -/
theorem integers_exact {l r : Expr} {u v : Value} {wideL wideR : Bool} {a b : Int}
    (hl : l.evaluate = .ok u) (hr : r.evaluate = .ok v) (hu : u.IsInteger wideL a)
    (hv : v.IsInteger wideR b) :
    (∀ op : BinaryOp, op.isArithmetic = true →
      op.ExactOn (wideL || wideR) a b (binary op l r).evaluate) ∧
    (∀ w, (unary .negate l).evaluate = .ok w ↔ w.IsInteger wideL (-a)) ∧
    (∀ err, (unary .negate l).evaluate = .error err ↔
      err = .evaluation .overflow ∧ (u = .int Int32.minValue ∨ u = .bigint Int64.minValue)) ∧
    Error.message (.evaluation .overflow) = "Evaluation error: integer overflow" ∧
    Error.message (.evaluation .divisionByZero) = "Evaluation error: division by zero" := by
  have hnegated : (unary .negate l).evaluate = Value.ofInteger wideL (-a) := by
    rw [← Value.negate_of_integer hu]
    exact congrArg (· >>= Value.unary .negate) hl
  refine ⟨fun op hop => ?_, fun w => ?_, fun err => ?_, rfl, rfl⟩
  · have hbinary : (binary op l r).evaluate = Value.integerArithmetic op (wideL || wideR) a b := by
      rw [← Value.binary_of_integers hop hu hv]
      show (l.evaluate >>= fun u => r.evaluate >>= Value.binary op u) = _
      rw [hl, hr]
      rfl
    rw [hbinary]
    exact Value.integerArithmetic_exact hop _ a b
  · rw [hnegated, Value.ofInteger_eq_ok_iff]
  · rw [hnegated, Value.ofInteger_eq_error_iff, Value.opposite_exists_iff hu, not_and_or,
      not_not, not_not]

/-- The least wide integer and the narrow integer `-1`. Their difference is exact; their quotient,
and the opposite of the first, are too large; and their remainder is the one that is withheld. -/
theorem integers_exact_least :
    let least : Expr := .constant (.bigint Int64.minValue)
    let minusOne : Expr := .unary .negate (.constant (.int 1))
    least.evaluate = .ok (.bigint Int64.minValue) ∧ minusOne.evaluate = .ok (.int (-1)) ∧
      (Value.bigint Int64.minValue).IsInteger true (-9223372036854775808) ∧
      (Value.int (-1)).IsInteger false (-1) ∧
      (binary .sub least minusOne).evaluate = .ok (.bigint (-9223372036854775807)) ∧
      (binary .div least minusOne).evaluate = .error (.evaluation .overflow) ∧
      (binary .rem least minusOne).evaluate = .error (.evaluation .overflow) ∧
      (unary .negate least).evaluate = .error (.evaluation .overflow) := by
  intro least minusOne
  have hleast : (Value.bigint Int64.minValue).IsInteger true (-9223372036854775808) := ⟨rfl, rfl⟩
  have hminusOne : (Value.int (-1)).IsInteger false (-1) := ⟨rfl, rfl⟩
  obtain ⟨hbinary, -, hnegated, -⟩ :=
    integers_exact (l := least) (r := minusOne) rfl rfl hleast hminusOne
  refine ⟨rfl, rfl, hleast, hminusOne, ?_, ?_, ?_, ?_⟩
  · exact ((hbinary .sub rfl).value _).mpr ⟨_, rfl, ⟨rfl, rfl⟩, fun h => (nomatch h.1)⟩
  · refine (hbinary .div rfl).overflow.mpr
      ⟨_, BinaryOp.gives_div_iff.mpr ⟨by decide, rfl⟩, .inl ?_⟩
    rw [Value.exists_isInteger_iff]
    decide
  · exact (hbinary .rem rfl).overflow.mpr
      ⟨_, BinaryOp.gives_rem_iff.mpr ⟨by decide, rfl⟩, .inr ⟨rfl, rfl, rfl⟩⟩
  · exact (hnegated _).mpr ⟨rfl, .inr rfl⟩

end Expr

end TypedCql
