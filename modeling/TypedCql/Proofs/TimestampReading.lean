import TypedCql.Proofs.Calendar
import TypedCql.Proofs.Digits
import TypedCql.Proofs.TypeGrammar

/-!
# Instants read back from their text

Each part of the text of an instant is read by its own reader, which takes that part and leaves the
rest: the digits of a number fill the width that their reader looks at, and the fraction has as many
groups as the nanoseconds need. Together they give the instant back (`ofText?_text`), before 1970 and
in leap seconds as well.
-/

namespace TypedCql

namespace Timestamp

/-- The instants there are: their years are covered, and only the last second of a minute is followed
by a leap second, which counts on in the nanoseconds. -/
structure IsInstant (t : Timestamp) : Prop where
  covered : covers (CalendarDate.ofDays (t.seconds / 86400)).year = true
  nanos : t.nanos < 1000000000 ∨ t.nanos < 2000000000 ∧ t.seconds % 60 = 59

instance (t : Timestamp) : Decidable t.IsInstant :=
  decidable_of_iff (covers (CalendarDate.ofDays (t.seconds / 86400)).year = true ∧
    (t.nanos < 1000000000 ∨ t.nanos < 2000000000 ∧ t.seconds % 60 = 59))
    ⟨fun h => ⟨h.1, h.2⟩, fun h => ⟨h.covered, h.nanos⟩⟩

/-! ## Parts of the text -/

theorem isBlank_of_isDigit {c : Char} (h : c.isDigit = true) : Text.isBlank c = false := by
  have hlow : 48 ≤ c.toNat := (Char.isDigit_iff_toNat.mp h).1
  have hhigh : c.toNat ≤ 57 := (Char.isDigit_iff_toNat.mp h).2
  simp only [Text.isBlank, Text.blanks, Text.CharSet.contains]
  rw [if_neg (by omega), if_neg (by omega), if_neg (by omega), if_neg (by omega), if_pos (by omega)]

theorem trimStart_cons {c : Char} (h : Text.isBlank c = false) (rest : List Char) :
    Text.trimStart (c :: rest) = c :: rest := by
  apply Text.trimStart_eq
  intro d hd
  obtain rfl : c = d := by simpa using hd
  exact h

theorem trimStart_digits {digits : List Char} (h : AllDigits digits) (hne : digits ≠ [])
    (rest : List Char) : Text.trimStart (digits ++ rest) = digits ++ rest := by
  cases digits with
  | nil => exact absurd rfl hne
  | cons c cs => exact trimStart_cons (isBlank_of_isDigit (h c (List.mem_cons_self ..))) _

theorem readMark_cons (mark : Char) (h : Text.isBlank mark = false) (rest : List Char) :
    readMark mark (mark :: rest) = some rest := by
  simp [readMark, trimStart_cons h]

/-- A number that fills its width. -/
theorem readNumber_padded (width : Nat) {n : Nat} (hwidth : 0 < width) (h : n < 10 ^ width)
    (rest : List Char) :
    readNumber width ((padded width n).toList ++ rest) = some (n, rest) := by
  have hlength := length_padded hwidth h
  have hdigits := (allDigits_padded width n).takeWhile_eq
  simp only [readNumber, trimStart_digits (allDigits_padded width n) (padded_ne_nil width n),
    List.take_left' hlength, hdigits, List.isEmpty_iff, padded_ne_nil, if_false, digitsValue_padded,
    List.drop_left]

/-- A number of two digits behind its mark. -/
theorem readMark_readNumber {mark : Char} (hmark : Text.isBlank mark = false) {n : Nat}
    (h : n < 100) (rest : List Char) (next : Nat × List Char → Option α) :
    ((readMark mark (mark :: ((padded 2 n).toList ++ rest))).bind fun cs =>
      (readNumber 2 cs).bind next) = next (n, rest) := by
  rw [readMark_cons mark hmark, Option.bind_some, readNumber_padded 2 (by decide) h,
    Option.bind_some]

/-- A sign takes all the digits behind it. -/
theorem readDigits_padded (width n : Nat) {rest : List Char} (h : NoDigitFirst rest) :
    let digits := ((padded width n).toList ++ rest).takeWhile Char.isDigit
    digits.isEmpty = false ∧ digitsValue digits = n ∧
      ((padded width n).toList ++ rest).drop digits.length = rest := by
  intro digits
  have hdigits : digits = (padded width n).toList := takeWhile_digits (allDigits_padded width n) h
  rw [hdigits]
  refine ⟨?_, digitsValue_padded width n, List.drop_left⟩
  rw [List.isEmpty_eq_false_iff]
  exact padded_ne_nil width n

theorem readYear_text (year : Int) {rest : List Char} (h : NoDigitFirst rest) :
    readYear ((yearText year).toList ++ rest) = some (year, rest) := by
  obtain ⟨hne, hvalue, hrest⟩ := readDigits_padded 4 year.natAbs h
  unfold yearText
  by_cases hfour : 0 ≤ year ∧ year ≤ 9999
  · have hnumber := readNumber_padded 4 (n := year.toNat) (by decide) (by omega) rest
    have hdigits := allDigits_padded 4 year.toNat
    rw [if_pos hfour, readYear, trimStart_digits hdigits (padded_ne_nil _ _)]
    split
    · next heq =>
        have hdigit := hdigits.isDigit_head (padded_ne_nil _ _) heq
        exact absurd hdigit (by decide)
    · next heq =>
        have hdigit := hdigits.isDigit_head (padded_ne_nil _ _) heq
        exact absurd hdigit (by decide)
    · rw [hnumber, Option.map_some]
      simp only [Int.toNat_of_nonneg hfour.1]
  · rw [if_neg hfour]
    by_cases hneg : year < 0
    · have hvalue' : -(year.natAbs : Int) = year := by omega
      have hsign : "-".toList = ['-'] := by decide
      rw [if_pos hneg, String.toList_append, hsign, List.append_assoc, List.cons_append,
        List.nil_append, readYear, trimStart_cons (by decide)]
      simp only [hne, hvalue, hrest, hvalue', Bool.false_eq_true, if_false]
    · have hvalue' : (year.natAbs : Int) = year := by omega
      have hsign : "+".toList = ['+'] := by decide
      rw [if_neg hneg, String.toList_append, hsign, List.append_assoc, List.cons_append,
        List.nil_append, readYear, trimStart_cons (by decide)]
      simp only [hne, hvalue, hrest, hvalue', Bool.false_eq_true, if_false]

theorem readFraction_padded {width n : Nat} (hwidth : 0 < width) (hmost : width ≤ 9)
    (h : n < 10 ^ width) {rest : List Char} (hrest : NoDigitFirst rest) :
    readFraction (("." ++ padded width n).toList ++ rest) = some (n * 10 ^ (9 - width), rest) := by
  have hpoint : ".".toList = ['.'] := by decide
  have hlength := length_padded hwidth h
  have hdigits := takeWhile_digits (allDigits_padded width n) hrest
  rw [String.toList_append, hpoint]
  simp only [List.cons_append, List.nil_append, readFraction, hdigits, List.isEmpty_iff,
    padded_ne_nil, if_false, List.take_of_length_le (hlength ▸ hmost), digitsValue_padded, hlength,
    Nat.pow_eq, List.drop_left' hlength]

theorem readFraction_text {nanos : Nat} (h : nanos < 1000000000) {rest : List Char}
    (hrest : NoDigitFirst rest) (hpoint : rest.head? ≠ some '.') :
    readFraction ((fractionText nanos).toList ++ rest) = some (nanos, rest) := by
  unfold fractionText
  by_cases hzero : nanos = 0
  · rw [if_pos hzero, hzero, String.toList_empty, List.nil_append]
    unfold readFraction
    split
    · exact absurd rfl hpoint
    · rfl
  rw [if_neg hzero]
  by_cases hmillis : nanos % 1000000 = 0
  · rw [if_pos hmillis, readFraction_padded (by decide) (by decide) (by omega) hrest,
      show nanos / 1000000 * 10 ^ (9 - 3) = nanos by omega]
  rw [if_neg hmillis]
  by_cases hmicros : nanos % 1000 = 0
  · rw [if_pos hmicros, readFraction_padded (by decide) (by decide) (by omega) hrest,
      show nanos / 1000 * 10 ^ (9 - 6) = nanos by omega]
  · rw [if_neg hmicros, readFraction_padded (by decide) (by decide) (by omega) hrest,
      show nanos * 10 ^ (9 - 9) = nanos by omega]

/-! ## The whole text -/

/-- The characters of date and time, part by part. -/
theorem toList_dateTime (year month day hour minute second fraction : String) :
    (year ++ "-" ++ month ++ "-" ++ day ++ "T" ++ hour ++ ":" ++ minute ++ ":" ++ second ++ fraction
      ++ "Z").toList = year.toList ++ '-' :: (month.toList ++ '-' :: (day.toList ++
        'T' :: (hour.toList ++ ':' :: (minute.toList ++ ':' :: (second.toList ++
          (fraction.toList ++ ['Z'])))))) := by
  simp

/-- **Instants read back.** -/
theorem ofText?_text {t : Timestamp} (h : t.IsInstant) : ofText? t.text = some t := by
  have hcovered := h.covered
  have hvalid := CalendarDate.isValid_ofDays (t.seconds / 86400)
  have hdays := CalendarDate.toDays_ofDays (t.seconds / 86400)
  obtain ⟨hmonth, hday⟩ := CalendarDate.lt_of_isValid hvalid
  rw [ofText?, text, toList_dateTime]
  generalize CalendarDate.ofDays (t.seconds / 86400) = date at hcovered hvalid hdays hmonth hday ⊢
  obtain ⟨year, month, day⟩ := date
  generalize htime : (t.seconds % 86400).toNat = time
  -- a second is the sixtieth of its minute just where it is a leap second
  have hsecond : time % 60 + t.nanos / 1000000000 ≤ 60 := by
    have hnanos := h.nanos
    omega
  have hleap : (if time % 60 + t.nanos / 1000000000 = 60 then 1 else 0) = t.nanos / 1000000000 := by
    have hnanos := h.nanos
    split <;> omega
  have hclock : time / 3600 * 3600 + time / 60 % 60 * 60 + time % 60 = time := by omega
  have hseconds : t.seconds / 86400 * 86400 + (time : Int) = t.seconds := by omega
  have hhyphen : Text.isBlank '-' = false := by decide
  have hcolon : Text.isBlank ':' = false := by decide
  have hzone : readZone (Text.trimStart ['Z']) = some (0, []) := by decide
  dsimp only [ofChars?, Option.bind_eq_bind]
  rw [readYear_text _ (by simp [NoDigitFirst]), Option.bind_some]
  dsimp only
  rw [readMark_readNumber hhyphen hmonth]
  dsimp only
  rw [readMark_readNumber hhyphen hday]
  dsimp only
  rw [if_pos (.inl rfl), Option.bind_some, readNumber_padded 2 (by decide) (by omega),
    Option.bind_some]
  dsimp only
  rw [readMark_readNumber hcolon (by omega)]
  dsimp only
  rw [readMark_readNumber hcolon (by omega)]
  dsimp only
  rw [readFraction_text (by omega) (by simp [NoDigitFirst]) (by decide), Option.bind_some, hzone,
    Option.bind_some]
  simp only [hdays, hleap, Nat.add_sub_cancel, hclock, hseconds, Int.sub_zero]
  rw [if_pos ⟨rfl, hcovered, hvalid, by omega, by omega, hsecond, by decide⟩, if_pos h.covered,
    Nat.mul_comm (t.nanos / 1000000000), Nat.mod_add_div]

end Timestamp

end TypedCql
