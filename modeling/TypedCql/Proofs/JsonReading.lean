import TypedCql.Json.Reader
import TypedCql.Proofs.Digits

/-!
# Documents read back from their text

A document that is written here has texts and keys in one spelling, which escapes no more than it
must, and decimal integers for its numbers (`Json.Spelt`). The text of such a document reads back as
the same document (`parse?_render`). The argument follows the reader: a spelling ends at the first
quote that is not escaped, a number where its digits end, and an array or object at the bracket that
closes it.
-/

namespace TypedCql

namespace Json

/-! ## Spellings -/

/-- The four digits of an escaped control. -/
theorem unit?_control : ∀ n < 32,
    unit? '0' '0' (Nat.digitChar (n / 16)) (Nat.digitChar (n % 16)) = some n := by
  decide

theorem readSpelling_cons {c : Char} (h : c ≠ '\\') (rest : List Char) :
    readSpelling (c :: rest) = (readSpelling rest).map (c :: ·) := by
  rw [readSpelling]
  · intro _ _ _ _ _ hc
    exact absurd hc h
  · intro _ _ hc
    exact absurd hc h

theorem scanText_cons {c : Char} (hquote : c ≠ '"') (hslash : c ≠ '\\') (hcontrol : ¬c.toNat < 0x20)
    (rest : List Char) :
    scanText (c :: rest) = (scanText rest).map fun (spelt, left) => (c :: spelt, left) := by
  rw [scanText, if_neg]
  · rintro (h | h)
    · exact hcontrol h
    · exact hslash h
  · exact hquote
  · intro _ _ _ _ _ hc
    exact absurd hc hslash
  · intro _ _ hc
    exact absurd hc hslash

/-- What a character is spelt as, is read as that character. -/
theorem readSpelling_spellChar (c : Char) (rest : List Char) :
    readSpelling (spellChar c ++ rest) = (readSpelling rest).map (c :: ·) := by
  unfold spellChar
  split
  case h_8 hquote hslash _ _ _ _ _ =>
    split
    · next hcontrol =>
        have hunit := unit?_control c.toNat hcontrol
        simp only [List.cons_append, List.nil_append, readSpelling, hunit]
        rw [if_neg (by omega), if_neg (by omega), Char.ofNat_toNat]
    · exact readSpelling_cons hslash rest
  all_goals simp [readSpelling, escaped?]

theorem readSpelling_spell (cs : List Char) : readSpelling (cs.flatMap spellChar) = some cs := by
  induction cs with
  | nil => rfl
  | cons c rest ih => rw [List.flatMap_cons, readSpelling_spellChar, ih, Option.map_some]

@[simp] theorem unspell?_spell (s : String) : unspell? (spell s) = some s := by
  rw [unspell?, spell, String.toList_ofList, readSpelling_spell, Option.map_some,
    String.ofList_toList]

/-- No spelling of a character ends the text, and the reader takes it as it stands. -/
theorem scanText_spellChar (c : Char) (rest : List Char) :
    scanText (spellChar c ++ rest) =
      (scanText rest).map fun (spelt, left) => (spellChar c ++ spelt, left) := by
  unfold spellChar
  split
  case h_8 hquote hslash _ _ _ _ _ =>
    split
    · next hcontrol =>
        have hunit := unit?_control c.toNat hcontrol
        simp only [List.cons_append, List.nil_append, scanText, hunit, Option.isSome_some, if_true]
    · next hcontrol => exact scanText_cons hquote hslash hcontrol rest
  all_goals simp [scanText, escaped?]

theorem scanText_spell (s : String) (rest : List Char) :
    scanText ((spell s).toList ++ '"' :: rest) = some ((spell s).toList, rest) := by
  rw [spell, String.toList_ofList]
  induction s.toList with
  | nil => rfl
  | cons c cs ih =>
      rw [List.flatMap_cons, List.append_assoc, scanText_spellChar, ih, Option.map_some]

/-! ## Integers -/

/-- What can follow a document inside another one, or the end of the text. -/
def Closes : List Char → Prop
  | [] => True
  | c :: _ => c = ',' ∨ c = ']' ∨ c = '\x7d'

/-- The text of an integer: the digits, with a sign in front of them if it is negative. -/
theorem toList_integer (n : Int) :
    (toString n).toList =
      if n < 0 then '-' :: Nat.toDigits 10 n.natAbs else Nat.toDigits 10 n.natAbs := by
  rw [Int.toString_eq_repr, Int.repr_eq_if]
  by_cases hn : n < 0
  · rw [if_neg (by omega), if_pos hn, show (-n).toNat = n.natAbs by omega]
    simp [Nat.repr_eq_ofList_toDigits]
  · rw [if_pos (by omega), if_neg hn, Nat.repr_eq_ofList_toDigits, String.toList_ofList,
      show n.toNat = n.natAbs by omega]

theorem Closes.noDigitFirst {rest : List Char} (h : Closes rest) : NoDigitFirst rest := by
  cases rest with
  | nil => simp [NoDigitFirst]
  | cons c rest =>
      intro d hd
      obtain rfl : c = d := by simpa using hd
      rcases h with rfl | rfl | rfl <;> decide

theorem scanDigits_toDigits (n : Nat) {rest : List Char} (h : Closes rest) :
    scanDigits (Nat.toDigits 10 n ++ rest) = some (Nat.toDigits 10 n, rest) := by
  simp only [scanDigits, takeWhile_digits (allDigits_toDigits n) h.noDigitFirst,
    dropWhile_digits (allDigits_toDigits n) h.noDigitFirst, List.isEmpty_iff, Nat.toDigits_ne_nil,
    if_false]

theorem scanWhole_toDigits (n : Nat) {rest : List Char} (h : Closes rest) :
    scanWhole (Nat.toDigits 10 n ++ rest) = some (Nat.toDigits 10 n, rest) := by
  by_cases hn : n = 0
  · subst hn
    have hrest : rest.head?.any Char.isDigit = false := by
      rw [Option.any_eq_false]
      intro c hc
      rw [h.noDigitFirst c hc]
    simp [scanWhole, Nat.toDigits_zero, hrest]
  · have hfirst := head?_toDigits (Nat.pos_of_ne_zero hn)
    unfold scanWhole
    split
    · next left hzero =>
        cases hdigits : Nat.toDigits 10 n with
        | nil => exact absurd hdigits Nat.toDigits_ne_nil
        | cons c cs =>
            rw [hdigits] at hzero hfirst
            exact absurd (congrArg some (List.cons.inj hzero).1) hfirst
    · exact scanDigits_toDigits n h

theorem scanFraction_closes {rest : List Char} (h : Closes rest) :
    scanFraction rest = some ([], rest) := by
  unfold scanFraction
  split
  · next left =>
      rcases h with h | h | h <;> exact absurd h (by decide)
  · rfl

theorem scanExponent_closes {rest : List Char} (h : Closes rest) :
    scanExponent rest = some ([], rest) := by
  cases rest with
  | nil => rfl
  | cons c rest =>
      simp only [scanExponent]
      rw [if_neg]
      rcases h with rfl | rfl | rfl <;> decide

theorem scanNumber_integer (n : Int) {rest : List Char} (h : Closes rest) :
    scanNumber ((toString n).toList ++ rest) = some ((toString n).toList, rest) := by
  rw [toList_integer]
  split
  · simp [scanNumber, scanWhole_toDigits n.natAbs h, scanFraction_closes h, scanExponent_closes h]
  · have hsign : ∀ left, Nat.toDigits 10 n.natAbs ++ rest ≠ '-' :: left := by
      intro left hleft
      have hdigit := (allDigits_toDigits n.natAbs).isDigit_head Nat.toDigits_ne_nil hleft
      exact absurd hdigit (by decide)
    unfold scanNumber
    split
    next sign cs hcs =>
      split at hcs
      · next left hleft => exact absurd hleft (hsign left)
      · cases hcs
        simp [scanWhole_toDigits n.natAbs h, scanFraction_closes h, scanExponent_closes h]

/-- The integers that are read as such are those of 64 bits, signed where they are negative. -/
theorem integerOf?_integer {n : Int} (hlow : Int64.minValue.toInt ≤ n) (hhigh : n < UInt64.size) :
    integerOf? (toString n) = some n := by
  have htake := (allDigits_toDigits n.natAbs).takeWhile_eq
  have hdrop := (allDigits_toDigits n.natAbs).dropWhile_eq
  have hparts : numberParts (toString n).toList =
      ⟨decide (n < 0), Nat.toDigits 10 n.natAbs, none, none⟩ := by
    rw [toList_integer]
    by_cases hn : n < 0
    · simp [numberParts, hn, htake, hdrop]
    · have hsign : (Nat.toDigits 10 n.natAbs).head? ≠ some '-' := by
        intro hminus
        have hc := allDigits_toDigits n.natAbs '-' (List.mem_of_mem_head? hminus)
        exact absurd hc (by decide)
      simp [numberParts, hn, htake, hdrop, hsign]
  simp only [integerOf?, hparts, digitsValue_toDigits]
  by_cases hn : n < 0
  · simp only [hn, decide_true, Option.isNone_none, and_self, if_true]
    rw [if_pos (by omega)]
    exact congrArg some (by omega)
  · simp only [hn, decide_false, Option.isNone_none, and_self, if_true, Bool.false_eq_true,
      if_false]
    rw [if_pos (by omega)]
    exact congrArg some (by omega)

/-! ## Documents -/

mutual

/-- Texts and keys in the spelling that the library writes, and integers for numbers. -/
def Spelt : Json → Prop
  | .null | .bool _ => True
  | .number spelling => ∃ n : Int, spelling = toString n
  | .text spelling => ∃ s, spelling = spell s
  | .array items => ItemsSpelt items
  | .object entries => EntriesSpelt entries

def ItemsSpelt : List Json → Prop
  | [] => True
  | item :: rest => Spelt item ∧ ItemsSpelt rest

def EntriesSpelt : List (String × Json) → Prop
  | [] => True
  | (key, value) :: rest => (∃ s, key = spell s) ∧ Spelt value ∧ EntriesSpelt rest

end

theorem ofText_spelt (s : String) : (ofText s).Spelt := ⟨s, rfl⟩

theorem ofInt_spelt (n : Int) : (ofInt n).Spelt := ⟨n, rfl⟩

theorem itemsSpelt_map {write : α → Json} {as : List α} (h : ∀ a ∈ as, (write a).Spelt) :
    ItemsSpelt (as.map write) := by
  induction as with
  | nil => trivial
  | cons a rest ih =>
      rw [List.forall_mem_cons] at h
      exact ⟨h.1, ih h.2⟩

theorem ofFields_spelt {fields : List (String × Json)} (h : ∀ field ∈ fields, field.2.Spelt) :
    (ofFields fields).Spelt := by
  unfold ofFields
  induction fields with
  | nil => trivial
  | cons field rest ih =>
      rw [List.forall_mem_cons] at h
      exact ⟨⟨field.1, rfl⟩, h.1, ih h.2⟩

/-- The characters that the text of a document begins with. -/
def Opens (c : Char) : Prop := isSpace c = false ∧ c ≠ ']' ∧ c ≠ '\x7d'

theorem opens_of_digit {c : Char} (h : c = '-' ∨ c.isDigit = true) : Opens c := by
  rcases h with rfl | h
  · exact ⟨by decide, by decide, by decide⟩
  · refine ⟨?_, ?_, ?_⟩
    · cases hspace : isSpace c with
      | false => rfl
      | true =>
          simp only [isSpace, decide_eq_true_eq] at hspace
          rcases hspace with rfl | rfl | rfl | rfl <;> exact absurd h (by decide)
    · rintro rfl
      exact absurd h (by decide)
    · rintro rfl
      exact absurd h (by decide)

theorem integer_head (n : Int) :
    ∃ c cs, (toString n).toList = c :: cs ∧ (c = '-' ∨ c.isDigit = true) := by
  rw [toList_integer]
  split
  · exact ⟨'-', _, rfl, .inl rfl⟩
  · cases hcs : Nat.toDigits 10 n.natAbs with
    | nil => exact absurd hcs Nat.toDigits_ne_nil
    | cons c cs =>
        exact ⟨c, cs, rfl, .inr (allDigits_toDigits n.natAbs c (hcs ▸ List.mem_cons_self ..))⟩

theorem toList_render_text (spelling : String) :
    (Json.text spelling).render.toList = '"' :: (spelling.toList ++ ['"']) := by
  simp [render]

/-- The text of items, with the commas between them. -/
def itemsChars (items : List Json) : List Char := (",".intercalate (renderItems items)).toList

/-- The text of entries, with the commas between them. -/
def entriesChars (entries : List (String × Json)) : List Char :=
  (",".intercalate (renderEntries entries)).toList

theorem toList_render_array (items : List Json) :
    (Json.array items).render.toList = '[' :: (itemsChars items ++ [']']) := by
  simp [render, itemsChars]

theorem toList_render_object (entries : List (String × Json)) :
    (Json.object entries).render.toList = '\x7b' :: (entriesChars entries ++ ['\x7d']) := by
  simp [render, entriesChars]

theorem itemsChars_nil : itemsChars [] = [] := by simp [itemsChars, renderItems]

theorem itemsChars_singleton (item : Json) : itemsChars [item] = item.render.toList := by
  simp [itemsChars, renderItems, String.intercalate_singleton]

theorem itemsChars_cons (item next : Json) (rest : List Json) :
    itemsChars (item :: next :: rest) = item.render.toList ++ ',' :: itemsChars (next :: rest) := by
  rw [itemsChars, itemsChars, renderItems, renderItems, String.intercalate_cons_cons]
  simp

theorem entriesChars_nil : entriesChars [] = [] := by simp [entriesChars, renderEntries]

theorem entriesChars_singleton (key : String) (value : Json) :
    entriesChars [(key, value)] = '"' :: (key.toList ++ '"' :: ':' :: value.render.toList) := by
  simp [entriesChars, renderEntries, String.intercalate_singleton]

theorem entriesChars_cons (key : String) (value : Json) (next : String × Json)
    (rest : List (String × Json)) :
    entriesChars ((key, value) :: next :: rest) =
      '"' :: (key.toList ++ '"' :: ':' :: (value.render.toList ++
        ',' :: entriesChars (next :: rest))) := by
  obtain ⟨key', value'⟩ := next
  rw [entriesChars, entriesChars, renderEntries, renderEntries, String.intercalate_cons_cons]
  simp

theorem render_head {j : Json} (h : j.Spelt) : ∃ c cs, j.render.toList = c :: cs ∧ Opens c := by
  cases j with
  | null => exact ⟨'n', ['u', 'l', 'l'], by decide, by decide, by decide, by decide⟩
  | bool b =>
      cases b with
      | false => exact ⟨'f', ['a', 'l', 's', 'e'], by decide, by decide, by decide, by decide⟩
      | true => exact ⟨'t', ['r', 'u', 'e'], by decide, by decide, by decide, by decide⟩
  | number spelling =>
      obtain ⟨n, rfl⟩ := h
      obtain ⟨c, cs, hcs, hc⟩ := integer_head n
      exact ⟨c, cs, hcs, opens_of_digit hc⟩
  | text spelling => exact ⟨_, _, toList_render_text spelling, by decide, by decide, by decide⟩
  | array items => exact ⟨_, _, toList_render_array items, by decide, by decide, by decide⟩
  | object entries => exact ⟨_, _, toList_render_object entries, by decide, by decide, by decide⟩

theorem skipSpace_cons {c : Char} (h : isSpace c = false) (rest : List Char) :
    skipSpace (c :: rest) = c :: rest := by
  rw [skipSpace, List.dropWhile_cons_of_neg (by simp [h])]

theorem itemsChars_head {item : Json} (h : item.Spelt) (later : List Json) :
    ∃ c cs, itemsChars (item :: later) = c :: cs ∧ Opens c := by
  obtain ⟨c, cs, hcs, hc⟩ := render_head h
  cases later with
  | nil => exact ⟨c, cs, by rw [itemsChars_singleton, hcs], hc⟩
  | cons next later => exact ⟨c, _, by rw [itemsChars_cons, hcs, List.cons_append], hc⟩

theorem entriesChars_head (entry : String × Json) (later : List (String × Json)) :
    ∃ cs, entriesChars (entry :: later) = '"' :: cs := by
  obtain ⟨key, value⟩ := entry
  cases later with
  | nil => exact ⟨_, entriesChars_singleton key value⟩
  | cons next later => exact ⟨_, entriesChars_cons key value next later⟩

theorem scanKey_spell (s : String) (rest : List Char) :
    scanKey ('"' :: ((spell s).toList ++ '"' :: ':' :: rest)) = some ((spell s).toList, rest) := by
  rw [scanKey, skipSpace_cons (by decide)]
  simp only [scanText_spell]
  simp [skipSpace_cons (c := ':') (by decide)]

theorem readValue_integer (n : Int) {rest : List Char} (h : Closes rest) (fuel : Nat) :
    readValue (fuel + 1) ((toString n).toList ++ rest) = some (.number (toString n), rest) := by
  obtain ⟨c, cs, hcs, hc⟩ := integer_head n
  have hnumber := scanNumber_integer n h
  rw [readValue]
  rw [hcs] at hnumber ⊢
  rw [List.cons_append, skipSpace_cons (opens_of_digit hc).1]
  split
  case h_7 =>
    rw [← List.cons_append, hnumber, ← hcs]
    simp
  -- the other kinds of documents begin neither with a digit nor with a sign
  all_goals
    rename_i heq
    cases heq
    exact absurd hc (by decide)

/-- A bracket with items behind it. -/
theorem readValue_items {item : Json} (h : item.Spelt) {later : List Json} {rest : List Char}
    {fuel : Nat} (hitems : readItems fuel (itemsChars (item :: later) ++ ']' :: rest) =
      some (item :: later, rest)) :
    readValue (fuel + 1) ((Json.array (item :: later)).render.toList ++ rest) =
      some (.array (item :: later), rest) := by
  obtain ⟨c, cs, hcs, hspace, hclose, -⟩ := itemsChars_head h later
  rw [toList_render_array, List.cons_append, List.append_assoc, readValue,
    skipSpace_cons (by decide)]
  rw [hcs] at hitems ⊢
  simp only [List.cons_append, skipSpace_cons hspace, List.nil_append] at hitems ⊢
  split
  · next heq => exact absurd (List.cons.inj heq).1 hclose
  · rw [hitems, Option.map_some]

/-- A brace with entries behind it. -/
theorem readValue_entries {entry : String × Json} {later : List (String × Json)} {rest : List Char}
    {fuel : Nat} (hentries : readEntries fuel (entriesChars (entry :: later) ++ '\x7d' :: rest) =
      some (entry :: later, rest)) :
    readValue (fuel + 1) ((Json.object (entry :: later)).render.toList ++ rest) =
      some (.object (entry :: later), rest) := by
  obtain ⟨cs, hcs⟩ := entriesChars_head entry later
  rw [toList_render_object, List.cons_append, List.append_assoc, readValue,
    skipSpace_cons (by decide)]
  rw [hcs] at hentries ⊢
  simp only [List.cons_append, skipSpace_cons (c := '"') (by decide), List.nil_append] at hentries ⊢
  split
  · next heq => exact absurd (List.cons.inj heq).1 (by decide)
  · rw [hentries, Option.map_some]

mutual

/-- A document is read, and what follows it is left. Every two steps of the reader take at least
one character. -/
theorem readValue_render : ∀ (j : Json), j.Spelt → ∀ (rest : List Char), Closes rest →
    ∀ fuel, 2 * j.render.toList.length < fuel →
      readValue fuel (j.render.toList ++ rest) = some (j, rest)
  | .null, _, rest, _, fuel + 1, _ => by
      have hchars : Json.null.render.toList = ['n', 'u', 'l', 'l'] := by decide
      rw [hchars, List.cons_append, readValue, skipSpace_cons (by decide)]
      simp [afterWord]
  | .bool true, _, rest, _, fuel + 1, _ => by
      have hchars : (Json.bool true).render.toList = ['t', 'r', 'u', 'e'] := by decide
      rw [hchars, List.cons_append, readValue, skipSpace_cons (by decide)]
      simp [afterWord]
  | .bool false, _, rest, _, fuel + 1, _ => by
      have hchars : (Json.bool false).render.toList = ['f', 'a', 'l', 's', 'e'] := by decide
      rw [hchars, List.cons_append, readValue, skipSpace_cons (by decide)]
      simp [afterWord]
  | .number spelling, ⟨n, hn⟩, rest, hrest, fuel + 1, _ => by
      subst hn
      exact readValue_integer n hrest fuel
  | .text spelling, ⟨s, hs⟩, rest, _, fuel + 1, _ => by
      subst hs
      rw [toList_render_text, List.cons_append, readValue, skipSpace_cons (by decide)]
      simp [scanText_spell]
  | .array [], _, rest, _, fuel + 1, _ => by
      rw [toList_render_array, List.cons_append, readValue, skipSpace_cons (by decide)]
      simp [itemsChars_nil, skipSpace_cons (c := ']') (by decide)]
  | .array (item :: later), h, rest, _, fuel + 1, hfuel => by
      rw [toList_render_array] at hfuel
      simp only [List.length_append, List.length_cons, List.length_nil] at hfuel
      exact readValue_items h.1
        (readItems_render (item :: later) h (List.cons_ne_nil _ _) rest fuel (by omega))
  | .object [], _, rest, _, fuel + 1, _ => by
      rw [toList_render_object, List.cons_append, readValue, skipSpace_cons (by decide)]
      simp [entriesChars_nil, skipSpace_cons (c := '\x7d') (by decide)]
  | .object (entry :: later), h, rest, _, fuel + 1, hfuel => by
      rw [toList_render_object] at hfuel
      simp only [List.length_append, List.length_cons, List.length_nil] at hfuel
      exact readValue_entries
        (readEntries_render (entry :: later) h (List.cons_ne_nil _ _) rest fuel (by omega))

theorem readItems_render : ∀ (items : List Json), ItemsSpelt items → items ≠ [] →
    ∀ (rest : List Char) fuel, 2 * (itemsChars items).length + 1 < fuel →
      readItems fuel (itemsChars items ++ ']' :: rest) = some (items, rest)
  | [], _, hne, _, _, _ => absurd rfl hne
  | [item], h, _, rest, fuel + 1, hfuel => by
      rw [itemsChars_singleton] at hfuel ⊢
      have hitem := readValue_render item h.1 (']' :: rest) (.inr (.inl rfl)) fuel
        (by omega)
      simp [readItems, hitem, skipSpace_cons (c := ']') (by decide)]
  | item :: next :: later, h, _, rest, fuel + 1, hfuel => by
      rw [itemsChars_cons] at hfuel ⊢
      simp only [List.length_append, List.length_cons] at hfuel
      have hitem := readValue_render item h.1
        (',' :: (itemsChars (next :: later) ++ ']' :: rest)) (.inl rfl) fuel (by omega)
      have hlater := readItems_render (next :: later) h.2 (List.cons_ne_nil _ _) rest fuel
        (by omega)
      simp [readItems, hitem, hlater, skipSpace_cons (c := ',') (by decide)]

theorem readEntries_render : ∀ (entries : List (String × Json)), EntriesSpelt entries →
    entries ≠ [] → ∀ (rest : List Char) fuel, 2 * (entriesChars entries).length + 1 < fuel →
      readEntries fuel (entriesChars entries ++ '\x7d' :: rest) = some (entries, rest)
  | [], _, hne, _, _, _ => absurd rfl hne
  | [(key, value)], ⟨⟨s, hs⟩, hvalue, _⟩, _, rest, fuel + 1, hfuel => by
      subst hs
      rw [entriesChars_singleton] at hfuel ⊢
      simp only [List.length_append, List.length_cons] at hfuel
      have hitem := readValue_render value hvalue ('\x7d' :: rest) (.inr (.inr rfl)) fuel
        (by omega)
      simp [readEntries, scanKey_spell, hitem, skipSpace_cons (c := '\x7d') (by decide)]
  | (key, value) :: next :: later, ⟨⟨s, hs⟩, hvalue, hlater⟩, _, rest, fuel + 1, hfuel => by
      subst hs
      rw [entriesChars_cons] at hfuel ⊢
      simp only [List.length_append, List.length_cons] at hfuel
      have hitem := readValue_render value hvalue
        (',' :: (entriesChars (next :: later) ++ '\x7d' :: rest)) (.inl rfl) fuel (by omega)
      have hrest := readEntries_render (next :: later) hlater (List.cons_ne_nil _ _) rest
        fuel (by omega)
      simp [readEntries, scanKey_spell, hitem, hrest, skipSpace_cons (c := ',') (by decide)]

end

/-- **Documents read back.** The text of a document in the library's spelling names that document. -/
theorem parse?_render {j : Json} (h : j.Spelt) : parse? j.render = some j := by
  have hread := readValue_render j h [] trivial (2 * j.render.toList.length + 2) (by omega)
  rw [List.append_nil] at hread
  rw [parse?, ofChars?, hread]
  rfl

/-- Parts that are read one by one, each as what it was written for. -/
theorem mapM_written {read : β → Option α} {write : α → β} {as : List α}
    (h : ∀ a ∈ as, read (write a) = some a) : (as.map write).mapM read = some as := by
  induction as with
  | nil => rfl
  | cons a rest ih =>
      rw [List.forall_mem_cons] at h
      rw [List.map_cons, List.mapM_cons, h.1, ih h.2]
      rfl

end Json

end TypedCql
