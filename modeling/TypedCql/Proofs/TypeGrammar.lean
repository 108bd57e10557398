import TypedCql.ColumnType.Parser

/-!
# The grammar of column types

`Spells cs t` says that the characters `cs` are a way to write the type `t`: a name, or a keyword
with its parameters between angle brackets, and gaps between the tokens. It knows nothing of how a
text is read. A name in a spelling is as long as it can be, for what stands next to it is a gap, a
bracket or a comma, or nothing at all.
-/

namespace TypedCql

/-! ## White space -/

namespace Text

/-- The code points in some ranges, one by one. -/
def CharSet.codes (set : CharSet) : List Nat :=
  set.flatMap fun range => List.range' range.1 (range.2 + 1 - range.1)

theorem CharSet.mem_codes_of_contains {set : CharSet} {code : Nat} (h : set.contains code = true) :
    code ∈ set.codes := by
  induction set with
  | nil => exact nomatch h
  | cons range rest ih =>
      obtain ⟨first, last⟩ := range
      simp only [CharSet.contains] at h
      simp only [codes, List.flatMap_cons, List.mem_append, List.mem_range'_1]
      by_cases hfirst : code < first
      · rw [if_pos hfirst] at h
        exact nomatch h
      · by_cases hlast : code ≤ last
        · left
          omega
        · rw [if_neg hfirst, if_neg hlast] at h
          exact Or.inr (ih h)

theorem isAlphanumeric_of_isBlank {c : Char} (h : isBlank c = true) : isAlphanumeric c = false := by
  have hall : ∀ code ∈ blanks.codes, isAlphanumeric (Char.ofNat code) = false := by decide +kernel
  have hcode := hall c.toNat (CharSet.mem_codes_of_contains h)
  rwa [Char.ofNat_toNat] at hcode

/-- White space stands neither at the start nor at the end. -/
structure Edged (cs : List Char) : Prop where
  first : ∀ c ∈ cs.head?, isBlank c = false
  last : ∀ c ∈ cs.getLast?, isBlank c = false

theorem head?_trimStart (cs : List Char) : ∀ c ∈ (trimStart cs).head?, isBlank c = false := by
  intro c hc
  have hhead := List.head?_dropWhile_not isBlank cs
  rw [show (cs.dropWhile isBlank).head? = some c from hc] at hhead
  exact hhead

theorem trimStart_eq {cs : List Char} (h : ∀ c ∈ cs.head?, isBlank c = false) :
    trimStart cs = cs := by
  cases cs with
  | nil => rfl
  | cons c rest => exact List.dropWhile_cons_of_neg (Bool.eq_false_iff.mp (h c rfl))

theorem trimStart_append {front : List Char} (h : ∀ c ∈ front, isBlank c = true)
    (cs : List Char) : trimStart (front ++ cs) = trimStart cs :=
  List.dropWhile_append_of_pos h

theorem trim_edged (cs : List Char) : Edged (trim cs) where
  first := by
    -- The first character was there before the end was trimmed.
    intro c hc
    have hsuffix : trimStart (trimStart cs).reverse <:+ (trimStart cs).reverse :=
      List.dropWhile_suffix _
    obtain ⟨back, hback⟩ := hsuffix
    have hstart : trimStart cs = trim cs ++ back.reverse := by
      rw [trim, ← List.reverse_append, hback, List.reverse_reverse]
    refine head?_trimStart cs c ?_
    rw [hstart, List.head?_append, Option.mem_def.mp hc]
    rfl
  last := by
    intro c hc
    rw [trim, List.getLast?_reverse] at hc
    exact head?_trimStart _ c hc

theorem trim_append_blank {body back : List Char} (hbody : Edged body) (hne : body ≠ [])
    (hback : ∀ c ∈ back, isBlank c = true) : trim (body ++ back) = body := by
  have hstart : trimStart (body ++ back) = body ++ back := by
    obtain ⟨c, rest, rfl⟩ := List.exists_cons_of_ne_nil hne
    exact trimStart_eq hbody.first
  have hend : trimStart body.reverse = body.reverse := by
    refine trimStart_eq fun c hc => hbody.last c ?_
    rwa [List.head?_reverse] at hc
  rw [trim, hstart, List.reverse_append,
    trimStart_append (fun c hc => hback c (List.mem_reverse.mp hc)), hend, List.reverse_reverse]

theorem Edged.no_blank_end {body back : List Char} (h : Edged (body ++ back))
    (hback : ∀ c ∈ back, isBlank c = true) : back = [] := by
  cases hlast : back.getLast? with
  | none => exact List.getLast?_eq_none_iff.mp hlast
  | some c =>
      have hvisible := h.last c (by rw [List.getLast?_append, hlast]; rfl)
      rw [hback c (List.mem_of_getLast? hlast)] at hvisible
      exact nomatch hvisible

end Text

namespace ColumnType

/-! ## The grammar -/

/-- Any number of the characters that may stand between tokens. -/
def Gap (cs : List Char) : Prop := ∀ c ∈ cs, isGap c = true

/-- The name in lower case, by which scalars and keywords are known. -/
def lowerName (name : List Char) : String := String.ofList (name.map Char.toLower)

/-- The keywords that take parameters. -/
def keywords : List String := ["list", "set", "map", "tuple", "frozen"]

/-- A name that stands for a type by itself. -/
structure IsName (name : List Char) : Prop where
  ne_nil : name ≠ []
  chars : ∀ c ∈ name, isNameChar c = true
  not_keyword : lowerName name ∉ keywords

/-- The type of a name: the scalar called so in lower case, and otherwise the type that users have
defined under the name as it is written. -/
def named (name : List Char) : ColumnType :=
  (Scalar.ofName? (lowerName name)).elim (.udt (String.ofList name)) .scalar

/-- Text between angle brackets, with gaps before the brackets and inside them. -/
inductive Bracketed (body : List Char) : List Char → Prop
  | intro {before left right : List Char} (hbefore : Gap before) (hleft : Gap left)
      (hright : Gap right) :
      Bracketed body (before ++ '<' :: (left ++ (body ++ (right ++ ['>']))))

/-- One or more spellings with a comma between each two of them, and gaps around the commas. -/
inductive Separated {α : Type} (spells : List Char → α → Prop) : List Char → List α → Prop
  | one {cs : List Char} {a : α} (h : spells cs a) : Separated spells cs [a]
  | more {cs rest left right : List Char} {a : α} {others : List α} (h : spells cs a)
      (hleft : Gap left) (hright : Gap right) (hrest : Separated spells rest others) :
      Separated spells (cs ++ (left ++ ',' :: (right ++ rest))) (a :: others)

/-- The characters are a way to write the type. -/
inductive Spells : List Char → ColumnType → Prop
  | name {name : List Char} (h : IsName name) : Spells name (named name)
  | list {keyword body brackets : List Char} {t : ColumnType} (hk : lowerName keyword = "list")
      (h : Spells body t) (hb : Bracketed body brackets) : Spells (keyword ++ brackets) (.list t)
  | set {keyword body brackets : List Char} {t : ColumnType} (hk : lowerName keyword = "set")
      (h : Spells body t) (hb : Bracketed body brackets) : Spells (keyword ++ brackets) (.set t)
  | map {keyword body brackets : List Char} {k v : ColumnType} (hk : lowerName keyword = "map")
      (h : Separated Spells body [k, v]) (hb : Bracketed body brackets) :
      Spells (keyword ++ brackets) (.map k v)
  | tuple {keyword body brackets : List Char} {ts : List ColumnType}
      (hk : lowerName keyword = "tuple") (h : Separated Spells body ts)
      (hb : Bracketed body brackets) : Spells (keyword ++ brackets) (.tuple ts)
  /-- A type that is frozen already is not frozen again. -/
  | frozen {keyword body brackets : List Char} {t : ColumnType}
      (hk : lowerName keyword = "frozen") (h : Spells body t) (hb : Bracketed body brackets) :
      Spells (keyword ++ brackets) t.freeze

/-! ## Characters -/

theorem gap_nil : Gap [] := fun _ h => absurd h List.not_mem_nil

theorem gap_append {left right : List Char} (hleft : Gap left) (hright : Gap right) :
    Gap (left ++ right) :=
  List.forall_mem_append.mpr ⟨hleft, hright⟩

theorem isGap_cases {c : Char} (h : isGap c = true) : c = ' ' ∨ c = '\t' ∨ c = '\r' ∨ c = '\n' :=
  decide_eq_true_iff.mp h

theorem isBlank_of_isGap {c : Char} (h : isGap c = true) : Text.isBlank c = true := by
  rcases isGap_cases h with rfl | rfl | rfl | rfl <;> decide

theorem isBlank_of_isNameChar {c : Char} (h : isNameChar c = true) : Text.isBlank c = false := by
  cases hblank : Text.isBlank c with
  | false => rfl
  | true =>
      simp only [isNameChar, Text.isAlphanumeric_of_isBlank hblank, Bool.false_or, Bool.or_eq_true,
        beq_iff_eq] at h
      rcases h with rfl | rfl
      · exact absurd hblank (by decide)
      · exact absurd hblank (by decide)

theorem isNameChar_of_isGap {c : Char} (h : isGap c = true) : isNameChar c = false := by
  cases hname : isNameChar c with
  | false => rfl
  | true =>
      have hvisible := isBlank_of_isNameChar hname
      rw [isBlank_of_isGap h] at hvisible
      exact nomatch hvisible

theorem isNameChar_of_isAlpha {c : Char} (h : c.isAlpha = true) : isNameChar c = true := by
  have hascii : c.toNat < 0x80 := by
    rcases Bool.or_eq_true_iff.mp h with hupper | hlower
    · have hz : c.val ≤ 'Z'.val := (of_decide_eq_true hupper).2
      exact Nat.lt_of_le_of_lt (UInt32.le_iff_toNat_le.mp hz) (by decide)
    · have hz : c.val ≤ 'z'.val := of_decide_eq_true (Bool.and_eq_true_iff.mp hlower).2
      exact Nat.lt_of_le_of_lt (UInt32.le_iff_toNat_le.mp hz) (by decide)
  simp only [isNameChar, Text.isAlphanumeric, if_pos hascii, Char.isAlphanum, h, Bool.true_or]

theorem isNameChar_of_toLower {c : Char} (h : 'a' ≤ c.toLower ∧ c.toLower ≤ 'z') :
    isNameChar c = true := by
  refine isNameChar_of_isAlpha (Bool.or_eq_true_iff.mpr ?_)
  by_cases hupper : c.val ≥ 'A'.val ∧ c.val ≤ 'Z'.val
  · exact Or.inl (decide_eq_true hupper)
  · have hsame : c.toLower = c := dif_neg hupper
    rw [hsame] at h
    exact Or.inr (Bool.and_eq_true_iff.mpr ⟨decide_eq_true h.1, decide_eq_true h.2⟩)

/-- Whatever the case, a keyword is made of the characters of names. -/
theorem keyword_chars {keyword : List Char} (h : lowerName keyword ∈ keywords) :
    keyword ≠ [] ∧ ∀ c ∈ keyword, isNameChar c = true := by
  have hletters : ∀ word ∈ keywords,
      word ≠ "" ∧ (word.toList.all fun c => 'a' ≤ c && c ≤ 'z') = true := by decide
  obtain ⟨hne, hall⟩ := hletters _ h
  rw [lowerName, String.toList_ofList, List.all_map, List.all_eq_true] at hall
  refine ⟨?_, fun c hc => isNameChar_of_toLower ?_⟩
  · rintro rfl
    exact hne rfl
  · simpa using hall c hc

/-! ## Spellings -/

/-- The text does not go on with a name. -/
def Ends (rest : List Char) : Prop := ∀ c ∈ rest.head?, isNameChar c = false

theorem ends_gap_append {gap rest : List Char} (hgap : Gap gap) (h : Ends rest) :
    Ends (gap ++ rest) := by
  cases gap with
  | nil => exact h
  | cons c gap =>
      intro c' hc'
      cases Option.mem_some.mp hc'
      exact isNameChar_of_isGap (hgap c (List.mem_cons_self ..))

theorem ends_mark {c : Char} (h : isNameChar c = false) (rest : List Char) : Ends (c :: rest) := by
  intro c' hc'
  cases Option.mem_some.mp hc'
  exact h

theorem Bracketed.getLast? {body brackets : List Char} (h : Bracketed body brackets) :
    brackets.getLast? = some '>' := by
  cases h
  simp [List.getLast?_append, List.getLast?_cons]

theorem Bracketed.length_lt {body brackets : List Char} (h : Bracketed body brackets) :
    body.length < brackets.length := by
  cases h
  simp only [List.length_append, List.length_cons]
  omega

/-- A bracket and a gap end a name. -/
theorem Bracketed.ends {body brackets : List Char} (h : Bracketed body brackets)
    (rest : List Char) : Ends (brackets ++ rest) := by
  obtain ⟨hbefore, -, -⟩ := h
  rw [List.append_assoc]
  exact ends_gap_append hbefore (ends_mark (by decide) _)

/-- A word, with something between brackets after it or nothing. -/
def Worded (cs : List Char) : Prop :=
  ∃ word brackets, cs = word ++ brackets ∧ word ≠ [] ∧ (∀ c ∈ word, isNameChar c = true) ∧
    (brackets = [] ∨ ∃ body, Bracketed body brackets)

theorem keyword_worded {keyword body brackets : List Char} (hk : lowerName keyword ∈ keywords)
    (hb : Bracketed body brackets) : Worded (keyword ++ brackets) :=
  ⟨keyword, brackets, rfl, (keyword_chars hk).1, (keyword_chars hk).2, Or.inr ⟨body, hb⟩⟩

theorem Spells.worded {cs : List Char} {t : ColumnType} (h : Spells cs t) : Worded cs := by
  cases h with
  | name h => exact ⟨cs, [], (List.append_nil cs).symm, h.ne_nil, h.chars, Or.inl rfl⟩
  | list hk _ hb => exact keyword_worded (by rw [hk]; decide) hb
  | set hk _ hb => exact keyword_worded (by rw [hk]; decide) hb
  | map hk _ hb => exact keyword_worded (by rw [hk]; decide) hb
  | tuple hk _ hb => exact keyword_worded (by rw [hk]; decide) hb
  | frozen hk _ hb => exact keyword_worded (by rw [hk]; decide) hb

theorem Spells.head {cs : List Char} {t : ColumnType} (h : Spells cs t) :
    ∃ c rest, cs = c :: rest ∧ isNameChar c = true := by
  obtain ⟨word, brackets, rfl, hne, hchars, -⟩ := h.worded
  obtain ⟨c, word, rfl⟩ := List.exists_cons_of_ne_nil hne
  exact ⟨c, word ++ brackets, rfl, hchars c (List.mem_cons_self ..)⟩

theorem Spells.ne_nil {cs : List Char} {t : ColumnType} (h : Spells cs t) : cs ≠ [] := by
  obtain ⟨c, rest, rfl, -⟩ := h.head
  exact List.cons_ne_nil c rest

theorem Spells.edged {cs : List Char} {t : ColumnType} (h : Spells cs t) : Text.Edged cs where
  first := by
    obtain ⟨c, rest, rfl, hc⟩ := h.head
    intro c' hc'
    cases Option.mem_some.mp hc'
    exact isBlank_of_isNameChar hc
  last := by
    intro c hc
    obtain ⟨word, brackets, rfl, hne, hchars, rfl | ⟨body, hb⟩⟩ := h.worded
    · rw [List.append_nil] at hc
      exact isBlank_of_isNameChar (hchars c (List.mem_of_getLast? hc))
    · rw [List.getLast?_append, hb.getLast?] at hc
      cases Option.mem_some.mp hc
      decide

theorem Spells.trim_eq {cs : List Char} {t : ColumnType} (h : Spells cs t) : Text.trim cs = cs := by
  have htrim : Text.trim (cs ++ []) = cs :=
    Text.trim_append_blank h.edged h.ne_nil fun c hc => nomatch hc
  rwa [List.append_nil] at htrim

theorem Separated.head {cs : List Char} {ts : List ColumnType} (h : Separated Spells cs ts) :
    ∃ c rest, cs = c :: rest ∧ isNameChar c = true := by
  cases h with
  | one h => exact h.head
  | more h hleft hright hrest =>
      obtain ⟨c, rest, rfl, hc⟩ := h.head
      exact ⟨c, _, rfl, hc⟩

theorem Separated.length_le {cs : List Char} {ts : List ColumnType} (h : Separated Spells cs ts) :
    ts.length ≤ cs.length := by
  induction h with
  | one h =>
      obtain ⟨c, rest, rfl, -⟩ := h.head
      simp
  | more h _ _ _ ih =>
      obtain ⟨c, rest, rfl, -⟩ := h.head
      simp only [List.length_cons, List.length_append]
      omega

end ColumnType

end TypedCql
