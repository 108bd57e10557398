import Mathlib
import TypedCql.Proofs.Splitting
import TypedCql.Value.Literal

/-!
# Reading literals back

In a statement a literal is followed by nothing, by a closing bracket, or by one of a few marks. A
value of a type whose literals need no rounding is then determined by the text, and so is what comes
after it.

The two ways of being read back are kept apart. The literals of numbers, identifiers and the like
have no character that can follow a literal, and end at the first one. A text is closed by the first
quote that is not doubled, whatever it holds. Everything else is put together of these with brackets
and commas, and is read from left to right: a bracket or a comma tells whether an element follows,
and the element is read back because its type is a part of the type of the whole.
-/

namespace TypedCql

/-! ## Types -/

/-- The types of values whose literals show them in full. -/
inductive ValueType
  | boolean
  | int
  | bigint
  | text
  | uuid
  | blob
  | list (element : ValueType)
  | set (element : ValueType)
  | map (key value : ValueType)
  | tuple (components : List ValueType)
  | token (components : List ValueType)
  | udt (fields : List (String × ValueType))

/-- The values of a type. Every type has the null value, and so has every position in a value. -/
inductive ValueType.Has : ValueType → Value → Prop
  | null (τ : ValueType) : Has τ .null
  | boolean (b : Bool) : Has .boolean (.boolean b)
  | int (n : Int32) : Has .int (.int n)
  | bigint (n : Int64) : Has .bigint (.bigint n)
  | text (s : String) : Has .text (.text s)
  | uuid (u : Uuid) : Has .uuid (.uuid u)
  | blob (bytes : List UInt8) : Has .blob (.blob bytes)
  | list {τ : ValueType} {items : List Value} (h : ∀ v ∈ items, Has τ v) :
      Has (.list τ) (.list items)
  | set {τ : ValueType} {items : List Value} (h : ∀ v ∈ items, Has τ v) : Has (.set τ) (.set items)
  | map {κ τ : ValueType} {entries : List (Value × Value)} (hkeys : ∀ e ∈ entries, Has κ e.1)
      (hvalues : ∀ e ∈ entries, Has τ e.2) : Has (.map κ τ) (.map entries)
  | tuple {τs : List ValueType} {items : List Value} (h : List.Forall₂ Has τs items) :
      Has (.tuple τs) (.tuple items)
  | token {τs : List ValueType} {items : List Value} (h : List.Forall₂ Has τs items) :
      Has (.token τs) (.token items)
  | udt {types : List (String × ValueType)} {fields : List (String × Value)}
      (hnames : fields.map Prod.fst = types.map Prod.fst)
      (h : List.Forall₂ Has (types.map Prod.snd) (fields.map Prod.snd)) :
      Has (.udt types) (.udt fields)

/-! ## What follows a literal -/

namespace Literal

/-- The marks that can follow a literal. -/
def delimiters : List Char := [',', ']', '\x7d', ')', ':', ';', ' ']

/-- The end of a text, or a part of one that begins with a mark that can follow a literal. -/
def Boundary : List Char → Prop
  | [] => True
  | c :: _ => c ∈ delimiters

instance : ∀ s : List Char, Decidable (Boundary s)
  | [] => isTrue trivial
  | c :: _ => inferInstanceAs (Decidable (c ∈ delimiters))

/-- Characters that neither follow a literal nor begin the null value. -/
def Inner (c : Char) : Prop := c ∉ 'N' :: delimiters

instance (c : Char) : Decidable (Inner c) := inferInstanceAs (Decidable (c ∉ 'N' :: delimiters))

theorem Boundary.not_inner {s : List Char} (h : Boundary s) : ∀ c r, s = c :: r → ¬Inner c := by
  rintro c r rfl hc
  exact hc (List.mem_cons_of_mem _ h)

theorem Boundary.ne_quote {s : List Char} (h : Boundary s) : ∀ c r, s = c :: r → c ≠ '\'' := by
  rintro c r hs rfl
  exact h.not_inner '\'' r hs (by decide)

variable {α : Type} {text : α → List Char} {a b : α}

/-- Two things whose texts are told apart, and told from what follows them. -/
def Separable (text : α → List Char) (a b : α) : Prop :=
  ∀ ⦃s t⦄, Boundary s → Boundary t → text a ++ s = text b ++ t → a = b ∧ s = t

theorem Separable.symm (h : Separable text a b) : Separable text b a := by
  intro s t hs ht heq
  obtain ⟨hab, hst⟩ := h ht hs heq.symm
  exact ⟨hab.symm, hst.symm⟩

/-- Texts without a delimiter end where the first one stands. -/
theorem Separable.of_inner (ha : ∀ c ∈ text a, Inner c) (hb : ∀ c ∈ text b, Inner c)
    (h : text a = text b → a = b) : Separable text a b := by
  intro s t hs ht heq
  obtain ⟨htext, hst⟩ := split_unique ha hb hs.not_inner ht.not_inner heq
  exact ⟨h htext, hst⟩

/-! ## Elements between brackets -/

/-- What comes after an element: the closing bracket, or a comma and the elements that are left. -/
def later (text : α → List Char) (close : Char) : List α → List Char
  | [] => [close]
  | a :: rest => ',' :: ' ' :: (text a ++ later text close rest)

/-- What comes after the opening bracket. -/
def inside (text : α → List Char) (close : Char) : List α → List Char
  | [] => [close]
  | a :: rest => text a ++ later text close rest

variable {close : Char} {as bs : List α}

theorem boundary_later (hclose : close ∈ delimiters) (as : List α) (s : List Char) :
    Boundary (later text close as ++ s) := by
  cases as with
  | nil => exact hclose
  | cons a rest => exact List.mem_cons_self ..

theorem toList_intercalate (text : α → String) (close : Char) (as : List α) :
    (", ".intercalate (as.map text)).toList ++ [close] =
      inside (fun a => (text a).toList) close as := by
  have hlater : ∀ rest : List α, ∀ a : α,
      (", ".intercalate ((a :: rest).map text)).toList ++ [close] =
        (text a).toList ++ later (fun a => (text a).toList) close rest := by
    intro rest
    induction rest with
    | nil =>
        intro a
        simp [later, String.intercalate_singleton]
    | cons b rest ih =>
        intro a
        have hcomma : ", ".toList = [',', ' '] := by decide
        rw [List.map_cons, List.map_cons, String.intercalate_cons_cons, String.toList_append,
          String.toList_append, List.append_assoc, ← List.map_cons, ih b, hcomma, List.append_assoc]
        rfl
  cases as with
  | nil => simp [inside]
  | cons a rest => exact hlater rest a

/-- Elements that are told apart position by position are told apart as a list. -/
theorem later_unique (hclose : close ∈ delimiters) (hcomma : close ≠ ',')
    (h : ∀ p ∈ as.zip bs, Separable text p.1 p.2) {s t : List Char}
    (heq : later text close as ++ s = later text close bs ++ t) : as = bs ∧ s = t := by
  induction as generalizing bs with
  | nil =>
      cases bs with
      | nil => exact ⟨rfl, (List.cons.inj heq).2⟩
      | cons b bs => exact absurd (List.cons.inj heq).1 hcomma
  | cons a as ih =>
      cases bs with
      | nil => exact absurd (List.cons.inj heq).1.symm hcomma
      | cons b bs =>
          have hab : Separable text a b := h (a, b) (List.mem_cons_self ..)
          simp only [later, List.cons_append, List.append_assoc, List.cons.injEq, true_and] at heq
          obtain ⟨rfl, hrest⟩ := hab (boundary_later hclose as s) (boundary_later hclose bs t) heq
          obtain ⟨rfl, hst⟩ := ih (fun p hp => h p (List.mem_cons_of_mem _ hp)) hrest
          exact ⟨rfl, hst⟩

theorem inside_unique (hclose : close ∈ delimiters) (hcomma : close ≠ ',')
    (h : ∀ p ∈ as.zip bs, Separable text p.1 p.2) (hempty : as = [] ↔ bs = []) {s t : List Char}
    (heq : inside text close as ++ s = inside text close bs ++ t) : as = bs ∧ s = t := by
  cases as with
  | nil =>
      obtain rfl := hempty.mp rfl
      exact ⟨rfl, (List.cons.inj heq).2⟩
  | cons a as =>
      cases bs with
      | nil => exact absurd (hempty.mpr rfl) (List.cons_ne_nil a as)
      | cons b bs =>
          -- With a comma before them, the elements of both are what comes after an element.
          have hlater : later text close (a :: as) ++ s = later text close (b :: bs) ++ t :=
            congrArg (fun cs => ',' :: ' ' :: cs) heq
          exact later_unique hclose hcomma h hlater

theorem later_map {β : Type} (text : β → List Char) (close : Char) (f : α → β) (as : List α) :
    later text close (as.map f) = later (fun a => text (f a)) close as := by
  induction as with
  | nil => rfl
  | cons a rest ih => rw [List.map_cons, later, later, ih]

theorem inside_map {β : Type} (text : β → List Char) (close : Char) (f : α → β) (as : List α) :
    inside text close (as.map f) = inside (fun a => text (f a)) close as := by
  cases as with
  | nil => rfl
  | cons a rest => rw [List.map_cons, inside, inside, later_map]

/-- A text that begins with a character that cannot follow a literal. -/
def Starts (cs : List Char) : Prop := ∃ c r, cs = c :: r ∧ c ∉ delimiters

/-- Brackets with nothing between them are told from others, since no element begins like the
closing one. -/
theorem empty_iff_of_inside (hclose : close ∈ delimiters) (has : ∀ a ∈ as, Starts (text a))
    (hbs : ∀ b ∈ bs, Starts (text b)) {s t : List Char}
    (heq : inside text close as ++ s = inside text close bs ++ t) : as = [] ↔ bs = [] := by
  have hfirst : ∀ {a : α} {u v : List Char}, Starts (text a) → text a ++ u ≠ close :: v := by
    rintro a u v ⟨c, r, htext, hopen⟩ heq
    rw [htext] at heq
    exact hopen ((List.cons.inj heq).1 ▸ hclose)
  cases as with
  | nil =>
      cases bs with
      | nil => exact Iff.rfl
      | cons b bs =>
          rw [inside, inside, List.append_assoc] at heq
          exact absurd heq.symm (hfirst (hbs b (List.mem_cons_self ..)))
  | cons a as =>
      cases bs with
      | nil =>
          rw [inside, inside, List.append_assoc] at heq
          exact absurd heq (hfirst (has a (List.mem_cons_self ..)))
      | cons b bs => exact iff_of_false (List.cons_ne_nil a as) (List.cons_ne_nil b bs)

end Literal

/-! ## Digits -/

namespace Value

theorem inner_digitChar : ∀ n < 16, Literal.Inner (Nat.digitChar n) := by
  decide

theorem digitChar_inj : ∀ n < 16, ∀ k < 16, Nat.digitChar n = Nat.digitChar k → n = k := by
  decide

/-- The text of a whole number has digits and perhaps a sign. -/
theorem inner_of_mem_int {n : Int} {c : Char} (hc : c ∈ (toString n).toList) : Literal.Inner c := by
  have hdigits : ∀ k : Nat, ∀ d ∈ k.repr.toList, Literal.Inner d := by
    intro k d hd
    rw [Nat.repr_eq_ofList_toDigits, String.toList_ofList] at hd
    have hdigit : d.isDigit = true :=
      Nat.isDigit_of_mem_toDigits (by decide) (Nat.le_refl 10) hd
    intro hmem
    have hnone : ('N' :: Literal.delimiters).all (fun x => !x.isDigit) = true := by decide
    have hfalse := List.all_eq_true.mp hnone d hmem
    rw [hdigit] at hfalse
    exact absurd hfalse (by decide)
  rw [Int.toString_eq_repr, Int.repr_eq_if] at hc
  split at hc
  · exact hdigits _ c hc
  · rw [String.toList_append, List.mem_append] at hc
    rcases hc with hsign | hc
    · have hminus : c = '-' := by simpa using hsign
      exact hminus ▸ (by decide)
    · exact hdigits _ c hc

theorem int_inj {n k : Int} (h : (toString n).toList = (toString k).toList) : n = k := by
  rw [String.toList_inj, Int.toString_eq_repr, Int.toString_eq_repr] at h
  exact Int.repr_inj.mp h

theorem toList_int_ne_nil (n : Int) : (toString n).toList ≠ [] := by
  intro h
  have hempty : n.repr = "" := String.toList_inj.mp (Int.toString_eq_repr ▸ h)
  rw [Int.repr_eq_if] at hempty
  split at hempty
  · exact Nat.repr_ne_empty hempty
  · simp at hempty

/-- The two digits of a byte. -/
def byteChars (b : UInt8) : List Char :=
  [Nat.digitChar (b.toNat / 16), Nat.digitChar (b.toNat % 16)]

theorem toList_join_byteText (bytes : List UInt8) :
    (String.join (bytes.map byteText)).toList = bytes.flatMap byteChars := by
  induction bytes with
  | nil => rfl
  | cons b rest ih =>
      rw [List.map_cons, String.join_cons, String.toList_append, ih, List.flatMap_cons]
      exact congrArg (· ++ _) String.toList_ofList

theorem byte_div_lt (b : UInt8) : b.toNat / 16 < 16 := by
  have hb : b.toNat < 256 := b.toNat_lt
  omega

theorem inner_of_mem_bytes {bytes : List UInt8} {c : Char} (hc : c ∈ bytes.flatMap byteChars) :
    Literal.Inner c := by
  obtain ⟨b, -, hb⟩ := List.mem_flatMap.mp hc
  simp only [byteChars, List.mem_cons, List.not_mem_nil, or_false] at hb
  rcases hb with rfl | rfl
  · exact inner_digitChar _ (byte_div_lt b)
  · exact inner_digitChar _ (Nat.mod_lt _ (by decide))

theorem byteChars_inj {a b : UInt8} (h : byteChars a = byteChars b) : a = b := by
  obtain ⟨hhigh, hlow⟩ := List.cons.inj h
  have hdiv := digitChar_inj _ (byte_div_lt a) _ (byte_div_lt b) hhigh
  have hmod := digitChar_inj _ (Nat.mod_lt _ (by decide)) _ (Nat.mod_lt _ (by decide))
    (List.cons.inj hlow).1
  exact UInt8.toNat_inj.mp (by omega)

theorem bytes_inj {as bs : List UInt8} (h : as.flatMap byteChars = bs.flatMap byteChars) :
    as = bs := by
  induction as generalizing bs with
  | nil =>
      cases bs with
      | nil => rfl
      | cons b bs => exact nomatch h
  | cons a as ih =>
      cases bs with
      | nil => exact nomatch h
      | cons b bs =>
          rw [List.flatMap_cons, List.flatMap_cons] at h
          obtain ⟨hfirst, hrest⟩ := List.append_inj h rfl
          rw [byteChars_inj hfirst, ih hrest]

end Value

namespace Uuid

theorem length_digits (u : Uuid) : u.digits.length = 32 := by
  rw [digits, List.length_map, List.length_range]

theorem mem_digits {u : Uuid} {c : Char} (hc : c ∈ u.digits) : ∃ n < 16, c = Nat.digitChar n := by
  obtain ⟨i, -, rfl⟩ := List.mem_map.mp hc
  exact ⟨_, Nat.mod_lt _ (by decide), rfl⟩

theorem inner_of_mem_text {u : Uuid} {c : Char} (hc : c ∈ u.text.toList) : Literal.Inner c := by
  have hdigit : ∀ d ∈ u.digits, Literal.Inner d := by
    intro d hd
    obtain ⟨n, hn, rfl⟩ := mem_digits hd
    exact Value.inner_digitChar n hn
  have hhyphen : Literal.Inner '-' := by decide
  simp only [text, String.toList_ofList, List.mem_append, List.mem_cons] at hc
  rcases hc with (((hc | rfl | hc) | rfl | hc) | rfl | hc) | rfl | hc
  · exact hdigit c (List.mem_of_mem_take hc)
  · exact hhyphen
  · exact hdigit c (List.mem_of_mem_drop (List.mem_of_mem_take hc))
  · exact hhyphen
  · exact hdigit c (List.mem_of_mem_drop (List.mem_of_mem_take hc))
  · exact hhyphen
  · exact hdigit c (List.mem_of_mem_drop (List.mem_of_mem_take hc))
  · exact hhyphen
  · exact hdigit c (List.mem_of_mem_drop hc)

/-- Numbers of the same digits to base sixteen are the same. -/
theorem eq_of_digits {j n k : Nat} (hn : n < 16 ^ j) (hk : k < 16 ^ j)
    (h : ∀ i < j, n / 16 ^ i % 16 = k / 16 ^ i % 16) : n = k := by
  induction j generalizing n k with
  | zero => omega
  | succ j ih =>
      have hlast : n % 16 = k % 16 := by simpa using h 0 (Nat.succ_pos j)
      have hrest : n / 16 = k / 16 := by
        refine ih (by omega) (by omega) fun i hi => ?_
        rw [Nat.div_div_eq_div_mul, Nat.div_div_eq_div_mul, ← Nat.pow_succ']
        exact h (i + 1) (Nat.succ_lt_succ hi)
      omega

theorem digits_inj {u v : Uuid} (h : u.digits = v.digits) : u = v := by
  have hlt : ∀ w : Uuid, w.bits.toNat < 16 ^ 32 := fun w => w.bits.isLt
  have hbits : u.bits.toNat = v.bits.toNat := by
    refine eq_of_digits (hlt u) (hlt v) fun i hi => ?_
    have hi' : 31 - i ∈ List.range 32 := List.mem_range.mpr (by omega)
    have hdigit := List.map_inj_left.mp h (31 - i) hi'
    have hpos : 31 - (31 - i) = i := by omega
    rw [hpos] at hdigit
    exact Value.digitChar_inj _ (Nat.mod_lt _ (by decide)) _ (Nat.mod_lt _ (by decide)) hdigit
  cases u
  cases v
  exact congrArg Uuid.mk (BitVec.eq_of_toNat_eq hbits)

theorem text_inj {u v : Uuid} (h : u.text = v.text) : u = v := by
  have hlength : u.digits.length = v.digits.length :=
    (length_digits u).trans (length_digits v).symm
  have hchars : u.text.toList = v.text.toList := congrArg String.toList h
  simp only [text, String.toList_ofList, List.append_assoc, List.cons_append] at hchars
  -- The groups have the same lengths, so that they agree one by one.
  obtain ⟨h₁, hchars⟩ := List.append_inj hchars (by simp only [List.length_take, hlength])
  obtain ⟨h₂, hchars⟩ := List.append_inj (List.cons.inj hchars).2
    (by simp only [List.length_take, List.length_drop, hlength])
  obtain ⟨h₃, hchars⟩ := List.append_inj (List.cons.inj hchars).2
    (by simp only [List.length_take, List.length_drop, hlength])
  obtain ⟨h₄, hchars⟩ := List.append_inj (List.cons.inj hchars).2
    (by simp only [List.length_take, List.length_drop, hlength])
  have hgroups : ∀ ds : List Char, ds = ds.take 8 ++ ((ds.drop 8).take 4 ++
      ((ds.drop 12).take 4 ++ ((ds.drop 16).take 4 ++ ds.drop 20))) := by
    intro ds
    have hsplit : ∀ k, (ds.drop k).take 4 ++ ds.drop (k + 4) = ds.drop k := by
      intro k
      rw [← List.drop_drop, List.take_append_drop]
    rw [hsplit 16, hsplit 12, hsplit 8, List.take_append_drop]
  refine digits_inj ?_
  rw [hgroups u.digits, hgroups v.digits, h₁, h₂, h₃, h₄, (List.cons.inj hchars).2]

end Uuid

/-! ## Literals of values -/

namespace Value

open Literal

variable {v w : Value}

/-- The characters of a literal. -/
def chars (v : Value) : List Char := v.literal.toList

def entryChars (e : Value × Value) : List Char := e.1.chars ++ ':' :: ' ' :: e.2.chars

def fieldChars (f : String × Value) : List Char := f.1.toList ++ ':' :: ' ' :: f.2.chars

theorem itemLiterals_eq_map (items : List Value) : itemLiterals items = items.map literal := by
  induction items with
  | nil => rfl
  | cons v rest ih => exact congrArg (v.literal :: ·) ih

theorem entryLiterals_eq_map (entries : List (Value × Value)) :
    entryLiterals entries = entries.map fun e => e.1.literal ++ ": " ++ e.2.literal := by
  induction entries with
  | nil => rfl
  | cons e rest ih => exact congrArg ((e.1.literal ++ ": " ++ e.2.literal) :: ·) ih

theorem fieldLiterals_eq_map (fields : List (String × Value)) :
    fieldLiterals fields = fields.map fun f => f.1 ++ ": " ++ f.2.literal := by
  induction fields with
  | nil => rfl
  | cons f rest ih => exact congrArg ((f.1 ++ ": " ++ f.2.literal) :: ·) ih

/-- The elements of a literal with brackets. -/
theorem toList_bracketed {α : Type} (opening : String) (text : α → String) (close : Char)
    (as : List α) :
    (opening ++ ", ".intercalate (as.map text) ++ String.singleton close).toList =
      opening.toList ++ inside (fun a => (text a).toList) close as := by
  rw [String.toList_append, String.toList_append, List.append_assoc, String.toList_singleton,
    toList_intercalate]

theorem chars_list (items : List Value) :
    (Value.list items).chars = ['['] ++ inside chars ']' items := by
  show ("[" ++ ", ".intercalate (itemLiterals items) ++ "]").toList = _
  rw [itemLiterals_eq_map]
  exact toList_bracketed "[" literal ']' items

theorem chars_set (items : List Value) :
    (Value.set items).chars = ['\x7b'] ++ inside chars '\x7d' items := by
  show ("\x7b" ++ ", ".intercalate (itemLiterals items) ++ "\x7d").toList = _
  rw [itemLiterals_eq_map]
  exact toList_bracketed "\x7b" literal '\x7d' items

theorem chars_tuple (items : List Value) :
    (Value.tuple items).chars = ['('] ++ inside chars ')' items := by
  show ("(" ++ ", ".intercalate (itemLiterals items) ++ ")").toList = _
  rw [itemLiterals_eq_map]
  exact toList_bracketed "(" literal ')' items

theorem chars_token (items : List Value) :
    (Value.token items).chars = ['t', 'o', 'k', 'e', 'n', '('] ++ inside chars ')' items := by
  show ("token(" ++ ", ".intercalate (itemLiterals items) ++ ")").toList = _
  rw [itemLiterals_eq_map]
  exact toList_bracketed "token(" literal ')' items

theorem colon_toList (left right : String) :
    (left ++ ": " ++ right).toList = left.toList ++ ':' :: ' ' :: right.toList := by
  have hcolon : ": ".toList = [':', ' '] := by decide
  rw [String.toList_append, String.toList_append, hcolon, List.append_assoc]
  rfl

theorem chars_map (entries : List (Value × Value)) :
    (Value.map entries).chars = ['\x7b'] ++ inside entryChars '\x7d' entries := by
  have htext : entryChars = fun e => (e.1.literal ++ ": " ++ e.2.literal).toList := by
    funext e
    exact (colon_toList _ _).symm
  show ("\x7b" ++ ", ".intercalate (entryLiterals entries) ++ "\x7d").toList = _
  rw [entryLiterals_eq_map, htext]
  exact toList_bracketed "\x7b" _ '\x7d' entries

theorem chars_udt (fields : List (String × Value)) :
    (Value.udt fields).chars = ['\x7b'] ++ inside fieldChars '\x7d' fields := by
  have htext : fieldChars = fun f => (f.1 ++ ": " ++ f.2.literal).toList := by
    funext f
    exact (colon_toList _ _).symm
  show ("\x7b" ++ ", ".intercalate (fieldLiterals fields) ++ "\x7d").toList = _
  rw [fieldLiterals_eq_map, htext]
  exact toList_bracketed "\x7b" _ '\x7d' fields

theorem chars_text (s : String) :
    (Value.text s).chars = '\'' :: (Text.doubled '\'' s.toList ++ ['\'']) := by
  show (Text.enclosed '\'' s).toList = _
  rw [Text.enclosed, String.toList_ofList]

theorem chars_blob (bytes : List UInt8) :
    (Value.blob bytes).chars = '0' :: 'x' :: bytes.flatMap byteChars := by
  have hprefix : "0x".toList = ['0', 'x'] := by decide
  show ("0x" ++ String.join (bytes.map byteText)).toList = _
  rw [String.toList_append, toList_join_byteText, hprefix]
  rfl

/-! ### What literals begin with -/

theorem chars_null : Value.null.chars = ['N', 'U', 'L', 'L'] := by decide

theorem begins_of_inner {cs : List Char} (hne : cs ≠ []) (h : ∀ c ∈ cs, Inner c) :
    ∃ c r, cs = c :: r ∧ Inner c := by
  obtain ⟨c, r, rfl⟩ := List.exists_cons_of_ne_nil hne
  exact ⟨c, r, rfl, h c (List.mem_cons_self ..)⟩

theorem inner_of_mem_boolean {b : Bool} : ∀ c ∈ (Value.boolean b).chars, Inner c := by
  have hall : (Value.boolean b).chars.all (fun c => decide (Inner c)) = true := by
    cases b <;> decide
  intro c hc
  exact of_decide_eq_true (List.all_eq_true.mp hall c hc)

theorem chars_boolean_ne_nil : ∀ b : Bool, (Value.boolean b).chars ≠ [] := by
  decide

theorem boolean_inj : ∀ a b : Bool, (Value.boolean a).chars = (Value.boolean b).chars → a = b := by
  decide

theorem chars_uuid_ne_nil (u : Uuid) : (Value.uuid u).chars ≠ [] := by
  intro h
  have hlength := congrArg List.length h
  simp [chars, literal, Uuid.text, String.toList_ofList] at hlength

theorem inner_of_mem_blob {bytes : List UInt8} : ∀ c ∈ (Value.blob bytes).chars, Inner c := by
  intro c hc
  rw [chars_blob, List.mem_cons, List.mem_cons] at hc
  rcases hc with rfl | rfl | hc
  · decide
  · decide
  · exact inner_of_mem_bytes hc

/-- Every literal but the null value's begins with a character that tells it from that. -/
theorem begins_of_has {τ : ValueType} (h : τ.Has v) (hnull : v ≠ .null) :
    ∃ c r, v.chars = c :: r ∧ Inner c := by
  cases h with
  | null => exact absurd rfl hnull
  | boolean b => exact begins_of_inner (chars_boolean_ne_nil b) inner_of_mem_boolean
  | int n => exact begins_of_inner (toList_int_ne_nil _) fun c hc => inner_of_mem_int hc
  | bigint n => exact begins_of_inner (toList_int_ne_nil _) fun c hc => inner_of_mem_int hc
  | text s => exact ⟨_, _, chars_text s, by decide⟩
  | uuid u => exact begins_of_inner (chars_uuid_ne_nil u) fun c hc => Uuid.inner_of_mem_text hc
  | blob bytes => exact ⟨_, _, chars_blob bytes, by decide⟩
  | list h => exact ⟨_, _, chars_list _, by decide⟩
  | set h => exact ⟨_, _, chars_set _, by decide⟩
  | map hkeys hvalues => exact ⟨_, _, chars_map _, by decide⟩
  | tuple h => exact ⟨_, _, chars_tuple _, by decide⟩
  | token h => exact ⟨_, _, chars_token _, by decide⟩
  | udt hnames h => exact ⟨_, _, chars_udt _, by decide⟩

theorem starts_of_has {τ : ValueType} (h : τ.Has v) : Starts v.chars := by
  by_cases hnull : v = .null
  · subst hnull
    exact ⟨_, _, chars_null, by decide⟩
  · obtain ⟨c, r, hchars, hc⟩ := begins_of_has h hnull
    exact ⟨c, r, hchars, fun hmem => hc (List.mem_cons_of_mem _ hmem)⟩

theorem starts_entry {κ : ValueType} {e : Value × Value} (h : κ.Has e.1) :
    Starts (entryChars e) := by
  obtain ⟨c, r, hchars, hc⟩ := starts_of_has h
  exact ⟨c, _, congrArg (· ++ _) hchars, hc⟩

/-! ### Parts told apart -/

theorem separable_null {τ : ValueType} (h : τ.Has v) : Separable chars .null v := by
  by_cases hnull : v = .null
  · subst hnull
    intro s t _ _ heq
    exact ⟨rfl, List.append_cancel_left heq⟩
  · obtain ⟨c, r, hchars, hc⟩ := begins_of_has h hnull
    intro s t _ _ heq
    rw [chars_null, hchars] at heq
    refine absurd ?_ hc
    rw [← (List.cons.inj heq).1]
    exact List.mem_cons_self ..

theorem separable_text (a b : String) : Separable chars (.text a) (.text b) := by
  intro s t hs ht heq
  rw [chars_text, chars_text] at heq
  simp only [List.cons_append, List.append_assoc, List.nil_append, List.cons.injEq,
    true_and] at heq
  obtain ⟨htext, hst⟩ := doubled_unique hs.ne_quote ht.ne_quote heq
  exact ⟨congrArg Value.text (String.toList_inj.mp htext), hst⟩

theorem separable_entry {k k' : Value} (hkey : Separable chars k k')
    (hvalue : Separable chars v w) : Separable entryChars (k, v) (k', w) := by
  intro s t hs ht heq
  have hcolon : ∀ {rest : List Char}, Boundary (':' :: rest) := by
    intro rest
    show ':' ∈ delimiters
    decide
  simp only [entryChars, List.append_assoc, List.cons_append] at heq
  obtain ⟨rfl, hrest⟩ := hkey hcolon hcolon heq
  obtain ⟨rfl, hst⟩ := hvalue hs ht (List.cons.inj (List.cons.inj hrest).2).2
  exact ⟨rfl, hst⟩

theorem separable_field {name : String} (hvalue : Separable chars v w) :
    Separable fieldChars (name, v) (name, w) := by
  intro s t hs ht heq
  simp only [fieldChars, List.append_assoc, List.cons_append] at heq
  have hrest := (List.cons.inj (List.cons.inj (List.append_cancel_left heq)).2).2
  obtain ⟨rfl, hst⟩ := hvalue hs ht hrest
  exact ⟨rfl, hst⟩

section Bracketed

variable {α : Type} {make : List α → Value} {opening : List Char} {text : α → List Char}
  {close : Char} {as bs : List α}

/-- Values between the same brackets are told apart when their elements are. -/
theorem separable_of_inside (hchars : ∀ as, (make as).chars = opening ++ inside text close as)
    (hclose : close ∈ delimiters) (hcomma : close ≠ ',')
    (hempty : ∀ {s t}, inside text close as ++ s = inside text close bs ++ t →
      (as = [] ↔ bs = []))
    (h : ∀ p ∈ as.zip bs, Separable text p.1 p.2) : Separable chars (make as) (make bs) := by
  intro s t _ _ heq
  rw [hchars, hchars, List.append_assoc, List.append_assoc] at heq
  have hinside := List.append_cancel_left heq
  obtain ⟨rfl, hst⟩ := inside_unique hclose hcomma h (hempty hinside) hinside
  exact ⟨rfl, hst⟩

/-- Any number of elements, each told from each. -/
theorem separable_of_elements (hchars : ∀ as, (make as).chars = opening ++ inside text close as)
    (hclose : close ∈ delimiters) (hcomma : close ≠ ',') (has : ∀ a ∈ as, Starts (text a))
    (hbs : ∀ b ∈ bs, Starts (text b)) (h : ∀ a ∈ as, ∀ b ∈ bs, Separable text a b) :
    Separable chars (make as) (make bs) := by
  refine separable_of_inside hchars hclose hcomma (empty_iff_of_inside hclose has hbs) ?_
  rintro ⟨a, b⟩ hp
  obtain ⟨ha, hb⟩ := List.of_mem_zip hp
  exact h a ha b hb

/-- Equally many components, each told from the one in its place. -/
theorem separable_of_components (hchars : ∀ as, (make as).chars = opening ++ inside text close as)
    (hclose : close ∈ delimiters) (hcomma : close ≠ ',') (hlength : as.length = bs.length)
    (h : ∀ p ∈ as.zip bs, Separable text p.1 p.2) : Separable chars (make as) (make bs) := by
  have hempty : as = [] ↔ bs = [] := by
    rw [← List.length_eq_zero_iff, ← List.length_eq_zero_iff, hlength]
  exact separable_of_inside hchars hclose hcomma (fun _ => hempty) h

end Bracketed

mutual

/-- Two values of a type are told apart. -/
theorem separable : ∀ (τ : ValueType) {v w : Value}, τ.Has v → τ.Has w → Separable chars v w
  | _, _, _, .null _, hw => separable_null hw
  | _, _, _, hv, .null _ => (separable_null hv).symm
  | _, _, _, .boolean a, .boolean b =>
      .of_inner inner_of_mem_boolean inner_of_mem_boolean fun h =>
        congrArg Value.boolean (boolean_inj a b h)
  | _, _, _, .int n, .int k =>
      .of_inner (fun c hc => inner_of_mem_int hc) (fun c hc => inner_of_mem_int hc) fun h =>
        congrArg Value.int (Int32.toInt_inj.mp (int_inj h))
  | _, _, _, .bigint n, .bigint k =>
      .of_inner (fun c hc => inner_of_mem_int hc) (fun c hc => inner_of_mem_int hc) fun h =>
        congrArg Value.bigint (Int64.toInt_inj.mp (int_inj h))
  | _, _, _, .text a, .text b => separable_text a b
  | _, _, _, .uuid a, .uuid b =>
      .of_inner (fun c hc => Uuid.inner_of_mem_text hc) (fun c hc => Uuid.inner_of_mem_text hc)
        fun h => congrArg Value.uuid (Uuid.text_inj (String.toList_inj.mp h))
  | _, _, _, .blob a, .blob b => by
      refine .of_inner inner_of_mem_blob inner_of_mem_blob fun h => ?_
      rw [chars_blob, chars_blob] at h
      exact congrArg Value.blob (bytes_inj (List.cons.inj (List.cons.inj h).2).2)
  | .list τ, _, _, .list hv, .list hw =>
      separable_of_elements chars_list (by decide) (by decide) (fun a ha => starts_of_has (hv a ha))
        (fun b hb => starts_of_has (hw b hb)) fun a ha b hb => separable τ (hv a ha) (hw b hb)
  | .set τ, _, _, .set hv, .set hw =>
      separable_of_elements chars_set (by decide) (by decide) (fun a ha => starts_of_has (hv a ha))
        (fun b hb => starts_of_has (hw b hb)) fun a ha b hb => separable τ (hv a ha) (hw b hb)
  | .map κ τ, _, _, .map hkeys hvalues, .map hkeys' hvalues' =>
      separable_of_elements chars_map (by decide) (by decide)
        (fun a ha => starts_entry (hkeys a ha)) (fun b hb => starts_entry (hkeys' b hb))
        fun a ha b hb => separable_entry (separable κ (hkeys a ha) (hkeys' b hb))
          (separable τ (hvalues a ha) (hvalues' b hb))
  | .tuple τs, _, _, .tuple hv, .tuple hw =>
      separable_of_components chars_tuple (by decide) (by decide)
        (hv.length_eq.symm.trans hw.length_eq) (separable_components τs hv hw)
  | .token τs, _, _, .token hv, .token hw =>
      separable_of_components chars_token (by decide) (by decide)
        (hv.length_eq.symm.trans hw.length_eq) (separable_components τs hv hw)
  | .udt types, _, _, .udt hnames hv, .udt hnames' hw => by
      have hlength := congrArg List.length (hnames.trans hnames'.symm)
      rw [List.length_map, List.length_map] at hlength
      exact separable_of_components chars_udt (by decide) (by decide) hlength
        (separable_fields types hnames hv hnames' hw)

theorem separable_components : ∀ (τs : List ValueType) {vs ws : List Value},
    List.Forall₂ ValueType.Has τs vs → List.Forall₂ ValueType.Has τs ws →
      ∀ p ∈ vs.zip ws, Separable chars p.1 p.2
  | [], _, _, .nil, .nil => by
      rintro p hp
      exact absurd hp List.not_mem_nil
  | τ :: τs, _, _, .cons hv hvs, .cons hw hws => by
      rintro p hp
      rcases List.mem_cons.mp hp with rfl | hp
      · exact separable τ hv hw
      · exact separable_components τs hvs hws p hp

theorem separable_fields : ∀ (types : List (String × ValueType)) {fs gs : List (String × Value)},
    fs.map Prod.fst = types.map Prod.fst →
    List.Forall₂ ValueType.Has (types.map Prod.snd) (fs.map Prod.snd) →
    gs.map Prod.fst = types.map Prod.fst →
    List.Forall₂ ValueType.Has (types.map Prod.snd) (gs.map Prod.snd) →
      ∀ p ∈ fs.zip gs, Separable fieldChars p.1 p.2
  | [], [], _, _, _, _, _ => by
      rintro p hp
      exact absurd hp List.not_mem_nil
  | (name, τ) :: types, (n, v) :: fs, (n', w) :: gs, hf, .cons hv hvs, hg, .cons hw hws => by
      obtain ⟨rfl, hfs⟩ := List.cons.inj hf
      obtain ⟨rfl, hgs⟩ := List.cons.inj hg
      rintro p hp
      rcases List.mem_cons.mp hp with rfl | hp
      · exact separable_field (separable τ hv hw)
      · exact separable_fields types hfs hvs hgs hws p hp

end

/-- **Literals are uniquely readable.** Of a text that begins with the literal of a value of a known
type and goes on with nothing, or with a mark that can follow a literal, the value is known, and so
is what comes after it: no value ends its literal early or takes in what follows. -/
theorem literal_unique {τ : ValueType} {v w : Value} (hv : τ.Has v) (hw : τ.Has w) {s t : String}
    (hs : Boundary s.toList) (ht : Boundary t.toList)
    (h : v.literal ++ s = w.literal ++ t) : v = w ∧ s = t := by
  have hchars : v.chars ++ s.toList = w.chars ++ t.toList := by
    have hlist := congrArg String.toList h
    rwa [String.toList_append, String.toList_append] at hlist
  obtain ⟨hvw, hst⟩ := separable τ hv hw hs ht hchars
  exact ⟨hvw, String.toList_inj.mp hst⟩

/-- An address, the texts of which hold quotes, brackets and colons. -/
def address : Value :=
  .udt [("street", .text "', \x7dO'Connell"),
    ("codes", .map [(.text "it's: ", .list [.int (-1), .null]), (.text "", .list [])])]

def addressType : ValueType := .udt [("street", .text), ("codes", .map .text (.list .int))]

theorem address_has_type : addressType.Has address := by
  have hnumbers : (ValueType.list .int).Has (.list [.int (-1), .null]) := by
    refine .list fun v hv => ?_
    simp only [List.mem_cons, List.not_mem_nil, or_false] at hv
    rcases hv with rfl | rfl
    · exact .int (-1)
    · exact .null .int
  have hnone : (ValueType.list .int).Has (.list []) := .list fun v hv => absurd hv List.not_mem_nil
  refine .udt rfl (.cons (.text _) (.cons (.map ?_ ?_) .nil))
  · intro e he
    simp only [List.mem_cons, List.not_mem_nil, or_false] at he
    rcases he with rfl | rfl
    · exact .text _
    · exact .text _
  · intro e he
    simp only [List.mem_cons, List.not_mem_nil, or_false] at he
    rcases he with rfl | rfl
    · exact hnumbers
    · exact hnone

theorem literal_unique_address :
    address.literal =
        "\x7bstreet: ''', \x7dO''Connell', codes: \x7b'it''s: ': [-1, NULL], '': []\x7d\x7d" ∧
      address = address ∧ "; END" = "; END" := by
  refine ⟨by decide +kernel, ?_⟩
  exact literal_unique address_has_type address_has_type (by decide) (by decide) rfl

end Value

end TypedCql
