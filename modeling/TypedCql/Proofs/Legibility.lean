import TypedCql.Proofs.Mapping
import TypedCql.Proofs.Rendering
import TypedCql.Proofs.Splitting
import TypedCql.Proofs.Symbols

/-!
# Reading conditions back

The text of a condition and the values beside it determine the symbols it was written with, if the
names of the columns are legible: between quotes any name is, and without them one that holds no
blank and no closing bracket and is not itself a question mark. Without that a name could show what
looks like two names and a comparison.

Operands and operators take turns, so a reader always knows which of the two to expect
(`Sentence`). An operator begins with a blank, the end of a negation is a bracket, and so every
operand ends where the first of these or the end of the text is met.
-/

namespace TypedCql

/-! ## Legible names -/

/-- Names by which columns can be told apart in a condition: any between quotes, and without them
those that no blank or closing bracket ends early and that are no placeholder. -/
def Mapping.Legible (m : Mapping) : Prop :=
  m.caseSensitive = true ∨
    ∀ col ∈ m.columns, ' ' ∉ col.name.toList ∧ ')' ∉ col.name.toList ∧ col.name ≠ "?"

/-- What can stand after an operand: nothing, the end of a negation, or an operator. -/
inductive Delimited : List Char → Prop
  | nil : Delimited []
  | close (rest : List Char) : Delimited (')' :: rest)
  | blank {c : Char} (h : c ≠ '(') (rest : List Char) : Delimited (' ' :: c :: rest)

/-- The characters of an unquoted operand. -/
def InName (c : Char) : Prop := c ≠ ' ' ∧ c ≠ ')'

theorem Delimited.not_inName {u : List Char} (h : Delimited u) :
    ∀ c r, u = c :: r → ¬InName c := by
  rintro c r rfl ⟨hblank, hclose⟩
  cases h with
  | close => exact hclose rfl
  | blank => exact hblank rfl

theorem Delimited.ne_quote {u : List Char} (h : Delimited u) :
    ∀ c r, u = c :: r → c ≠ '"' := by
  rintro c r rfl
  cases h with
  | close => decide
  | blank => decide

namespace Mapping

variable {m : Mapping} {left right : Column} {u v : List Char}

/-- The text of a column's name. -/
def nameChars (m : Mapping) (name : String) : List Char := (m.identifier name).text.toList

theorem nameChars_of_quoted (h : m.caseSensitive = true) (name : String) :
    m.nameChars name = '"' :: (Text.doubled '"' name.toList ++ ['"']) := by
  unfold nameChars identifier Identifier.text Text.enclosed
  simp only [h, if_true, String.toList_ofList]

theorem nameChars_of_unquoted (h : ¬m.caseSensitive = true) (name : String) :
    m.nameChars name = name.toList := by
  unfold nameChars identifier Identifier.text
  simp only [h]
  rfl

theorem Legible.inName (h : m.Legible) (hquoted : ¬m.caseSensitive = true)
    (hcol : left ∈ m.columns) : ∀ c ∈ left.name.toList, InName c := by
  intro c hc
  obtain ⟨hblank, hclose, -⟩ := (h.resolve_left hquoted) left hcol
  exact ⟨fun heq => hblank (heq ▸ hc), fun heq => hclose (heq ▸ hc)⟩

/-- The names of two columns are read back. -/
theorem Legible.name_unique (h : m.Legible) (hleft : left ∈ m.columns) (hright : right ∈ m.columns)
    (hu : Delimited u) (hv : Delimited v)
    (heq : m.nameChars left.name ++ u = m.nameChars right.name ++ v) :
    left.name = right.name ∧ u = v := by
  by_cases hquoted : m.caseSensitive = true
  · rw [nameChars_of_quoted hquoted, nameChars_of_quoted hquoted] at heq
    simp only [List.cons_append, List.append_assoc, List.nil_append] at heq
    obtain ⟨hname, huv⟩ := doubled_unique hu.ne_quote hv.ne_quote (List.cons.inj heq).2
    exact ⟨String.toList_inj.mp hname, huv⟩
  · rw [nameChars_of_unquoted hquoted, nameChars_of_unquoted hquoted] at heq
    obtain ⟨hname, huv⟩ := split_unique (h.inName hquoted hleft) (h.inName hquoted hright)
      hu.not_inName hv.not_inName heq
    exact ⟨String.toList_inj.mp hname, huv⟩

/-- A name is not taken for a placeholder. -/
theorem Legible.name_ne_mark (h : m.Legible) (hleft : left ∈ m.columns) (hu : Delimited u)
    (hv : Delimited v) : m.nameChars left.name ++ u ≠ '?' :: v := by
  intro heq
  by_cases hquoted : m.caseSensitive = true
  · rw [nameChars_of_quoted hquoted] at heq
    exact absurd (List.cons.inj heq).1 (by decide)
  · rw [nameChars_of_unquoted hquoted] at heq
    have hmark : ∀ c ∈ ['?'], InName c := by
      intro c hc
      rw [List.mem_singleton] at hc
      subst hc
      exact ⟨by decide, by decide⟩
    obtain ⟨hname, -⟩ := split_unique (h.inName hquoted hleft) hmark hu.not_inName hv.not_inName
      (t := ['?']) heq
    refine ((h.resolve_left hquoted) left hleft).2.2 (String.toList_inj.mp (hname.trans ?_))
    decide

/-- A name is not taken for the start of a negation: no blank in it, and no bracket after it. -/
theorem Legible.name_ne_not (h : m.Legible) (hleft : left ∈ m.columns) (hu : Delimited u) :
    m.nameChars left.name ++ u ≠ "NOT (".toList ++ v := by
  intro heq
  by_cases hquoted : m.caseSensitive = true
  · rw [nameChars_of_quoted hquoted] at heq
    exact absurd (List.cons.inj heq).1 (by decide)
  · rw [nameChars_of_unquoted hquoted] at heq
    have hnot : ∀ c ∈ ['N', 'O', 'T'], InName c := by
      intro c hc
      simp only [List.mem_cons, List.not_mem_nil, or_false] at hc
      rcases hc with rfl | rfl | rfl <;> exact ⟨by decide, by decide⟩
    have hblank : ∀ c r, ' ' :: '(' :: v = c :: r → ¬InName c := by
      rintro c r hcr ⟨hne, -⟩
      exact hne (List.cons.inj hcr).1.symm
    obtain ⟨-, hrest⟩ := split_unique (h.inName hquoted hleft) hnot hu.not_inName hblank
      (t := ['N', 'O', 'T']) heq
    rw [hrest] at hu
    cases hu with
    | blank hbracket => exact hbracket rfl

end Mapping

/-! ## The text of symbols -/

namespace Symbol

/-- The text of some symbols with placeholders. -/
def chars (m : Mapping) (symbols : List Symbol) : List Char :=
  ((fragments m symbols).text .placeholder).toList

/-- The values of some symbols. -/
def params (m : Mapping) (symbols : List Symbol) : List Value := (fragments m symbols).values

/-- The operators that stand in conditions. -/
def operators : List BinaryOp := [.eq, .ne, .gt, .gte, .lt, .lte, .and]

def tagChars (op : BinaryOp) : List Char := (op.cql?.getD "").toList

variable {m : Mapping} {rest : List Symbol}

theorem chars_cons (m : Mapping) (s : Symbol) (rest : List Symbol) :
    chars m (s :: rest) = ((s.fragment m).text .placeholder).toList ++ chars m rest := by
  show ((s.fragment m ++ fragments m rest).text .placeholder).toList = _
  rw [Fragment.text_append, String.toList_append]
  rfl

theorem chars_nil (m : Mapping) : chars m [] = [] := rfl

theorem params_cons (m : Mapping) (s : Symbol) (rest : List Symbol) :
    params m (s :: rest) = (s.fragment m).values ++ params m rest :=
  Fragment.values_append _ _

theorem fragment_column {member : String} {col : Column} (h : m.column? member = some col) :
    (Symbol.column member).fragment m = [.name (m.identifier col.name)] :=
  Mapping.columnFragment_eq h

/-- The text of a piece that stands alone. -/
theorem piece_toList (piece : Piece) :
    (Fragment.text .placeholder [piece]).toList = (piece.text .placeholder).toList := by
  rw [Fragment.text_cons, Fragment.text_nil, String.append_empty]

theorem chars_column {member : String} {col : Column} (h : m.column? member = some col) :
    chars m (.column member :: rest) = m.nameChars col.name ++ chars m rest := by
  rw [chars_cons, fragment_column h, piece_toList]
  rfl

theorem chars_value (v : Value) : chars m (.value v :: rest) = '?' :: chars m rest := by
  have hmark : (Piece.text .placeholder (.value v)).toList = ['?'] := Fragment.mark_toList
  rw [chars_cons]
  show (Fragment.text .placeholder [.value v]).toList ++ _ = _
  rw [piece_toList, hmark]
  rfl

theorem chars_operator (op : BinaryOp) :
    chars m (.operator op :: rest) = ' ' :: (tagChars op ++ ' ' :: chars m rest) := by
  have hblank : " ".toList = [' '] := by decide
  rw [chars_cons]
  show (Fragment.text .placeholder [.verbatim (" " ++ op.cql?.getD "" ++ " ")]).toList ++ _ = _
  rw [piece_toList]
  show (" " ++ op.cql?.getD "" ++ " ").toList ++ _ = _
  rw [String.toList_append, String.toList_append, hblank]
  simp only [List.cons_append, List.nil_append, List.append_assoc, tagChars]

theorem chars_openNot : chars m (.openNot :: rest) = "NOT (".toList ++ chars m rest := by
  rw [chars_cons]
  show (Fragment.text .placeholder [.verbatim "NOT ("]).toList ++ _ = _
  rw [piece_toList]
  rfl

theorem chars_close : chars m (.close :: rest) = ')' :: chars m rest := by
  have hclose : (Piece.text .placeholder (.verbatim ")")).toList = [')'] := by decide
  rw [chars_cons]
  show (Fragment.text .placeholder [.verbatim ")"]).toList ++ _ = _
  rw [piece_toList, hclose]
  rfl

theorem params_column {member : String} {col : Column} (h : m.column? member = some col) :
    params m (.column member :: rest) = params m rest := by
  rw [params_cons, fragment_column h]
  rfl

/-- A tag has no blank, does not begin like a bracket, and tells the operator. -/
theorem tagChars_start {op : BinaryOp} (h : op ∈ operators) :
    ∃ c r, tagChars op = c :: r ∧ c ≠ '(' ∧ ∀ x ∈ tagChars op, x ≠ ' ' := by
  have hbracket : ∀ op ∈ operators, (tagChars op).headD '(' ≠ '(' := by decide
  have hblank : ∀ op ∈ operators, ' ' ∉ tagChars op := by decide
  have hhead := hbracket op h
  cases htag : tagChars op with
  | nil =>
      rw [htag] at hhead
      exact absurd rfl hhead
  | cons c r =>
      rw [htag] at hhead
      refine ⟨c, r, rfl, hhead, fun x hx heq => ?_⟩
      rw [← htag, heq] at hx
      exact hblank op h hx

theorem tagChars_inj : ∀ a ∈ operators, ∀ b ∈ operators, tagChars a = tagChars b → a = b := by
  decide

theorem tag_unique {a b : BinaryOp} (ha : a ∈ operators) (hb : b ∈ operators) {u v : List Char}
    (h : tagChars a ++ ' ' :: u = tagChars b ++ ' ' :: v) : tagChars a = tagChars b ∧ u = v := by
  obtain ⟨-, -, -, -, hleft⟩ := tagChars_start ha
  obtain ⟨-, -, -, -, hright⟩ := tagChars_start hb
  have hblank : ∀ {r : List Char} (c s), ' ' :: r = c :: s → ¬c ≠ ' ' := fun c s hcs hne =>
    hne (List.cons.inj hcs).1.symm
  obtain ⟨htag, hrest⟩ := split_unique hleft hright hblank hblank h
  exact ⟨htag, (List.cons.inj hrest).2⟩

end Symbol

/-! ## Sentences -/

/-- What comes next when a condition is read. -/
inductive Turn
  | operand
  | operator

/-- The sequences of symbols in which operands and operators take turns. -/
inductive Mapping.Sentence (m : Mapping) : Turn → List Symbol → Prop
  | nil : m.Sentence .operator []
  | close {rest} (h : m.Sentence .operator rest) : m.Sentence .operator (.close :: rest)
  | operator {op rest} (hop : op ∈ Symbol.operators) (h : m.Sentence .operand rest) :
      m.Sentence .operator (.operator op :: rest)
  | openNot {rest} (h : m.Sentence .operand rest) : m.Sentence .operand (.openNot :: rest)
  | column {member col rest} (hcol : m.column? member = some col)
      (h : m.Sentence .operator rest) : m.Sentence .operand (.column member :: rest)
  | value {v rest} (h : m.Sentence .operator rest) : m.Sentence .operand (.value v :: rest)

namespace Mapping

variable {m : Mapping}

theorem Sentence.binary {op : BinaryOp} {left right rest : List Symbol}
    (hleft : ∀ {rest}, m.Sentence .operator rest → m.Sentence .operand (left ++ rest))
    (hright : ∀ {rest}, m.Sentence .operator rest → m.Sentence .operand (right ++ rest))
    (hrest : m.Sentence .operator rest) :
    m.Sentence .operand ((left ++ Symbol.ofOp op :: right) ++ rest) := by
  have hop : (if op.isComparison then op else .and) ∈ Symbol.operators := by
    cases op <;> decide
  rw [List.append_assoc, List.cons_append]
  exact hleft (.operator hop (hright hrest))

/-- The symbols of a predicate are an operand to what comes after it. -/
theorem PredicateOf.sentence {e : Expr} (h : m.PredicateOf e) {symbols rest : List Symbol}
    (hsymbols : e.symbols = .ok symbols) (hrest : m.Sentence .operator rest) :
    m.Sentence .operand (symbols ++ rest) := by
  induction h generalizing symbols rest with
  | @column member h =>
      obtain ⟨col, hcol⟩ := Option.isSome_iff_exists.mp h
      rw [← Except.ok.inj hsymbols]
      exact .column hcol hrest
  | value h =>
      rw [← Except.ok.inj hsymbols]
      exact .value hrest
  | compare hop hl hr ihl ihr =>
      obtain ⟨left, right, hleft, hright, rfl⟩ := Expr.symbols_binary_eq_ok.mp hsymbols
      exact Sentence.binary (fun h => ihl hleft h) (fun h => ihr hright h) hrest
  | and hop hl hr ihl ihr =>
      obtain ⟨left, right, hleft, hright, rfl⟩ := Expr.symbols_binary_eq_ok.mp hsymbols
      exact Sentence.binary (fun h => ihl hleft h) (fun h => ihr hright h) hrest
  | not h ih =>
      rcases Expr.symbols_not_cases hsymbols with ⟨inner, hinner, rfl⟩ | ⟨-, v, -, rfl⟩
      · rw [List.cons_append, List.append_assoc]
        exact .openNot (ih hinner (.close hrest))
      · exact .value hrest
  | convert h ih => exact ih hsymbols hrest

theorem Sentence.delimited {symbols : List Symbol} (h : m.Sentence .operator symbols) :
    Delimited (Symbol.chars m symbols) := by
  cases h with
  | nil => exact .nil
  | close h =>
      rw [Symbol.chars_close]
      exact .close _
  | operator hop h =>
      obtain ⟨c, r, htag, hc, -⟩ := Symbol.tagChars_start hop
      rw [Symbol.chars_operator, htag]
      exact .blank hc _

/-- **Legible conditions.** The text and the values determine the symbols. -/
theorem Sentence.unique (hm : m.Legible)
    (hmember : ∀ {a b left right}, m.column? a = some left → m.column? b = some right →
      left.name = right.name → a = b) {turn : Turn} {as bs : List Symbol}
    (ha : m.Sentence turn as) (hb : m.Sentence turn bs)
    (hchars : Symbol.chars m as = Symbol.chars m bs)
    (hparams : Symbol.params m as = Symbol.params m bs) : as = bs := by
  -- By induction on the first sentence. Unless the second one begins with a symbol of the same
  -- kind, the texts differ at once; names are the exception, and legibility is there for them.
  induction ha generalizing bs with
  | nil =>
      cases hb with
      | nil => rfl
      | close =>
          rw [Symbol.chars_nil, Symbol.chars_close] at hchars
          exact nomatch hchars
      | operator =>
          rw [Symbol.chars_nil, Symbol.chars_operator] at hchars
          exact nomatch hchars
  | close h ih =>
      rw [Symbol.chars_close] at hchars
      cases hb with
      | nil => exact nomatch hchars
      | close h' =>
          rw [Symbol.chars_close] at hchars
          exact congrArg _ (ih h' (List.cons.inj hchars).2 hparams)
      | operator =>
          rw [Symbol.chars_operator] at hchars
          exact absurd (List.cons.inj hchars).1 (by decide)
  | @operator op rest hop h ih =>
      rw [Symbol.chars_operator] at hchars
      cases hb with
      | nil => exact nomatch hchars
      | close =>
          rw [Symbol.chars_close] at hchars
          exact absurd (List.cons.inj hchars).1 (by decide)
      | @operator op' rest' hop' h' =>
          rw [Symbol.chars_operator] at hchars
          obtain ⟨htag, hrest⟩ := Symbol.tag_unique hop hop' (List.cons.inj hchars).2
          rw [Symbol.tagChars_inj op hop op' hop' htag, ih h' hrest hparams]
  | openNot h ih =>
      rw [Symbol.chars_openNot] at hchars
      cases hb with
      | openNot h' =>
          rw [Symbol.chars_openNot] at hchars
          exact congrArg _ (ih h' (List.append_cancel_left hchars) hparams)
      | column hcol' h' =>
          rw [Symbol.chars_column hcol'] at hchars
          exact absurd hchars.symm (hm.name_ne_not (column?_mem hcol') h'.delimited)
      | value =>
          rw [Symbol.chars_value] at hchars
          exact absurd (List.cons.inj hchars).1 (by decide)
  | column hcol h ih =>
      rw [Symbol.chars_column hcol] at hchars
      cases hb with
      | openNot =>
          rw [Symbol.chars_openNot] at hchars
          exact absurd hchars (hm.name_ne_not (column?_mem hcol) h.delimited)
      | column hcol' h' =>
          rw [Symbol.chars_column hcol'] at hchars
          rw [Symbol.params_column hcol, Symbol.params_column hcol'] at hparams
          obtain ⟨hname, hrest⟩ := hm.name_unique (column?_mem hcol) (column?_mem hcol')
            h.delimited h'.delimited hchars
          rw [hmember hcol hcol' hname, ih h' hrest hparams]
      | value h' =>
          rw [Symbol.chars_value] at hchars
          exact absurd hchars (hm.name_ne_mark (column?_mem hcol) h.delimited h'.delimited)
  | value h ih =>
      rw [Symbol.chars_value] at hchars
      cases hb with
      | openNot =>
          rw [Symbol.chars_openNot] at hchars
          exact absurd (List.cons.inj hchars).1 (by decide)
      | column hcol' h' =>
          rw [Symbol.chars_column hcol'] at hchars
          exact absurd hchars.symm (hm.name_ne_mark (column?_mem hcol') h'.delimited h.delimited)
      | value h' =>
          rw [Symbol.chars_value] at hchars
          obtain ⟨hv, hvalues⟩ := List.cons.inj hparams
          rw [hv, ih h' (List.cons.inj hchars).2 hvalues]

end Mapping

end TypedCql
