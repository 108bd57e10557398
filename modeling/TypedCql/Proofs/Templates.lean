import Mathlib.Data.List.Chain
import Mathlib.Data.List.OfFn
import TypedCql.Proofs.QuotedNames
import TypedCql.Proofs.Rendering
import TypedCql.Query.Table

/-!
# Templates

A statement on a table does not look into the names of the table. To say so, all tables are taken at
once that differ from one in names only, each quoting its names: the variants of the table. What is
built of their names is a family, one fragment for each variant, and a family is `Templated` when
its fragments are one template, the same for all variants, in which every name is given by the place
it comes from.

A template keeps its names apart: of two pieces that follow each other one is no name. This is what
lets a reader find the names in the text of any variant, each in its place (`scan_template`).
-/

namespace TypedCql

/-! ## Tables under other names -/

def Column.unnamed (c : Column) : Column := { c with name := "" }

/-- The second table is the first one under other names: of its own, of its keyspace, if there is
one, and of its columns. -/
structure Table.Renames (t t' : Table) : Prop where
  columns : t'.mapping.columns.map Column.unnamed = t.mapping.columns.map Column.unnamed
  keyspace : t'.keyspace.isSome = t.keyspace.isSome
  caseSensitive : t'.mapping.caseSensitive = t.mapping.caseSensitive
  allowFiltering : t'.mapping.allowFiltering = t.mapping.allowFiltering

theorem Table.Renames.refl (t : Table) : t.Renames t := ⟨rfl, rfl, rfl, rfl⟩

/-- A table under other names, which it quotes. -/
structure Table.Variant (t₀ : Table) where
  table : Table
  renames : t₀.Renames table
  quoted : table.mapping.caseSensitive = true

/-- Where a name in a statement comes from. -/
inductive NameSource
  | keyspace
  | table
  | column (index : Nat)
  /-- The query itself, which can give the name of a key of the order as a text. -/
  | order (name : String)
  deriving DecidableEq

/-- The name that a table has for a place. -/
def Table.nameOf (t : Table) : NameSource → String
  | .keyspace => t.keyspace.getD ""
  | .table => t.name
  | .column i => (t.mapping.columns[i]?.map Column.name).getD ""
  | .order name => name

/-- The places that a table has names for, and the order if it is one of the names `N`. -/
inductive Table.Sources (t : Table) (N : String → Prop) : NameSource → Prop
  | keyspace (h : t.keyspace.isSome = true) : Sources t N .keyspace
  | table : Sources t N .table
  | column {i : Nat} (h : i < t.mapping.columns.length) : Sources t N (.column i)
  | order {name : String} (h : N name) : Sources t N (.order name)

/-! ## Templates -/

/-- A piece of a statement with the place of a name where the name will be. -/
inductive Template
  | text (t : String)
  /-- The name of the table, after that of its keyspace. -/
  | table
  | name (source : NameSource)
  | value (v : Value)

/-- A fixed text that shows neither a quote nor a question mark. -/
def Plain (t : String) : Prop := t ≠ "" ∧ '"' ∉ t.toList ∧ '?' ∉ t.toList

instance (t : String) : Decidable (Plain t) :=
  inferInstanceAs (Decidable (t ≠ "" ∧ '"' ∉ t.toList ∧ '?' ∉ t.toList))

namespace Template

/-- Whether the piece stands between quotes. -/
def quoted : Template → Bool
  | .table | .name _ => true
  | _ => false

/-- The piece with the names of a table. -/
def piece (t : Table) : Template → Piece
  | .text s => .verbatim s
  | .table => .verbatim t.qualifiedName
  | .name source => .name (t.mapping.identifier (t.nameOf source))
  | .value v => .value v

def value? : Template → Option Value
  | .value v => some v
  | _ => none

/-- What the piece is read as. -/
def tokens (t : Table) : Template → List (Token NameSource)
  | .text s => s.toList.map .outside
  | .table =>
    if t.keyspace.isSome then [.name .keyspace, .outside '.', .name .table] else [.name .table]
  | .name source => [.name source]
  | .value _ => [.outside '?']

/-- The pieces that a statement on a table is made of. -/
inductive Valid (t : Table) (N : String → Prop) : Template → Prop
  | text {s : String} (h : Plain s) : Valid t N (.text s)
  | table : Valid t N .table
  | name {source : NameSource} (h : t.Sources N source) : Valid t N (.name source)
  | value (v : Value) : Valid t N (.value v)

/-- Valid pieces, of which no two that are quoted follow each other. -/
structure WellFormed (t : Table) (N : String → Prop) (l : List Template) : Prop where
  valid : ∀ x ∈ l, x.Valid t N
  spaced : l.IsChain fun a b => a.quoted = true → b.quoted = false

/-- A quoted piece can follow. -/
def Ready (l : List Template) : Prop := ∀ x ∈ l.getLast?, x.quoted = false

/-- It can follow a quoted piece. -/
def Leading (l : List Template) : Prop := ∀ x ∈ l.head?, x.quoted = false

variable {t₀ : Table} {N : String → Prop} {l l' : List Template}

theorem WellFormed.one {x : Template} (h : x.Valid t₀ N) : WellFormed t₀ N [x] where
  valid y hy := by
    rw [List.mem_singleton] at hy
    exact hy ▸ h
  spaced := .singleton x

theorem WellFormed.append (h : WellFormed t₀ N l) (h' : WellFormed t₀ N l')
    (hgap : Ready l ∨ Leading l') : WellFormed t₀ N (l ++ l') where
  valid := List.forall_mem_append.mpr ⟨h.valid, h'.valid⟩
  spaced := by
    refine List.isChain_append.mpr ⟨h.spaced, h'.spaced, fun a ha b hb hquoted => ?_⟩
    rcases hgap with hready | hleading
    · rw [hready a ha] at hquoted
      exact absurd hquoted Bool.false_ne_true
    · exact hleading b hb

theorem WellFormed.tail {x : Template} (h : WellFormed t₀ N (x :: l)) : WellFormed t₀ N l where
  valid y hy := h.valid y (List.mem_cons_of_mem _ hy)
  spaced := (List.isChain_cons.mp h.spaced).2

/-- After a quoted piece comes one that is not. -/
theorem WellFormed.leading {x : Template} (h : WellFormed t₀ N (x :: l)) (hx : x.quoted = true) :
    Leading l :=
  fun y hy => (List.isChain_cons.mp h.spaced).1 y hy hx

/-! ## Reading a template back -/

section Reading

variable (v : t₀.Variant)

/-- The text of the piece. -/
def chars (x : Template) : List Char := ((x.piece v.table).text .placeholder).toList

theorem chars_name (source : NameSource) :
    (Template.name source).chars v = (Text.enclosed '"' (v.table.nameOf source)).toList := by
  show (Identifier.text ⟨_, v.table.mapping.caseSensitive⟩).toList = _
  rw [v.quoted]
  rfl

theorem chars_table :
    Template.table.chars v =
      if t₀.keyspace.isSome then
        (Text.enclosed '"' (v.table.nameOf .keyspace)).toList ++
          '.' :: (Text.enclosed '"' (v.table.nameOf .table)).toList
      else (Text.enclosed '"' (v.table.nameOf .table)).toList := by
  show (Identifier.qualified v.table.keyspace v.table.name v.table.mapping.caseSensitive).toList = _
  rw [v.quoted, ← v.renames.keyspace]
  unfold Table.nameOf
  cases v.table.keyspace with
  | none => rfl
  | some keyspace => exact toList_qualified_some keyspace v.table.name

theorem chars_value (value : Value) : (Template.value value).chars v = ['?'] := Fragment.mark_toList

omit v in
theorem enclosed_ne_nil (mark : Char) (text : String) : (Text.enclosed mark text).toList ≠ [] := by
  rw [Text.enclosed, String.toList_ofList]
  exact List.cons_ne_nil _ _

theorem chars_ne_nil {x : Template} (h : x.Valid t₀ N) : x.chars v ≠ [] := by
  cases h with
  | text h => exact fun hnil => h.1 (String.toList_inj.mp hnil)
  | table =>
      rw [chars_table]
      split
      · exact List.append_ne_nil_of_left_ne_nil (enclosed_ne_nil _ _) _
      · exact enclosed_ne_nil _ _
  | name h =>
      rw [chars_name]
      exact enclosed_ne_nil _ _
  | value value =>
      rw [chars_value]
      exact List.cons_ne_nil '?' []

/-- Only names show quotes. -/
theorem quote_not_mem_chars {x : Template} (h : x.Valid t₀ N) (hx : x.quoted = false) :
    '"' ∉ x.chars v := by
  cases h with
  | text h => exact h.2.1
  | table => exact nomatch hx
  | name h => exact nomatch hx
  | value value =>
      rw [chars_value]
      decide

/-- The text of some pieces. -/
def charsAll (l : List Template) : List Char := l.flatMap (chars v)

theorem charsAll_eq (l : List Template) :
    charsAll v l = (Fragment.text .placeholder (l.map (piece v.table))).toList := by
  induction l with
  | nil => rfl
  | cons x l ih =>
      rw [List.map_cons, Fragment.text_cons, String.toList_append, ← ih]
      rfl

theorem charsAll_ne_quote (h : WellFormed t₀ N l) (hl : Leading l) :
    ∀ c r, charsAll v l = c :: r → c ≠ '"' := by
  cases l with
  | nil => exact fun _ _ hnil => (nomatch hnil)
  | cons x l =>
      have hvalid := h.valid x (List.mem_cons_self ..)
      obtain ⟨d, cs, hx⟩ := List.exists_cons_of_ne_nil (chars_ne_nil v hvalid)
      rintro c r heq rfl
      rw [charsAll, List.flatMap_cons, hx] at heq
      refine quote_not_mem_chars v hvalid (hl x rfl) ?_
      rw [hx, (List.cons.inj heq).1]
      exact List.mem_cons_self ..

/-- A piece is read as its tokens, if what comes after it does not begin with a quote. -/
theorem scan_piece {x : Template} (h : x.Valid t₀ N) {rest : List Char}
    (hrest : x.quoted = true → ∀ c r, rest = c :: r → c ≠ '"') :
    scan .outside (x.chars v ++ rest) =
      (scan .outside rest).map (((x.tokens t₀).map (Token.map v.table.nameOf)) ++ ·) := by
  cases h with
  | @text s h =>
      have htokens : ((Template.text s).tokens t₀).map (Token.map v.table.nameOf) =
          s.toList.map .outside := by
        rw [tokens, List.map_map]
        rfl
      rw [htokens]
      exact scan_text h.2.1 rest
  | table =>
      rw [chars_table, tokens]
      split
      · have hnext : ∀ {cs : List Char} (c r), '.' :: cs = c :: r → c ≠ '"' := by
          rintro cs c r heq rfl
          exact absurd (List.cons.inj heq).1 (by decide)
        rw [List.append_assoc, List.cons_append, scan_enclosed hnext, scan, if_neg (by decide),
          scan_enclosed (hrest rfl), Option.map_map, Option.map_map]
        rfl
      · rw [scan_enclosed (hrest rfl)]
        rfl
  | @name source h =>
      rw [chars_name, scan_enclosed (hrest rfl)]
      rfl
  | value value =>
      have hquote : '"' ∉ ['?'] := by decide
      rw [chars_value]
      exact scan_text hquote rest

/-- **Reading back.** In every variant a template is read as its tokens, under the names that the
variant has for their places. -/
theorem scan_template (h : WellFormed t₀ N l) :
    scan .outside (charsAll v l) =
      some ((l.flatMap (tokens t₀)).map (Token.map v.table.nameOf)) := by
  induction l with
  | nil => rfl
  | cons x l ih =>
      have hrest : x.quoted = true → ∀ c r, charsAll v l = c :: r → c ≠ '"' := fun hx =>
        charsAll_ne_quote v h.tail (h.leading hx)
      show scan .outside (x.chars v ++ charsAll v l) = _
      rw [scan_piece v (h.valid x (List.mem_cons_self ..)) hrest, ih h.tail, List.flatMap_cons,
        List.map_append]
      rfl

end Reading

/-- The names that are read come from the table and the order. -/
theorem sources_of_mem_tokens (h : WellFormed t₀ N l) {source : NameSource}
    (hmem : .name source ∈ l.flatMap (tokens t₀)) : t₀.Sources N source := by
  obtain ⟨x, hx, hmem⟩ := List.mem_flatMap.mp hmem
  have hvalid := h.valid x hx
  cases hvalid with
  | text h =>
      obtain ⟨c, -, hc⟩ := List.mem_map.mp hmem
      exact nomatch hc
  | table =>
      rw [tokens] at hmem
      split at hmem
      · next hkeyspace =>
          simp only [List.mem_cons, Token.name.injEq, reduceCtorEq, List.not_mem_nil, false_or,
            or_false] at hmem
          rcases hmem with rfl | rfl
          · exact .keyspace hkeyspace
          · exact .table
      · rw [List.mem_singleton, Token.name.injEq] at hmem
        exact hmem ▸ .table
  | name h =>
      rw [tokens, List.mem_singleton, Token.name.injEq] at hmem
      exact hmem ▸ h
  | value v =>
      rw [tokens, List.mem_singleton] at hmem
      exact nomatch hmem

theorem count_piece {x : Template} (h : x.Valid t₀ N) :
    (x.tokens t₀).count (.outside '?') = x.value?.toList.length := by
  cases h with
  | text h =>
      refine List.count_eq_zero.mpr fun hmem => h.2.2 ?_
      obtain ⟨c, hc, hmark⟩ := List.mem_map.mp hmem
      exact Token.outside.inj hmark ▸ hc
  | table =>
      rw [tokens]
      split <;> rfl
  | name h => rfl
  | value v => rfl

/-- Outside names there is a question mark for each value. -/
theorem count_tokens (h : WellFormed t₀ N l) :
    (l.flatMap (tokens t₀)).count (.outside '?') = (l.filterMap value?).length := by
  rw [List.filterMap_eq_flatMap_toList, List.count_flatMap, List.length_flatMap]
  exact congrArg List.sum (List.map_congr_left fun x hx => count_piece (h.valid x hx))

theorem values_map_piece (t : Table) (l : List Template) :
    Fragment.values (l.map (piece t)) = l.filterMap value? := by
  rw [Fragment.values, List.filterMap_map]
  refine List.filterMap_congr fun x _ => ?_
  cases x <;> rfl

/-- What shows at all shows in every variant. -/
theorem isBlank_map_piece (h : WellFormed t₀ N l) (v : t₀.Variant) :
    Fragment.isBlank (l.map (piece v.table)) = l.isEmpty := by
  cases l with
  | nil => rfl
  | cons x l =>
      have hx : (x.piece v.table).isBlank = false := by
        rw [Piece.isBlank_eq_isEmpty .placeholder, Bool.eq_false_iff]
        intro hempty
        refine chars_ne_nil v (h.valid x (List.mem_cons_self ..)) ?_
        rw [chars, String.isEmpty_iff.mp hempty]
        rfl
      rw [List.map_cons, Fragment.isBlank, List.all_cons, hx]
      rfl

end Template

end TypedCql
