import TypedCql.Proofs.TypeReading
import TypedCql.Statement.Create

/-!
# Canonical types

The text of a type need not read back as the type: a type of a user's may have the name of a scalar,
a tuple may be empty, and a frozen type frozen again is written like one that is read as frozen
once. `Canonical` leaves out exactly those. The text of a canonical type spells it (`spells_text`),
whatever is read is canonical (`Spells.canonical`), and freezing in any of the ways that the
definition of a column knows leads from canonical types to canonical types.
-/

namespace TypedCql

namespace Scalar

theorem mem_all (s : Scalar) : s ∈ all := by
  cases s <;> decide

theorem ofName?_name (s : Scalar) : ofName? s.name = some s := by
  cases s <;> decide

theorem ofName?_eq_none {name : String} : ofName? name = none ↔ ∀ s : Scalar, s.name ≠ name := by
  rw [ofName?, List.find?_eq_none]
  constructor
  · intro h s hs
    exact h s s.mem_all (beq_iff_eq.mpr hs)
  · intro h s _ hs
    exact h s (beq_iff_eq.mp hs)

end Scalar

namespace ColumnType

/-! ## Canonical types -/

/-- Whether the type is frozen as a whole. -/
def IsFrozen : ColumnType → Prop
  | .frozen _ => True
  | _ => False

/-- A name that a type of a user's can be told by: in lower case it is neither a scalar nor a
keyword. -/
structure IsUserName (name : List Char) : Prop extends IsName name where
  not_scalar : ∀ s : Scalar, s.name ≠ lowerName name

mutual

def Canonical : ColumnType → Prop
  | .scalar _ => True
  | .list e => Canonical e
  | .set e => Canonical e
  | .map k v => Canonical k ∧ Canonical v
  | .tuple es => es ≠ [] ∧ AllCanonical es
  | .frozen t => ¬t.IsFrozen ∧ Canonical t
  | .udt name => IsUserName name.toList

def AllCanonical : List ColumnType → Prop
  | [] => True
  | t :: rest => Canonical t ∧ AllCanonical rest

end

theorem allCanonical_iff {ts : List ColumnType} : AllCanonical ts ↔ ∀ t ∈ ts, t.Canonical := by
  induction ts with
  | nil => simp [AllCanonical]
  | cons t ts ih => simp [AllCanonical, ih]

/-! ## Freezing -/

theorem freeze_eq {t : ColumnType} (h : ¬t.IsFrozen) : t.freeze = .frozen t := by
  cases t with
  | frozen t => exact absurd trivial h
  | _ => rfl

theorem Canonical.freeze {t : ColumnType} (h : t.Canonical) : t.freeze.Canonical := by
  by_cases hfrozen : t.IsFrozen
  · cases t with
    | frozen t => exact h
    | _ => exact absurd hfrozen id
  · rw [freeze_eq hfrozen]
    exact ⟨hfrozen, h⟩

theorem Canonical.freezeKey {t : ColumnType} (h : t.Canonical) : t.freezeKey.Canonical := by
  cases t with
  | list e => exact Canonical.freeze (t := e) h
  | set e => exact Canonical.freeze (t := e) h
  | map k v => exact ⟨h.1.freeze, h.2⟩
  | _ => exact h

theorem Canonical.freezeValue {t : ColumnType} (h : t.Canonical) : t.freezeValue.Canonical := by
  cases t with
  | list e => exact Canonical.freeze (t := e) h
  | map k v => exact ⟨h.1, h.2.freeze⟩
  | _ => exact h

end ColumnType

/-- A column of a canonical type is defined with a canonical type, whatever its flags. -/
theorem Column.definedType_canonical {c : Column} (h : c.type.Canonical) :
    c.definedType.Canonical := by
  have hkey : (if c.frozenKey then c.type.freezeKey else c.type).Canonical := by
    split
    · exact h.freezeKey
    · exact h
  unfold definedType
  split
  · trivial
  · split
    · exact h.freeze
    · dsimp only
      split
      · exact hkey.freezeValue
      · exact hkey

namespace ColumnType

/-! ## What is read is canonical -/

theorem IsName.named_canonical {name : List Char} (h : IsName name) : (named name).Canonical := by
  unfold named
  cases hscalar : Scalar.ofName? (lowerName name) with
  | some s => trivial
  | none =>
      show IsUserName (String.ofList name).toList
      rw [String.toList_ofList]
      exact ⟨h, Scalar.ofName?_eq_none.mp hscalar⟩

theorem Separated.ne_nil {α : Type} {spells : List Char → α → Prop} {cs : List Char} {as : List α}
    (h : Separated spells cs as) : as ≠ [] := by
  cases h <;> exact List.cons_ne_nil _ _

/-- Each of several types is spelled by a part of the text. -/
theorem Separated.mem {cs : List Char} {ts : List ColumnType} (h : Separated Spells cs ts) :
    ∀ t ∈ ts, ∃ part, Spells part t ∧ part.length ≤ cs.length := by
  induction h with
  | one h =>
      intro t ht
      rw [List.mem_singleton] at ht
      exact ⟨_, ht ▸ h, Nat.le_refl _⟩
  | more h _ _ _ ih =>
      intro t ht
      simp only [List.length_append, List.length_cons]
      rcases List.mem_cons.mp ht with rfl | ht
      · exact ⟨_, h, by omega⟩
      · obtain ⟨part, hpart, hlength⟩ := ih t ht
        exact ⟨part, hpart, by omega⟩

theorem Spells.canonical {cs : List Char} {t : ColumnType} (h : Spells cs t) : t.Canonical := by
  -- The parameters of a type are shorter than the type.
  induction hn : cs.length using Nat.strongRecOn generalizing cs t with
  | _ n ih =>
      have hinner : ∀ {keyword body brackets part : List Char} {t : ColumnType},
          cs = keyword ++ brackets → Bracketed body brackets → part.length ≤ body.length →
          Spells part t → t.Canonical := by
        rintro keyword body brackets part t rfl hb hpart h
        have hbody := hb.length_lt
        rw [List.length_append] at hn
        exact ih part.length (by omega) h rfl
      cases h with
      | name h => exact h.named_canonical
      | list _ h hb =>
          have he := hinner rfl hb (Nat.le_refl _) h
          exact he
      | set _ h hb =>
          have he := hinner rfl hb (Nat.le_refl _) h
          exact he
      | frozen _ h hb => exact (hinner rfl hb (Nat.le_refl _) h).freeze
      | @map _ _ _ k v _ h hb =>
          obtain ⟨key, hkey, hkeylength⟩ := h.mem k (by simp)
          obtain ⟨value, hvalue, hvaluelength⟩ := h.mem v (by simp)
          exact ⟨hinner rfl hb hkeylength hkey, hinner rfl hb hvaluelength hvalue⟩
      | tuple _ h hb =>
          refine ⟨h.ne_nil, allCanonical_iff.mpr fun t ht => ?_⟩
          obtain ⟨part, hpart, hlength⟩ := h.mem t ht
          exact hinner rfl hb hlength hpart

/-! ## A canonical type is spelled by its text -/

theorem scalar_isName (s : Scalar) : IsName s.name.toList where
  ne_nil := by cases s <;> decide
  chars := List.all_eq_true.mp (by cases s <;> decide)
  not_keyword := by cases s <;> decide

theorem named_scalar (s : Scalar) : named s.name.toList = .scalar s := by
  have hlower : lowerName s.name.toList = s.name := by cases s <;> decide
  rw [named, hlower, Scalar.ofName?_name]
  rfl

theorem named_user {name : String} (h : IsUserName name.toList) :
    named name.toList = .udt name := by
  rw [named, Scalar.ofName?_eq_none.mpr h.not_scalar, String.ofList_toList]
  rfl

/-- A keyword with a text between the brackets after it. -/
theorem toList_bracketed {start : String} (keyword : String)
    (h : start.toList = keyword.toList ++ ['<']) (body : String) :
    (start ++ body ++ ">").toList = keyword.toList ++ '<' :: (body.toList ++ ['>']) := by
  rw [String.toList_append, String.toList_append, h]
  simp only [List.append_assoc, List.cons_append, List.nil_append]
  rfl

theorem bracketed_text (body : String) : Bracketed body.toList ('<' :: (body.toList ++ ['>'])) :=
  .intro gap_nil gap_nil gap_nil

theorem separated_text {first rest : String} {t : ColumnType} {ts : List ColumnType}
    (h : Spells first.toList t) (hrest : Separated Spells rest.toList ts) :
    Separated Spells (first ++ ", " ++ rest).toList (t :: ts) := by
  have hgap : Gap [' '] := by
    intro c hc
    rw [List.mem_singleton] at hc
    exact hc ▸ rfl
  have htext : (first ++ ", " ++ rest).toList =
      first.toList ++ ([] ++ ',' :: ([' '] ++ rest.toList)) := by
    rw [String.toList_append, String.toList_append, List.append_assoc]
    rfl
  rw [htext]
  exact .more h gap_nil hgap hrest

mutual

theorem spells_text : ∀ t : ColumnType, t.Canonical → Spells t.text.toList t
  | .scalar s, _ => by
      rw [text, ← named_scalar s]
      exact .name (scalar_isName s)
  | .list e, h => by
      rw [text, toList_bracketed "list" (by decide)]
      exact .list (by decide) (spells_text e h) (bracketed_text _)
  | .set e, h => by
      rw [text, toList_bracketed "set" (by decide)]
      exact .set (by decide) (spells_text e h) (bracketed_text _)
  | .map k v, h => by
      have hboth : Separated Spells (k.text ++ ", " ++ v.text).toList [k, v] :=
        separated_text (spells_text k h.1) (.one (spells_text v h.2))
      have htext : text (.map k v) = "map<" ++ (k.text ++ ", " ++ v.text) ++ ">" := by
        simp only [text, String.append_assoc]
      rw [htext, toList_bracketed "map" (by decide)]
      exact .map (by decide) hboth (bracketed_text _)
  | .tuple es, h => by
      rw [text, toList_bracketed "tuple" (by decide)]
      exact .tuple (by decide) (separated_texts es h.1 h.2) (bracketed_text _)
  | .frozen t, h => by
      rw [text, toList_bracketed "frozen" (by decide), ← freeze_eq h.1]
      exact .frozen (by decide) (spells_text t h.2) (bracketed_text _)
  | .udt name, h => by
      rw [text]
      conv => rhs; rw [← named_user h]
      exact .name h.toIsName

theorem separated_texts : ∀ ts : List ColumnType, ts ≠ [] → AllCanonical ts →
    Separated Spells (", ".intercalate (texts ts)).toList ts
  | [], hne, _ => absurd rfl hne
  | [t], _, h => by
      rw [texts, texts, String.intercalate_singleton]
      exact .one (spells_text t h.1)
  | t :: t' :: rest, _, h => by
      have hrest := separated_texts (t' :: rest) (List.cons_ne_nil t' rest) h.2
      rw [texts, texts, String.intercalate_cons_cons]
      exact separated_text (spells_text t h.1) hrest

end

theorem ofText_text {t : ColumnType} (h : t.Canonical) : ofText t.text = .ok t := by
  have hspells := spells_text t h
  exact ofText_eq_ok_iff.mpr (hspells.trim_eq.symm ▸ hspells)

theorem ofText_canonical {s : String} {t : ColumnType} (h : ofText s = .ok t) : t.Canonical :=
  (ofText_eq_ok_iff.mp h).canonical

/-- The reader of types takes the text of a canonical type for that type, and no more of it. -/
theorem Canonical.text_unique {t t' : ColumnType} (ht : t.Canonical)
    (ht' : t'.Canonical) {u v : List Char} (hu : Ends u) (hv : Ends v)
    (h : t.text.toList ++ u = t'.text.toList ++ v) : t = t' ∧ u = v := by
  let depth := t.text.toList.length + t'.text.toList.length + 1
  obtain ⟨left, hread, -⟩ := read_takes depth _ _ (spells_text t ht) (by omega) [] u gap_nil hu
  obtain ⟨left', hread', -⟩ :=
    read_takes depth _ _ (spells_text t' ht') (by omega) [] v gap_nil hv
  rw [h, hread'] at hread
  obtain ⟨rfl, -⟩ := Prod.mk.inj (Except.ok.inj hread)
  exact ⟨rfl, List.append_cancel_left h⟩

/-- **Canonical types.** They are the types that read back from their texts, and the only ones that
are ever read. Freezing a canonical type, as a whole or in a part, leaves it canonical; so whatever
its flags, a column of a canonical type is defined with the text of a type that reads back. -/
theorem canonical_types_read_back :
    (∀ t : ColumnType, ofText t.text = .ok t ↔ t.Canonical) ∧
      (∀ s t, ofText s = .ok t → t.Canonical) ∧
      (∀ t : ColumnType, t.Canonical →
        t.freeze.Canonical ∧ t.freezeKey.Canonical ∧ t.freezeValue.Canonical) ∧
      ∀ (m : Mapping) (c : Column), c.type.Canonical → c.definedType.Canonical ∧
        ∃ printed, m.columnDefinition c =
            m.columnText c ++ " " ++ printed ++ (if c.static then " static" else "") ∧
          ofText printed = .ok c.definedType := by
  refine ⟨fun t => ⟨ofText_canonical, ofText_text⟩, fun s t => ofText_canonical, ?_, ?_⟩
  · intro t h
    exact ⟨h.freeze, h.freezeKey, h.freezeValue⟩
  · intro m c h
    have hdefined := Column.definedType_canonical h
    exact ⟨hdefined, c.definedType.text, rfl, ofText_text hdefined⟩

end ColumnType

end TypedCql
