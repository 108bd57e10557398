import TypedCql.Text.Enclosed

/-!
# Splitting texts

Where a text is put together of two parts, the first of which has only characters that the second
does not begin with, or is written between doubled marks, it can be taken apart in one way only.
-/

namespace TypedCql

/-- Two ways of splitting a text where a property of its characters ends are the same. -/
theorem split_unique {p : Char → Prop} {s t u v : List Char} (hs : ∀ c ∈ s, p c)
    (ht : ∀ c ∈ t, p c) (hu : ∀ c r, u = c :: r → ¬p c) (hv : ∀ c r, v = c :: r → ¬p c)
    (h : s ++ u = t ++ v) : s = t ∧ u = v := by
  induction s generalizing t with
  | nil =>
      cases t with
      | nil => exact ⟨rfl, h⟩
      | cons c t => exact absurd (ht c (List.mem_cons_self ..)) (hu c _ h)
  | cons c s ih =>
      cases t with
      | nil => exact absurd (hs c (List.mem_cons_self ..)) (hv c _ h.symm)
      | cons c' t =>
          obtain ⟨rfl, hrest⟩ := List.cons.inj h
          obtain ⟨rfl, huv⟩ := ih (fun x hx => hs x (List.mem_cons_of_mem _ hx))
            (fun x hx => ht x (List.mem_cons_of_mem _ hx)) hrest
          exact ⟨rfl, huv⟩

theorem doubled_cons_self (mark : Char) (s : List Char) :
    Text.doubled mark (mark :: s) = mark :: mark :: Text.doubled mark s :=
  if_pos rfl

theorem doubled_cons_ne {mark c : Char} (h : c ≠ mark) (s : List Char) :
    Text.doubled mark (c :: s) = c :: Text.doubled mark s :=
  if_neg h

/-- A text with its marks doubled does not begin with a single one. -/
theorem doubled_ne_mark {mark : Char} {s u v : List Char} (hu : ∀ c r, u = c :: r → c ≠ mark) :
    Text.doubled mark s ++ mark :: v = mark :: u → s = [] ∧ v = u := by
  intro h
  cases s with
  | nil => exact ⟨rfl, (List.cons.inj h).2⟩
  | cons c s =>
      by_cases hc : c = mark
      · subst hc
        rw [doubled_cons_self] at h
        exact absurd rfl (hu c _ (List.cons.inj h).2.symm)
      · rw [doubled_cons_ne hc] at h
        exact absurd (List.cons.inj h).1 hc

/-- A text between doubled marks ends at the first mark that no other mark follows. -/
theorem doubled_unique {mark : Char} {s t u v : List Char} (hu : ∀ c r, u = c :: r → c ≠ mark)
    (hv : ∀ c r, v = c :: r → c ≠ mark)
    (h : Text.doubled mark s ++ mark :: u = Text.doubled mark t ++ mark :: v) : s = t ∧ u = v := by
  induction s generalizing t with
  | nil =>
      obtain ⟨rfl, hvu⟩ := doubled_ne_mark hu h.symm
      exact ⟨rfl, hvu.symm⟩
  | cons c s ih =>
      cases t with
      | nil =>
          obtain ⟨hnil, -⟩ := doubled_ne_mark hv h
          exact absurd hnil (List.cons_ne_nil c s)
      | cons c' t =>
          by_cases hc : c = mark <;> by_cases hc' : c' = mark
          · subst hc hc'
            rw [doubled_cons_self, doubled_cons_self] at h
            obtain ⟨rfl, huv⟩ := ih (List.cons.inj (List.cons.inj h).2).2
            exact ⟨rfl, huv⟩
          · subst hc
            rw [doubled_cons_self, doubled_cons_ne hc'] at h
            exact absurd (List.cons.inj h).1.symm hc'
          · subst hc'
            rw [doubled_cons_self, doubled_cons_ne hc] at h
            exact absurd (List.cons.inj h).1 hc
          · rw [doubled_cons_ne hc, doubled_cons_ne hc'] at h
            obtain ⟨rfl, hrest⟩ := List.cons.inj h
            obtain ⟨rfl, huv⟩ := ih hrest
            exact ⟨rfl, huv⟩

end TypedCql
