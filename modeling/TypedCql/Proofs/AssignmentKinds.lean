import TypedCql.Proofs.Contribution

/-!
# Assignments and their columns

A change combines a value with a column in one of several ways, and not every column can be combined
in every way. `Assignment.Fits` says which can: a counter counts by whole numbers and does nothing
else, and of the other columns only lists take elements at their start, and only collections take
and give up elements at all. However an assignment comes about, it has passed the same checks
(`assigned_of_adds`), and so everything that a compiled query assigns fits a column of the mapping.
-/

namespace TypedCql

namespace ColumnType

theorem isList_iff {t : ColumnType} : t.isList = true ↔ ∃ element, t.unfrozen = .list element := by
  unfold isList
  cases t.unfrozen <;> simp

theorem isCollection_iff {t : ColumnType} :
    t.isCollection = true ↔
      (∃ element, t.unfrozen = .list element) ∨ (∃ element, t.unfrozen = .set element) ∨
        ∃ key value, t.unfrozen = .map key value := by
  unfold isCollection
  cases t.unfrozen <;> simp

end ColumnType

theorem Value.integer?_isSome_iff {v : Value} :
    v.integer?.isSome = true ↔ (∃ n, v = .int n) ∨ ∃ n, v = .bigint n := by
  cases v <;> simp [Value.integer?]

/-- The column can be combined with the value in the way that the assignment says. -/
structure Assignment.Fits (a : Assignment) (col : Column) : Prop where
  counter_kind : col.counter = true → a.kind = .increment ∨ a.kind = .decrement
  counter_value : col.counter = true → (∃ n, a.value = .int n) ∨ ∃ n, a.value = .bigint n
  counter_of_kind : a.kind = .increment ∨ a.kind = .decrement → col.counter = true
  list_of_prepend : a.kind = .prepend → ∃ element, col.type.unfrozen = .list element
  collection_of_kind : a.kind = .append ∨ a.kind = .remove →
    (∃ element, col.type.unfrozen = .list element) ∨
      (∃ element, col.type.unfrozen = .set element) ∨
        ∃ key value, col.type.unfrozen = .map key value

/-- The assignment is made to a column of the mapping, by its name as it appears in statements, and
fits that column. -/
def Mapping.Admits (m : Mapping) (a : Assignment) : Prop :=
  ∃ col ∈ m.columns, a.column = m.identifier col.name ∧ a.Fits col

namespace Context

/-! ## One assignment -/

/-- The ways that are left for a column, and what the column is like where they are. -/
theorem checkedKind_eq_ok {col : Column} {kind kind' : AssignmentKind}
    (h : checkedKind col kind = .ok kind') :
    (col.counter = true ∧ (kind' = .increment ∨ kind' = .decrement)) ∨
      (col.counter = false ∧
        (kind' = .assign ∨ (kind' = .prepend ∧ col.type.isList = true) ∨
          ((kind' = .append ∨ kind' = .remove) ∧ col.type.isCollection = true))) := by
  unfold checkedKind at h
  split at h
  · next hcounter =>
      refine Or.inl ⟨hcounter, ?_⟩
      cases kind with
      | assign | increment | append => exact Or.inl (Except.ok.inj h).symm
      | decrement | remove => exact Or.inr (Except.ok.inj h).symm
      | prepend => exact nomatch h
  · next hcounter =>
      refine Or.inr ⟨Bool.eq_false_iff.mpr hcounter, ?_⟩
      cases kind with
      | assign => exact Or.inl (Except.ok.inj h).symm
      | increment | decrement => exact nomatch h
      | prepend =>
          dsimp only at h
          split at h
          · next hlist => exact Or.inr (Or.inl ⟨(Except.ok.inj h).symm, hlist⟩)
          · exact nomatch h
      | append =>
          dsimp only at h
          split at h
          · next hcollection =>
              exact Or.inr (Or.inr ⟨Or.inl (Except.ok.inj h).symm, hcollection⟩)
          · exact nomatch h
      | remove =>
          dsimp only at h
          split at h
          · next hcollection =>
              exact Or.inr (Or.inr ⟨Or.inr (Except.ok.inj h).symm, hcollection⟩)
          · exact nomatch h

theorem assignment_admitted {c : Context} {member : String} {v : Value} {kind : AssignmentKind}
    {a : Assignment} (h : c.assignment member v kind = .ok a) : c.mapping.Admits a := by
  obtain ⟨-, col, kind', hcol, hkind, hvalue, rfl⟩ := assignment_eq_ok h
  refine ⟨col, Mapping.column?_mem hcol, rfl, ?_⟩
  have hinteger : col.counter = true → v.integer?.isSome = true := by
    intro hcounter
    simpa [hcounter, Option.isSome_iff_ne_none] using hvalue
  rcases checkedKind_eq_ok hkind with ⟨hcounter, hcounts⟩ | ⟨hcounter, hother⟩
  · refine ⟨fun _ => hcounts, fun _ => Value.integer?_isSome_iff.mp (hinteger hcounter),
      fun _ => hcounter, ?_, ?_⟩
    · rcases hcounts with rfl | rfl <;> exact nofun
    · rcases hcounts with rfl | rfl <;> simp
  · have hnever : ¬col.counter = true := Bool.eq_false_iff.mp hcounter
    refine ⟨fun hcounts => absurd hcounts hnever, fun hcounts => absurd hcounts hnever, ?_, ?_, ?_⟩
    · rcases hother with rfl | ⟨rfl, -⟩ | ⟨rfl | rfl, -⟩ <;> simp
    · rcases hother with rfl | ⟨rfl, hlist⟩ | ⟨rfl | rfl, -⟩
      · exact nofun
      · exact fun _ => ColumnType.isList_iff.mp hlist
      · exact nofun
      · exact nofun
    · rcases hother with rfl | ⟨rfl, -⟩ | ⟨rfl | rfl, hcollection⟩
      · simp
      · simp
      · exact fun _ => ColumnType.isCollection_iff.mp hcollection
      · exact fun _ => ColumnType.isCollection_iff.mp hcollection

/-! ## All assignments -/

/-- Whatever is visited, what is assigned afterwards was assigned before, or has passed the checks
of an assignment. -/
theorem assigned_of_adds {c : Context} {e : Expr} {s : Scope} {p q : Parts} (h : c.Adds e s p q) :
    ∀ a ∈ q.assignments,
      a ∈ p.assignments ∨ ∃ member v kind, c.assignment member v kind = .ok a := by
  induction h with
  | trans _ _ ihpq ihqr =>
      intro a ha
      rcases ihqr a ha with ha | hnew
      · exact ihpq a ha
      · exact Or.inr hnew
  | within _ _ ih => exact ih
  | condition p t => cases t <;> exact fun a ha => Or.inl ha
  | assignment p _ _ h =>
      intro a ha
      rcases List.mem_append.mp ha with ha | ha
      · exact Or.inl ha
      · rw [List.mem_singleton] at ha
        exact Or.inr ⟨_, _, _, ha ▸ h⟩
  | aggregate _ _ _ _ _ _ ih => exact ih
  | refl | column | countAll | groupKeys | orderKey | groupKey | limit | filtering =>
      exact fun a ha => Or.inl ha

/-- **Assignments fit their columns.** Whatever query is compiled, for whatever mapping: as a
selection or a count it assigns nothing, and as a change every one of its assignments is made to a
column of the mapping that can be combined with the value in that way. -/
theorem compiled_assignments_fit {m : Mapping} {kind : StatementKind} {e : Expr} {p : Parts}
    (h : (compile ⟨m, kind⟩ e).outcome = .ok p) :
    (kind = .select ∨ kind = .count → p.assignments = []) ∧ ∀ a ∈ p.assignments, m.Admits a := by
  have hassigned : ∀ a ∈ p.assignments, ∃ member v kind',
      assignment ⟨m, kind⟩ member v kind' = .ok a := by
    intro a ha
    exact (assigned_of_adds (compile_adds _ h) a ha).resolve_left List.not_mem_nil
  constructor
  · intro hquery
    refine List.eq_nil_iff_forall_not_mem.mpr fun a ha => ?_
    obtain ⟨member, v, kind', hok⟩ := hassigned a ha
    exact (assignment_eq_ok hok).1 hquery
  · intro a ha
    obtain ⟨member, v, kind', hok⟩ := hassigned a ha
    exact assignment_admitted hok

/-- Pages with the number of their views, a frozen list of readers, and marks. -/
def pageType : EntityType where
  id := 0
  name := "Page"
  members :=
    [⟨"views", .scalar .bigint⟩, ⟨"readers", .frozen (.list (.scalar .text))⟩,
      ⟨"marks", .set (.scalar .int)⟩, ⟨"title", .scalar .text⟩]

def pages : Mapping :=
  .ofColumns pageType { options := fun member =>
      if member = "views" then some { counter := true } else none }
    (pageType.members.map fun x => Column.ofMember x { counter := x.name == "views" })

/-- Views are taken back in two ways, a reader comes first, a mark is removed, and the title is
replaced. -/
def pageChange : Expr :=
  .lambda (.record
    [("views", .unary .negate (.constant (.int 2))),
      ("views", .binary .sub (.unary .convert (.column "views")) (.constant (.bigint 3))),
      ("readers", .call .prepend [.constant (.list [.text "Ada"])]),
      ("marks", .call .subtractAssign [.constant (.set [.int 1])]),
      ("title", .constant (.text "Engines"))])

theorem compiled_assignments_fit_pages :
    ∃ p, (compile ⟨pages, .update⟩ (.call .select [.root, pageChange])).outcome = .ok p ∧
      p.assignments.map (fun a => (a.column.text, a.kind)) =
        [("views", .decrement), ("views", .decrement), ("readers", .prepend), ("marks", .remove),
          ("title", .assign)] ∧
      ∀ a ∈ p.assignments, pages.Admits a := by
  obtain ⟨p, hp⟩ : ∃ p, (compile ⟨pages, .update⟩ (.call .select [.root, pageChange])).outcome =
      .ok p := ⟨_, rfl⟩
  obtain ⟨-, hfit⟩ := compiled_assignments_fit hp
  refine ⟨p, hp, ?_, hfit⟩
  cases hp
  rfl

end Context

end TypedCql
