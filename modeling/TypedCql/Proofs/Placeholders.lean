import TypedCql.Proofs.Insertions

/-!
# Placeholders and parameters

Every command is built once as a fragment and shown in two ways: with placeholders and the values
beside the text, or with the values as literals. A reader who fills the placeholders with the
parameters, one after the other, has to arrive at the text with literals; one pair in the wrong
order would bind values to the wrong columns.

The argument has two halves. The fixed texts that the compiler and the statements write hold no
question mark (`markFree_of_adds`, by induction on what compiling can contribute, and then one
lemma for each statement). Where that is so, the two renderings agree (`Fragment.displayed_render`).
-/

namespace TypedCql

/-! ## Parts without question marks -/

/-- No column of the mapping shows a question mark in its name. -/
def Mapping.NamesMarkFree (m : Mapping) : Prop :=
  ∀ col ∈ m.columns, '?' ∉ (m.identifier col.name).text.toList

/-- Nothing that was contributed shows a question mark but the values. The keys of the order are
left out, since the program may give them any name. -/
structure Parts.MarkFree (p : Parts) : Prop where
  conditions : ∀ t, Fragment.MarkFree (p.conditions t)
  fields : ∀ f ∈ p.fields, Fragment.MarkFree f.fragment
  groupBy : ∀ i ∈ p.groupBy, '?' ∉ i.text.toList
  assignments : ∀ a ∈ p.assignments, '?' ∉ a.column.text.toList

theorem Parts.markFree_empty : Parts.MarkFree {} where
  conditions t := by cases t <;> exact Fragment.markFree_nil
  fields _ h := absurd h List.not_mem_nil
  groupBy _ h := absurd h List.not_mem_nil
  assignments _ h := absurd h List.not_mem_nil

theorem conditionPiece_markFree {m : Mapping} (hm : m.NamesMarkFree) {piece : Piece}
    (h : ConditionPiece m piece) : piece.MarkFree := by
  cases h with
  | text ht =>
      have hall : ∀ t ∈ conditionTexts, '?' ∉ t.toList := by decide
      exact hall _ ht
  | name hcol => exact hm _ hcol
  | value v => trivial

theorem aggregate_name_markFree {method : Method} {function : String}
    (h : method.aggregate? = some function) : '?' ∉ (function ++ "(").toList := by
  cases method <;> simp only [Method.aggregate?, Option.some.injEq, reduceCtorEq] at h <;>
    subst h <;> decide

/-- An aggregate keeps the fields before it and takes in one of those it finds. -/
theorem mem_aggregated {before : Nat} {function : String} {fields result : List Field}
    (h : Context.aggregated before function fields = some result) {f : Field} (hf : f ∈ result) :
    f ∈ fields ∨ ∃ g ∈ fields, f = .aggregate function g := by
  unfold Context.aggregated at h
  split at h
  · next g hdrop =>
      have hg : g ∈ fields := List.mem_of_mem_drop (hdrop ▸ List.mem_singleton_self g)
      rw [← Option.some.inj h, List.mem_append, List.mem_singleton] at hf
      rcases hf with hf | rfl
      · exact Or.inl (List.mem_of_mem_take hf)
      · exact Or.inr ⟨g, hg, rfl⟩
  · exact nomatch h

/-- Whatever is assigned is assigned to a mapped column. -/
theorem assignment_column {c : Context} {member : String} {v : Value} {kind : AssignmentKind}
    {a : Assignment} (h : c.assignment member v kind = .ok a) :
    ∃ col ∈ c.mapping.columns, a.column = c.mapping.identifier col.name := by
  obtain ⟨-, col, kind', hcol, -, -, rfl⟩ := Context.assignment_eq_ok h
  exact ⟨col, Mapping.column?_mem hcol, rfl⟩

/-- One contribution more keeps the parts free of question marks. -/
theorem markFree_of_adds {c : Context} (hm : c.mapping.NamesMarkFree) {e : Expr} {s : Scope}
    {p q : Parts} (h : c.Adds e s p q) (hp : p.MarkFree) : q.MarkFree := by
  -- A contribution goes to one of the parts; for the others there is nothing new to show.
  induction h with
  | refl => exact hp
  | trans _ _ ihpq ihqr => exact ihqr (ihpq hp)
  | within _ _ ih => exact ih hp
  | condition p t hf =>
      have hfree : Fragment.MarkFree _ := fun piece hpiece =>
        conditionPiece_markFree hm (hf piece hpiece)
      refine ⟨fun t' => ?_, ?_, ?_, ?_⟩
      · by_cases heq : t' = t
        · subst heq
          rw [Step.conditions_addCondition_self]
          exact Fragment.markFree_append.mpr ⟨hp.conditions t', hfree⟩
        · rw [Step.conditions_addCondition_ne p heq]
          exact hp.conditions t'
      · cases t <;> exact hp.fields
      · cases t <;> exact hp.groupBy
      · cases t <;> exact hp.assignments
  | column p _ hcol =>
      refine ⟨hp.conditions, List.forall_mem_append.mpr ⟨hp.fields, ?_⟩, hp.groupBy,
        hp.assignments⟩
      intro f hf
      rw [List.mem_singleton] at hf
      subst hf
      exact Fragment.markFree_cons.mpr ⟨hm _ (Mapping.column?_mem hcol), Fragment.markFree_nil⟩
  | countAll p _ _ =>
      refine ⟨hp.conditions, List.forall_mem_append.mpr ⟨hp.fields, ?_⟩, hp.groupBy,
        hp.assignments⟩
      intro f hf
      rw [List.mem_singleton] at hf
      subst hf
      exact Fragment.markFree_cons.mpr ⟨by decide, Fragment.markFree_nil⟩
  | groupKeys p _ =>
      refine ⟨hp.conditions, List.forall_mem_append.mpr ⟨hp.fields, ?_⟩, hp.groupBy,
        hp.assignments⟩
      intro f hf
      obtain ⟨i, hi, rfl⟩ := List.mem_map.mp hf
      exact Fragment.markFree_cons.mpr ⟨hp.groupBy i hi, Fragment.markFree_nil⟩
  | orderKey p name ascending => exact ⟨hp.conditions, hp.fields, hp.groupBy, hp.assignments⟩
  | groupKey p _ hcol =>
      refine ⟨hp.conditions, hp.fields, List.forall_mem_append.mpr ⟨hp.groupBy, ?_⟩,
        hp.assignments⟩
      intro i hi
      rw [List.mem_singleton] at hi
      exact hi ▸ hm _ (Mapping.column?_mem hcol)
  | limit p n => exact ⟨hp.conditions, hp.fields, hp.groupBy, hp.assignments⟩
  | filtering p => exact ⟨hp.conditions, hp.fields, hp.groupBy, hp.assignments⟩
  | assignment p _ _ ha =>
      refine ⟨hp.conditions, hp.fields, hp.groupBy,
        List.forall_mem_append.mpr ⟨hp.assignments, ?_⟩⟩
      intro a hmem
      rw [List.mem_singleton] at hmem
      obtain ⟨col, hcol, hname⟩ := assignment_column ha
      rw [hmem, hname]
      exact hm col hcol
  | aggregate _ _ _ _ hmethod hfields ih =>
      have hq := ih hp
      refine ⟨hq.conditions, fun f hf => ?_, hq.groupBy, hq.assignments⟩
      rcases mem_aggregated hfields hf with hf | ⟨g, hg, rfl⟩
      · exact hq.fields f hf
      · exact Fragment.markFree_cons.mpr ⟨aggregate_name_markFree hmethod,
          Fragment.markFree_append.mpr ⟨hq.fields g hg,
            Fragment.markFree_cons.mpr ⟨by decide, Fragment.markFree_nil⟩⟩⟩

theorem compile_markFree {c : Context} (hm : c.mapping.NamesMarkFree) {e : Expr} {p : Parts}
    (h : (c.compile e).outcome = .ok p) : p.MarkFree :=
  markFree_of_adds hm (c.compile_adds h) Parts.markFree_empty

/-! ## Statements without question marks -/

namespace Fragment

theorem markFree_after {keyword : String} (hk : '?' ∉ keyword.toList) {f : Fragment}
    (h : MarkFree f) : MarkFree (after keyword f) := by
  unfold after
  split
  · exact markFree_nil
  · exact markFree_cons.mpr ⟨hk, h⟩

theorem markFree_nameList {names : List Identifier} (h : ∀ i ∈ names, '?' ∉ i.text.toList) :
    MarkFree (nameList names) := by
  refine markFree_joined (by decide) fun f hf => ?_
  obtain ⟨i, hi, rfl⟩ := List.mem_map.mp hf
  exact markFree_cons.mpr ⟨h i hi, markFree_nil⟩

theorem markFree_limit (n : Option Int32) : MarkFree (limit n) := by
  cases n with
  | none => exact markFree_nil
  | some n => exact markFree_cons.mpr ⟨by decide, markFree_cons.mpr ⟨trivial, markFree_nil⟩⟩

theorem markFree_usingOptions (ttl : Option Int32) (timestamp : Option Timestamp) :
    MarkFree (usingOptions ttl timestamp) := by
  refine markFree_after (by decide) (markFree_joined (by decide) fun f hf => ?_)
  rw [List.mem_append] at hf
  rcases hf with hf | hf
  · obtain ⟨n, -, rfl⟩ := List.mem_map.mp hf
    exact markFree_cons.mpr ⟨by decide, markFree_cons.mpr ⟨trivial, markFree_nil⟩⟩
  · obtain ⟨t, -, rfl⟩ := List.mem_map.mp hf
    exact markFree_cons.mpr ⟨by decide, markFree_cons.mpr ⟨trivial, markFree_nil⟩⟩

end Fragment

theorem filteringClause_markFree (m : Mapping) (p : Parts) :
    Fragment.MarkFree (m.filteringClause p) := by
  unfold Mapping.filteringClause
  split
  · exact Fragment.markFree_cons.mpr ⟨by decide, Fragment.markFree_nil⟩
  · exact Fragment.markFree_nil

theorem assignment_markFree {a : Assignment} (h : '?' ∉ a.column.text.toList) :
    Fragment.MarkFree a.fragment := by
  have hname : (Piece.name a.column).MarkFree := h
  have hvalue : (Piece.value a.value).MarkFree := trivial
  unfold Assignment.fragment AssignmentKind.fragment
  cases a.kind <;> simp only [Fragment.markFree_cons, Fragment.markFree_nil, hname, hvalue,
    true_and, and_true] <;> decide

theorem orderKey_markFree {k : OrderKey} (h : '?' ∉ k.column.text.toList) :
    Fragment.MarkFree k.fragment := by
  unfold OrderKey.fragment
  split
  · exact Fragment.markFree_cons.mpr ⟨h, Fragment.markFree_nil⟩
  · exact Fragment.markFree_cons.mpr
      ⟨h, Fragment.markFree_cons.mpr ⟨by decide, Fragment.markFree_nil⟩⟩

/-- The text of a table, with a fixed text in front of it. -/
theorem onTable_markFree {keyword table : String} (hk : '?' ∉ keyword.toList)
    (ht : '?' ∉ table.toList) : Fragment.MarkFree [.verbatim keyword, .verbatim table] :=
  Fragment.markFree_cons.mpr ⟨hk, Fragment.markFree_cons.mpr ⟨ht, Fragment.markFree_nil⟩⟩

section Statements

variable {m : Mapping} {p : Parts} {table : String}

theorem columnNames_markFree (hm : m.NamesMarkFree) : ∀ i ∈ m.columnNames, '?' ∉ i.text.toList := by
  intro i hi
  obtain ⟨col, hcol, rfl⟩ := List.mem_map.mp hi
  exact hm col hcol

theorem fieldList_markFree (hm : m.NamesMarkFree) (hp : p.MarkFree) :
    Fragment.MarkFree (p.fieldList m) := by
  unfold Parts.fieldList
  split
  · exact Fragment.markFree_nameList (columnNames_markFree hm)
  · refine Fragment.markFree_joined (by decide) fun f hf => ?_
    obtain ⟨field, hfield, rfl⟩ := List.mem_map.mp hf
    exact hp.fields field hfield

theorem select_markFree (hm : m.NamesMarkFree) (hp : p.MarkFree) (ht : '?' ∉ table.toList)
    (ho : ∀ k ∈ p.orderBy, '?' ∉ k.column.text.toList) :
    Fragment.MarkFree (p.select m table) := by
  have hgroup : Fragment.MarkFree
      (if p.groupBy.isEmpty then []
        else .verbatim " GROUP BY " :: Fragment.nameList p.groupBy) := by
    split
    · exact Fragment.markFree_nil
    · exact Fragment.markFree_cons.mpr ⟨by decide, Fragment.markFree_nameList hp.groupBy⟩
  have horder : Fragment.MarkFree
      (if p.orderBy.isEmpty then []
        else .verbatim " ORDER BY " ::
          Fragment.joined ", " (p.orderBy.map OrderKey.fragment)) := by
    split
    · exact Fragment.markFree_nil
    · refine Fragment.markFree_cons.mpr
        ⟨by decide, Fragment.markFree_joined (by decide) fun f hf => ?_⟩
      obtain ⟨k, hk, rfl⟩ := List.mem_map.mp hf
      exact orderKey_markFree (ho k hk)
  unfold Parts.select
  simp only [List.cons_append, Fragment.markFree_cons, Fragment.markFree_append, and_assoc]
  exact ⟨by decide, fieldList_markFree hm hp, by decide, ht, Fragment.markFree_nil,
    Fragment.markFree_after (by decide) (hp.conditions .rows), hgroup, horder,
    Fragment.markFree_limit p.limit, filteringClause_markFree m p⟩

theorem count_markFree (hp : p.MarkFree) (ht : '?' ∉ table.toList) :
    Fragment.MarkFree (p.count m table) := by
  unfold Parts.count
  simp only [Fragment.markFree_append, and_assoc]
  exact ⟨onTable_markFree (by decide) ht,
    Fragment.markFree_after (by decide) (hp.conditions .rows), Fragment.markFree_limit p.limit,
    filteringClause_markFree m p⟩

theorem update_markFree (hp : p.MarkFree) (ht : '?' ∉ table.toList) {o : UpdateOptions}
    {f : Fragment} (h : p.update table o = .ok f) : Fragment.MarkFree f := by
  have hassign : Fragment.MarkFree
      (Fragment.joined ", " (p.assignments.map Assignment.fragment)) := by
    refine Fragment.markFree_joined (by decide) fun f hf => ?_
    obtain ⟨a, ha, rfl⟩ := List.mem_map.mp hf
    exact assignment_markFree (hp.assignments a ha)
  unfold Parts.update at h
  split at h
  · exact nomatch h
  · rw [← Except.ok.inj h]
    simp only [List.cons_append, Fragment.markFree_append, Fragment.markFree_cons, and_assoc]
    exact ⟨by decide, ht, Fragment.markFree_nil, Fragment.markFree_usingOptions _ _, by decide,
      hassign, Fragment.markFree_after (by decide) (hp.conditions .rows),
      Fragment.markFree_after (by decide) (hp.conditions .change)⟩

theorem delete_markFree (hp : p.MarkFree) (ht : '?' ∉ table.toList) {o : DeleteOptions}
    {f : Fragment} (h : p.delete table o = .ok f) : Fragment.MarkFree f := by
  have hcondition : Fragment.MarkFree
      (if o.ifExists then [.verbatim " IF EXISTS"]
        else Fragment.after " IF " p.changeConditions) := by
    split
    · exact Fragment.markFree_cons.mpr ⟨by decide, Fragment.markFree_nil⟩
    · exact Fragment.markFree_after (by decide) (hp.conditions .change)
  unfold Parts.delete at h
  split at h
  · exact nomatch h
  · split at h
    · exact nomatch h
    · rw [← Except.ok.inj h]
      simp only [Fragment.markFree_append, and_assoc]
      exact ⟨onTable_markFree (by decide) ht, Fragment.markFree_usingOptions _ _,
        Fragment.markFree_after (by decide) (hp.conditions .rows), hcondition⟩

theorem insert_markFree (hm : m.NamesMarkFree) (ht : '?' ∉ table.toList) {values : List Value}
    {o : InsertOptions} {f : Fragment} (h : m.insert table values o = .ok f) :
    Fragment.MarkFree f := by
  obtain ⟨-, -, -, rfl⟩ := Mapping.insert_eq_ok_iff.mp h
  have hnames : ∀ i ∈ (m.kept values o).map fun x => m.identifier x.1.name,
      '?' ∉ i.text.toList := by
    intro i hi
    obtain ⟨⟨col, v⟩, hkept, rfl⟩ := List.mem_map.mp hi
    have hgiven : (col, v) ∈ m.columns.zip values := (List.mem_filter.mp hkept).1
    exact hm col (List.of_mem_zip hgiven).1
  have hexists : Fragment.MarkFree
      (if o.ifNotExists then [.verbatim " IF NOT EXISTS"] else []) := by
    split
    · exact Fragment.markFree_cons.mpr ⟨by decide, Fragment.markFree_nil⟩
    · exact Fragment.markFree_nil
  simp only [Mapping.insertion, List.cons_append, Fragment.markFree_append,
    Fragment.markFree_cons, and_assoc]
  exact ⟨by decide, ht, by decide, Fragment.markFree_nil, Fragment.markFree_nameList hnames,
    by decide, Fragment.markFree_valueList _, by decide, Fragment.markFree_nil, hexists,
    Fragment.markFree_usingOptions _ _⟩

end Statements

/-! ## Commands -/

namespace Command

theorem statement_outcome (k : Command) :
    k.statement.outcome = k.fragment.outcome.map (Fragment.render .placeholder) := by
  cases k with
  | select q => exact Traced.outcome_bind_of_ok _ fun _ => rfl
  | count c => exact Traced.outcome_bind_of_ok _ fun _ => rfl
  | change c => exact Traced.outcome_bind_of_ok _ fun _ => rfl

theorem statement_eq_ok {k : Command} {s : Statement} (h : k.statement.outcome = .ok s) :
    ∃ f, k.fragment.outcome = .ok f ∧ f.render .placeholder = s := by
  rw [statement_outcome] at h
  exact Outcome.map_eq_ok.mp h

theorem inline_outcome (k : Command) :
    k.inline.outcome = k.fragment.outcome.map (Fragment.text .inline) := by
  cases k with
  | select q => exact Traced.outcome_bind_of_ok _ fun _ => rfl
  | count c => exact Traced.outcome_bind_of_ok _ fun _ => rfl
  | change c => exact Traced.outcome_bind_of_ok _ fun _ => rfl

/-- A change writes no question mark of its own, if none comes in with a name. Keys of the order, if
there are any, are not written. -/
theorem change_markFree {c : Change} (ht : '?' ∉ (change c).table.qualifiedName.toList)
    (hm : (change c).table.mapping.NamesMarkFree) {f : Fragment}
    (h : c.fragment.outcome = .ok f) : Fragment.MarkFree f := by
  cases c with
  | update q o =>
      obtain ⟨p, hp, hf⟩ := Traced.bind_eq_ok.mp h
      exact update_markFree (compile_markFree hm hp) ht hf
  | delete q o =>
      obtain ⟨p, hp, hf⟩ := Traced.bind_eq_ok.mp h
      exact delete_markFree (compile_markFree hm hp) ht hf
  | insert t values o => exact insert_markFree hm ht h

/-- So does any command, if the keys of the order are free of them too. -/
theorem fragment_markFree {k : Command} (ht : '?' ∉ k.table.qualifiedName.toList)
    (hm : k.table.mapping.NamesMarkFree)
    (ho : ∀ p, k.parts = .ok p → ∀ key ∈ p.orderBy, '?' ∉ key.column.text.toList)
    {f : Fragment} (h : k.fragment.outcome = .ok f) : Fragment.MarkFree f := by
  cases k with
  | select q =>
      obtain ⟨p, hp, hf⟩ := Traced.bind_eq_ok.mp h
      rw [← Except.ok.inj hf]
      exact select_markFree hm (compile_markFree hm hp) ht (ho p hp)
  | count c =>
      obtain ⟨p, hp, hf⟩ := Traced.bind_eq_ok.mp h
      rw [← Except.ok.inj hf]
      exact count_markFree (compile_markFree hm hp) ht
  | change c => exact change_markFree ht hm h

/-- **Placeholders and parameters correspond.** The two forms of a command fail together and with
the same error. Otherwise the form with placeholders shows one question mark for each parameter,
filling them in gives the form with literals, and a clause counts as empty exactly when its text is
empty in the one form and in the other. -/
theorem placeholders_correspond (k : Command) (ht : '?' ∉ k.table.qualifiedName.toList)
    (hm : ∀ col ∈ k.table.mapping.columns,
      '?' ∉ (k.table.mapping.identifier col.name).text.toList)
    (ho : ∀ p, k.parts = .ok p → ∀ key ∈ p.orderBy, '?' ∉ key.column.text.toList) :
    (∀ e, k.statement.outcome = .error e ↔ k.inline.outcome = .error e) ∧
      (∀ s text, k.statement.outcome = .ok s → k.inline.outcome = .ok text →
        s.cql.toList.count '?' = s.params.length ∧ s.displayed = text) ∧
      ∀ p, k.parts = .ok p → ∀ t mode,
        (p.conditions t).isBlank = ((p.conditions t).text mode).isEmpty := by
  rw [k.statement_outcome, k.inline_outcome]
  refine ⟨fun e => ?_, fun s text hs htext => ?_, fun p _ t mode => ?_⟩
  · cases k.fragment.outcome with
    | ok f => exact ⟨fun h => (nomatch h), fun h => (nomatch h)⟩
    | error e' =>
        exact ⟨fun h => congrArg Except.error (Except.error.inj h),
          fun h => congrArg Except.error (Except.error.inj h)⟩
  · cases hf : k.fragment.outcome with
    | error e =>
        rw [hf] at hs
        exact nomatch hs
    | ok f =>
        rw [hf] at hs htext
        have hfree : Fragment.MarkFree f := fragment_markFree ht hm ho hf
        rw [← Except.ok.inj hs, ← Except.ok.inj htext]
        exact ⟨Fragment.count_text hfree, Fragment.displayed_render hfree⟩
  · exact Fragment.isBlank_eq_isEmpty mode _

/-- The first people whose names start with a letter, by name. -/
def firstPeople : Command :=
  .select (.ofOperators { mapping := people }
    [.filter (.call .startsWith [.column "name", .constant (.text "j")]), .orderBy (.column "name"),
      .take 4])

/-- For them the range of names binds two parameters and the limit a third. -/
theorem placeholders_correspond_firstPeople :
    ('?' ∉ firstPeople.table.qualifiedName.toList ∧
      (∀ col ∈ firstPeople.table.mapping.columns,
        '?' ∉ (firstPeople.table.mapping.identifier col.name).text.toList) ∧
      ∀ p, firstPeople.parts = .ok p → ∀ key ∈ p.orderBy, '?' ∉ key.column.text.toList) ∧
    ∃ s text, firstPeople.statement.outcome = .ok s ∧ firstPeople.inline.outcome = .ok text ∧
      s.params.length = 3 ∧ s.cql.toList.count '?' = s.params.length ∧ s.displayed = text := by
  have ht : '?' ∉ firstPeople.table.qualifiedName.toList := by decide
  have hm : ∀ col ∈ firstPeople.table.mapping.columns,
      '?' ∉ (firstPeople.table.mapping.identifier col.name).text.toList := by decide
  have ho : ∀ p, firstPeople.parts = .ok p →
      ∀ key ∈ p.orderBy, '?' ∉ key.column.text.toList := by
    intro p hp
    have hkeys : p.orderBy = [⟨⟨"name", false⟩, true⟩] := by
      rw [← Except.ok.inj hp]
      rfl
    rw [hkeys]
    decide
  have hboth := (placeholders_correspond firstPeople ht hm ho).2.1 _ _ rfl rfl
  exact ⟨⟨ht, hm, ho⟩, _, _, rfl, rfl, rfl, hboth⟩

end Command

end TypedCql
