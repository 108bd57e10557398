import TypedCql.Proofs.Visits

/-!
# What the parts of a statement do not depend on

Two visits that stay side by side come to the same parts, so the parts are the same for every kind
of statement that the expression compiles for (`Query.parts_of_kinds`). The kind is no more than a
permission, and what is counted, updated or deleted are the rows that the selection shows.

For the same reason conversions leave the parts alone (`Context.conversions_transparent`), with the
exception that the comparison of visits had to make: behind a conversion around the row itself, a
column is not seen, and what compiles without the conversion may fail with it.
-/

namespace TypedCql

/-! ## Conversions -/

namespace Context

/-- **Conversions around parts of an expression.** They keep its value, or the error of evaluating
it. They also keep the outcome of compiling it, parts or error, as long as none of them stands
around a row that a member is taken of. Where one does, the expression may fail to compile, but it
never comes to mean something else. -/
theorem conversions_transparent (c : Context) {rows : Bool} {e e' : Expr} (h : e.Wraps rows e') :
    e'.evaluate = e.evaluate ∧
      ((c.compile e').outcome = (c.compile e).outcome ∨
        rows = true ∧ ∃ err, (c.compile e').outcome = .error err) := by
  refine ⟨h.evaluate_eq, ?_⟩
  have hagrees := Comparison.compile_agrees c.mapping c.kind c.kind h
  rcases hagrees.eq_or_fails (not_not_intro rfl) with heq | ⟨hkind | hrows, herror⟩
  · exact .inl heq
  · exact absurd rfl hkind
  · exact .inr ⟨hrows, herror⟩

/-- The filter for one person, with something for the row of the table. -/
def byIdOf (row : Expr) : Expr :=
  .call .filter [.root, .lambda (.binary .eq (.member row "id") (.constant (.int 1)))]

/-- The same filter with conversions around the column, the value and the predicate. -/
def byIdConverted : Expr :=
  .call .filter [.root, .unary .convert (.lambda (.binary .eq (.unary .convert (.column "id"))
    (.unary .convert (.unary .convert (.constant (.int 1))))))]

theorem conversions_transparent_byId :
    (byIdOf .parameter).Wraps false byIdConverted ∧
      (compile ⟨people, .select⟩ byIdConverted).outcome =
        (compile ⟨people, .select⟩ (byIdOf .parameter)).outcome := by
  have hwraps : (byIdOf .parameter).Wraps false byIdConverted :=
    .call .filter (.cons .root (.cons (.convert (.lambda
      (.binary .eq (.convert (.refl _)) (.convert (.convert (.refl _)))))) .nil))
  rcases (conversions_transparent ⟨people, .select⟩ hwraps).2 with heq | ⟨hrows, -⟩
  · exact ⟨hwraps, heq⟩
  · exact absurd hrows Bool.false_ne_true

/-- **A hidden column.** With a conversion around the row, the filter does not compile. -/
theorem conversion_hides_column :
    (Mapping.build personType .conventional).outcome = .ok people ∧
    (byIdOf .parameter).Wraps true (byIdOf (.unary .convert .parameter)) ∧
    (∃ p, (compile ⟨people, .select⟩ (byIdOf .parameter)).outcome = .ok p) ∧
    (compile ⟨people, .select⟩ (byIdOf (.unary .convert .parameter))).outcome =
      .error (.evaluation (.unboundParameter "x")) :=
  ⟨people_built,
    .call .filter (.cons .root (.cons (.lambda
      (.binary .eq (.member "id" (.convert .parameter) (.inl rfl)) (.refl _))) .nil)),
    ⟨_, rfl⟩, rfl⟩

end Context

/-! ## Kinds of statements -/

/-- What a statement is made from a query for. -/
inductive QueryUse
  | select
  | count
  | update (options : UpdateOptions)
  | delete (options : DeleteOptions)

namespace QueryUse

def kind : QueryUse → StatementKind
  | .select => .select
  | .count => .count
  | .update _ => .update
  | .delete _ => .delete

def command (q : Query) : QueryUse → Command
  | .select => .select q
  | .count => .count ⟨q⟩
  | .update o => .change (.update q o)
  | .delete o => .change (.delete q o)

/-- The statement that the parts make up. -/
def ofParts (t : Table) (p : Parts) : QueryUse → Outcome Fragment
  | .select => .ok (p.select t.mapping t.qualifiedName)
  | .count => .ok (p.count t.mapping t.qualifiedName)
  | .update o => p.update t.qualifiedName o
  | .delete o => p.delete t.qualifiedName o

/-- A statement is what the parts of the query make up. -/
theorem fragment_eq (u : QueryUse) (q : Query) :
    (u.command q).fragment =
      q.compile u.kind >>= fun p => Traced.ofOutcome (u.ofParts q.table p) := by
  cases u <;> rfl

theorem fragment_outcome (u : QueryUse) (q : Query) :
    (u.command q).fragment.outcome =
      (q.compile u.kind).outcome >>= fun p => u.ofParts q.table p := by
  rw [fragment_eq]
  exact Traced.outcome_bind ..

/-- The statement, reported under the verb of its command. -/
def reported (verb : String) (s : Statement) : Traced Statement := do
  .report (.compiled verb s.params.length s.cql)
  return s

/-- How a statement is given out; counts are not reported. -/
def finish : QueryUse → Statement → Traced Statement
  | .select => reported "select"
  | .count => pure
  | .update _ => reported "update"
  | .delete _ => reported "delete"

theorem statement_eq (u : QueryUse) (q : Query) :
    (u.command q).statement =
      (u.command q).fragment >>= fun f => u.finish (f.render .placeholder) := by
  cases u <;> rfl

theorem inline_eq (u : QueryUse) (q : Query) :
    (u.command q).inline = (u.command q).fragment >>= fun f => pure (f.text .inline) := by
  cases u <;> rfl

/-- What stands before the restriction of the rows. -/
def opening (t : Table) (p : Parts) : QueryUse → Fragment
  | .select => .verbatim "SELECT " :: p.fieldList t.mapping ++
      [.verbatim " FROM ", .verbatim t.qualifiedName]
  | .count => [.verbatim "SELECT count(*) FROM ", .verbatim t.qualifiedName]
  | .update o => [.verbatim "UPDATE ", .verbatim t.qualifiedName] ++
      Fragment.usingOptions o.ttl o.timestamp ++
      .verbatim " SET " :: Fragment.joined ", " (p.assignments.map Assignment.fragment)
  | .delete o => [.verbatim "DELETE FROM ", .verbatim t.qualifiedName] ++
      Fragment.usingOptions none o.timestamp

/-- What comes after it. -/
def closing (t : Table) (p : Parts) : QueryUse → Fragment
  | .select =>
    (if p.groupBy.isEmpty then [] else .verbatim " GROUP BY " :: Fragment.nameList p.groupBy) ++
      (if p.orderBy.isEmpty then []
        else .verbatim " ORDER BY " :: Fragment.joined ", " (p.orderBy.map OrderKey.fragment)) ++
      Fragment.limit p.limit ++ t.mapping.filteringClause p
  | .count => Fragment.limit p.limit ++ t.mapping.filteringClause p
  | .update _ => Fragment.after " IF " p.changeConditions
  | .delete o =>
    if o.ifExists then [.verbatim " IF EXISTS"] else Fragment.after " IF " p.changeConditions

/-- Every statement made from a query restricts the rows by the same clause of its parts. -/
theorem ofParts_eq_ok {u : QueryUse} {t : Table} {p : Parts} {f : Fragment}
    (h : u.ofParts t p = .ok f) :
    f = u.opening t p ++ Fragment.after " WHERE " p.rowConditions ++ u.closing t p := by
  cases u with
  | select =>
      rw [← Except.ok.inj h]
      simp only [Parts.select, opening, closing, List.append_assoc]
  | count =>
      rw [← Except.ok.inj h]
      simp only [Parts.count, opening, closing, List.append_assoc]
  | update o =>
      replace h : p.update t.qualifiedName o = .ok f := h
      unfold Parts.update at h
      split at h
      · exact nomatch h
      · exact (Except.ok.inj h).symm
  | delete o =>
      replace h : p.delete t.qualifiedName o = .ok f := h
      unfold Parts.delete at h
      split at h
      · exact nomatch h
      · split at h
        · exact nomatch h
        · exact (Except.ok.inj h).symm

end QueryUse

namespace Query

/-- The parts of a query are the same for all kinds of statements that it compiles for. -/
theorem compile_kind {q : Query} {kind kind' : StatementKind} {p p' : Parts}
    (h : (q.compile kind).outcome = .ok p) (h' : (q.compile kind').outcome = .ok p') : p' = p := by
  have hwraps : q.expr.Wraps false q.expr := .refl q.expr
  have hagrees := Comparison.compile_agrees q.table.mapping kind kind' hwraps
  have hpp' : p = p' := by
    rw [show (Context.compile ⟨q.table.mapping, kind⟩ q.expr).outcome = .ok p from h,
      show (Context.compile ⟨q.table.mapping, kind'⟩ q.expr).outcome = .ok p' from h'] at hagrees
    exact hagrees.related
  exact hpp'.symm

/-- **The kind of a statement decides acceptance, never meaning.** If a query compiles for two kinds
of statements, then its parts are the same for both. Hence two statements that are made from it, be
they a selection, a count, an update or a deletion, restrict their rows by the very same clause,
text and values, between what opens the statement and what closes it. -/
theorem parts_of_kinds (q : Query) :
    (∀ kind kind' p p', (q.compile kind).outcome = .ok p → (q.compile kind').outcome = .ok p' →
      p' = p) ∧
    ∀ u u' : QueryUse, ∀ f f', (u.command q).fragment.outcome = .ok f →
      (u'.command q).fragment.outcome = .ok f' →
        ∃ p, (q.compile u.kind).outcome = .ok p ∧ (q.compile u'.kind).outcome = .ok p ∧
          f = u.opening q.table p ++ Fragment.after " WHERE " p.rowConditions ++
            u.closing q.table p ∧
          f' = u'.opening q.table p ++ Fragment.after " WHERE " p.rowConditions ++
            u'.closing q.table p := by
  refine ⟨fun _ _ _ _ => compile_kind, fun u u' f f' h h' => ?_⟩
  rw [QueryUse.fragment_outcome] at h h'
  obtain ⟨p, hp, hf⟩ := Outcome.bind_eq_ok.mp h
  obtain ⟨p', hp', hf'⟩ := Outcome.bind_eq_ok.mp h'
  obtain rfl : p' = p := compile_kind hp hp'
  exact ⟨p', hp, hp', QueryUse.ofParts_eq_ok hf, QueryUse.ofParts_eq_ok hf'⟩

/-- The query for the first person. -/
def ofFirstPerson : Query := ofOperators { mapping := people } [Change.firstPerson]

/-- The selection of the first person and the deletion restrict the rows alike. -/
theorem parts_of_kinds_firstPerson :
    ∃ f f' p, (QueryUse.select.command ofFirstPerson).fragment.outcome = .ok f ∧
      ((QueryUse.delete {}).command ofFirstPerson).fragment.outcome = .ok f' ∧
      f = QueryUse.select.opening ofFirstPerson.table p ++
        Fragment.after " WHERE " p.rowConditions ++ QueryUse.select.closing ofFirstPerson.table p ∧
      f' = [.verbatim "DELETE FROM ", .verbatim "Person"] ++
        Fragment.after " WHERE " p.rowConditions ++
          (QueryUse.delete {}).closing ofFirstPerson.table p := by
  obtain ⟨p, hp, -, hf, hf'⟩ := (parts_of_kinds ofFirstPerson).2 .select (.delete {}) _ _ rfl rfl
  obtain rfl := Except.ok.inj hp
  exact ⟨_, _, _, rfl, rfl, hf, hf'⟩

end Query

end TypedCql
