import TypedCql.Proofs.Evaluation
import TypedCql.Proofs.Mapping

/-!
# Folding never reaches into the query

Some nodes mean something only in a query: the row and the key of its group, the table, lambdas and
projections, and the calls that CQL itself carries out (`Expr.QueryOnly`). Evaluation knows none of
them. Since it is strict, an expression with such a node anywhere inside it, be it beside an operand
that decides or in front of a function that does not look at it, has no value, and what is folded
into a condition never depends on the row (`folding_strict`).
-/

namespace TypedCql

/-- A call has a result only for the methods that a program can carry out. -/
theorem Value.ofCall_eq_ok {method : Method} {values : List Value} {v : Value}
    (h : ofCall method values = .ok v) :
    method.isOperator = false ∧ method.aggregate? = none ∧
      ¬(method = .maxTimeUuid ∨ method = .minTimeUuid) ∧ Context.combiningKind? method = none := by
  cases method with
  | contains | containsKey | startsWith | compareTo | equals | token | host function =>
      refine ⟨rfl, rfl, ?_, rfl⟩
      rintro (hmax | hmin)
      · exact nomatch hmax
      · exact nomatch hmin
  | _ => simp [ofCall] at h

namespace Expr

/-- The nodes that mean something only in a query. -/
inductive QueryOnly : Expr → Prop
  | table : QueryOnly .root
  | row : QueryOnly .parameter
  | groupKey : QueryOnly .groupKey
  | lambda (body : Expr) : QueryOnly (.lambda body)
  | record (bs : List (String × Expr)) : QueryOnly (.record bs)
  | entity (bs : List (String × Expr)) : QueryOnly (.entity bs)
  | operator {method : Method} (h : method.isOperator = true) (args : List Expr) :
      QueryOnly (.call method args)
  | aggregate {method : Method} {function : String} (h : method.aggregate? = some function)
      (args : List Expr) : QueryOnly (.call method args)
  | timeBound {method : Method} (h : method = .maxTimeUuid ∨ method = .minTimeUuid)
      (args : List Expr) : QueryOnly (.call method args)
  | combination {method : Method} {kind : AssignmentKind}
      (h : Context.combiningKind? method = some kind) (args : List Expr) :
      QueryOnly (.call method args)

/-- A node that means something only in a query has no value. -/
theorem QueryOnly.not_evaluates {e : Expr} (h : e.QueryOnly) (v : Value) : e.evaluate ≠ .ok v := by
  intro hv
  cases h with
  | table | row | groupKey | lambda | record | entity => cases hv
  | operator h args =>
      obtain ⟨values, -, hcall⟩ := Outcome.bind_eq_ok.mp hv
      have hnot := (Value.ofCall_eq_ok hcall).1
      rw [h] at hnot
      cases hnot
  | aggregate h args =>
      obtain ⟨values, -, hcall⟩ := Outcome.bind_eq_ok.mp hv
      have hnot := (Value.ofCall_eq_ok hcall).2.1
      rw [h] at hnot
      cases hnot
  | timeBound h args =>
      obtain ⟨values, -, hcall⟩ := Outcome.bind_eq_ok.mp hv
      exact (Value.ofCall_eq_ok hcall).2.2.1 h
  | combination h args =>
      obtain ⟨values, -, hcall⟩ := Outcome.bind_eq_ok.mp hv
      have hnot := (Value.ofCall_eq_ok hcall).2.2.2
      rw [h] at hnot
      cases hnot

/-- An expression uses the row by the row itself, or by the key of its group. -/
theorem exists_queryOnly_of_usesRow {e : Expr} (h : e.usesRow = true) :
    ∃ part ∈ e.subexpressions, part.QueryOnly := by
  rcases usesRow_iff.mp h with hrow | hkey
  · exact ⟨.parameter, hrow, .row⟩
  · exact ⟨.groupKey, hkey, .groupKey⟩

/-- One node that means something only in a query, however deep, and there is no value. -/
theorem evaluate_eq_error {e part : Expr} (hpart : part ∈ e.subexpressions)
    (h : part.QueryOnly) : ∃ err, e.evaluate = .error err := by
  cases hv : e.evaluate with
  | error err => exact ⟨err, rfl⟩
  | ok v =>
      obtain ⟨w, hw⟩ := evaluates_of_mem hv hpart
      exact absurd hw (h.not_evaluates w)

/-- A node without a value is folded in no phase. -/
theorem fold_eq_error {e : Expr} {err : Error} (h : e.evaluate = .error err) (c : Context)
    (s : Scope) (p : Parts) : ∃ err', (c.fold e s p).outcome = .error err' := by
  unfold Context.fold
  split
  · exact ⟨_, rfl⟩
  · refine ⟨err, ?_⟩
    show (Traced.ofOutcome e.evaluate >>= fun v => c.bindValue v e s p).outcome = _
    rw [Traced.outcome_bind, Traced.outcome_ofOutcome, h]
    rfl

/-- **Folding is strict.** If an expression evaluates, then so does each of its parts, none of them
is a node that means something only in a query, and the row is not used. Conversely an expression
that uses the row, or holds such a node at any depth, fails to evaluate, and is never folded into a
value by the compiler. -/
theorem folding_strict (e : Expr) :
    (∀ v, e.evaluate = .ok v →
      e.usesRow = false ∧
        ∀ part ∈ e.subexpressions, ¬part.QueryOnly ∧ ∃ w, part.evaluate = .ok w) ∧
    (e.usesRow = true ∨ (∃ part ∈ e.subexpressions, part.QueryOnly) →
      (∃ err, e.evaluate = .error err) ∧
        ∀ (c : Context) (s : Scope) (p : Parts), ∃ err, (c.fold e s p).outcome = .error err) := by
  constructor
  · intro v hv
    constructor
    · cases hrow : e.usesRow with
      | false => rfl
      | true => exact absurd hv (not_evaluates_of_usesRow hrow v)
    · intro part hpart
      obtain ⟨w, hw⟩ := evaluates_of_mem hv hpart
      exact ⟨fun h => h.not_evaluates w hw, w, hw⟩
  · intro h
    have hpart : ∃ part ∈ e.subexpressions, part.QueryOnly := by
      rcases h with hrow | hpart
      · exact exists_queryOnly_of_usesRow hrow
      · exact hpart
    obtain ⟨part, hmem, honly⟩ := hpart
    obtain ⟨err, herr⟩ := evaluate_eq_error hmem honly
    exact ⟨⟨err, herr⟩, fold_eq_error herr⟩

/-- A function that answers seven, whatever it is given. -/
def seven : HostFunction := ⟨"seven", 7, fun _ => .ok (.int 7)⟩

/-- True, or the function gives seven for the argument. -/
def decided (argument : Expr) : Expr :=
  .binary .orElse (.constant (.boolean true))
    (.binary .eq (.call (.host seven) [argument]) (.constant (.int 7)))

/-- With a value as the argument of the function the expression is true. With a column, which
neither the function nor the disjunction looks at, it has no value, and no condition folds it. -/
theorem folding_strict_decided :
    ((decided (.constant .null)).evaluate = .ok (.boolean true) ∧
      (decided (.constant .null)).usesRow = false) ∧
    (decided (.column "active")).usesRow = true ∧
    (∃ err, (decided (.column "active")).evaluate = .error err) ∧
    ∃ err, (Context.fold ⟨people, .select⟩ (decided (.column "active"))
      (Scope.condition {} .rows) {}).outcome = .error err := by
  have hvalue : (decided (.constant .null)).evaluate = .ok (.boolean true) := rfl
  have hrow : (decided (.column "active")).usesRow = true := rfl
  obtain ⟨hunused, -⟩ := (folding_strict (decided (.constant .null))).1 _ hvalue
  obtain ⟨herror, hfold⟩ := (folding_strict (decided (.column "active"))).2 (.inl hrow)
  exact ⟨⟨hvalue, hunused⟩, hrow, herror, hfold ⟨people, .select⟩ _ _⟩

end Expr

end TypedCql
