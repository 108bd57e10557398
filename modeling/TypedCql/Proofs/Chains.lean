import Mathlib.Control.Basic
import TypedCql.Proofs.Contribution
import TypedCql.Query.Chain

/-!
# Chains, one operator after the other

An operator of a query compiles to the chain before it and then a step of its own, so the parts of a
chain are those of its beginning, taken further by the operators that follow (`compile_append`). A
visit never takes back what is there already: fields, group keys and assignments only grow
(`grows_of_adds`), and therefore what one operator contributes is still there at the end.
-/

namespace TypedCql

/-! ## Growth -/

/-- What a projection or a grouping has contributed stays, and what is new comes after it. -/
structure Parts.Grows (p q : Parts) : Prop where
  fields : p.fields <+: q.fields
  groupBy : p.groupBy <+: q.groupBy
  assignments : p.assignments <+: q.assignments

namespace Parts.Grows

variable {p q r : Parts}

theorem refl (p : Parts) : Grows p p where
  fields := List.prefix_rfl
  groupBy := List.prefix_rfl
  assignments := List.prefix_rfl

theorem trans (h : Grows p q) (h' : Grows q r) : Grows p r where
  fields := h.fields.trans h'.fields
  groupBy := h.groupBy.trans h'.groupBy
  assignments := h.assignments.trans h'.assignments

theorem addCondition (p : Parts) (t : ConditionTarget) (f : Fragment) :
    Grows p (p.addCondition t f) := by
  cases t <;> exact ⟨List.prefix_rfl, List.prefix_rfl, List.prefix_rfl⟩

end Parts.Grows

namespace Context

/-- An aggregate takes in the one field that is new. -/
theorem aggregated_eq_some {before fields result : List Field} {function : String}
    (hgrows : before <+: fields)
    (h : aggregated before.length function fields = some result) :
    ∃ field, fields = before ++ [field] ∧ result = before ++ [.aggregate function field] := by
  obtain ⟨new, rfl⟩ := hgrows
  unfold aggregated at h
  rw [List.drop_left, List.take_left] at h
  split at h
  · next field => exact ⟨field, rfl, (Option.some.inj h).symm⟩
  · exact nomatch h

theorem grows_of_adds {c : Context} {e : Expr} {s : Scope} {p q : Parts} (h : c.Adds e s p q) :
    p.Grows q := by
  induction h with
  | refl => exact .refl _
  | trans _ _ ihpq ihqr => exact ihpq.trans ihqr
  | within _ _ ih => exact ih
  | condition p t => exact .addCondition p t _
  | column | countAll | groupKeys =>
      exact ⟨List.prefix_append .., List.prefix_rfl, List.prefix_rfl⟩
  | groupKey => exact ⟨List.prefix_rfl, List.prefix_append .., List.prefix_rfl⟩
  | assignment => exact ⟨List.prefix_rfl, List.prefix_rfl, List.prefix_append ..⟩
  | orderKey | limit | filtering => exact ⟨List.prefix_rfl, List.prefix_rfl, List.prefix_rfl⟩
  | aggregate _ _ _ _ _ hfields ih =>
      obtain ⟨field, -, rfl⟩ := aggregated_eq_some ih.fields hfields
      exact ⟨List.prefix_append .., ih.groupBy, ih.assignments⟩

theorem step_grows {c : Context} {e : Expr} {s : Scope} {p q : Parts}
    (h : (c.step e s).Yields p q) : p.Grows q :=
  grows_of_adds (c.step_adds e s p q h)

end Context

/-! ## Operators -/

/-- What an operator does after the chain before it. -/
def QueryOperator.step (c : Context) : QueryOperator → Step
  | .filter predicate =>
    Step.openCondition .rows >=> c.step predicate.asLambda (Scope.condition {} .rows)
  | .updateIf predicate | .deleteIf predicate =>
    Step.openCondition .change >=> c.step predicate.asLambda (Scope.condition {} .change)
  | .select projector => c.step projector.asLambda (Scope.enter {} .select)
  | .take count => c.step (.constant (.int count)) (Scope.enter {} .take)
  | .orderBy key | .thenBy key => c.step key.asLambda (Scope.enter {} .orderBy)
  | .orderByDescending key | .thenByDescending key =>
    c.step key.asLambda (Scope.enter {} .orderByDescending)
  | .groupBy key => c.step key.asLambda (Scope.enter {} .groupBy)
  | .allowFiltering => Step.modify fun p => { p with allowFiltering := true }
  | .first none | .firstOrDefault none =>
    Traced.pure >=> Step.modify fun p => { p with limit := some 1 }
  | .first (some predicate) | .firstOrDefault (some predicate) =>
    (Step.openCondition .rows >=> c.step predicate.asLambda (Scope.condition {} .rows)) >=>
      Step.modify fun p => { p with limit := some 1 }

namespace Context

variable {c : Context} {p q : Parts}

/-- An operator takes its step after the expression that it is applied to. -/
theorem step_apply (op : QueryOperator) (e : Expr) :
    c.step (op.apply e) {} = (c.step e {} >=> op.step c) := by
  cases op with
  | first predicate => cases predicate <;> rfl
  | firstOrDefault predicate => cases predicate <;> rfl
  | _ => rfl

theorem yields_apply (op : QueryOperator) (e : Expr) :
    (c.step (op.apply e) {}).Yields p q ↔
      ∃ r, (c.step e {}).Yields p r ∧ (op.step c).Yields r q := by
  rw [step_apply]
  exact Step.yields_seq

/-- An operator contributes what it would on its own. -/
theorem operator_adds {op : QueryOperator} (h : (op.step c).Yields p q) :
    c.Adds (op.apply .root) {} p q :=
  c.step_adds _ _ p q ((yields_apply op .root).mpr ⟨p, Step.yields_pure.mpr rfl, h⟩)

theorem operator_grows {op : QueryOperator} (h : (op.step c).Yields p q) : p.Grows q :=
  grows_of_adds (operator_adds h)

theorem operators_grow {ops : List QueryOperator}
    (h : (Step.sequence (ops.map (QueryOperator.step c))).Yields p q) : p.Grows q := by
  refine Step.sequence_relates .refl .trans (fun st hst p q hq => ?_) p q h
  obtain ⟨op, -, rfl⟩ := List.mem_map.mp hst
  exact operator_grows hq

/-- Operators come after the expression that they are applied to, in their own order. -/
theorem step_foldl (ops : List QueryOperator) (e : Expr) :
    c.step (ops.foldl QueryOperator.apply e) {} =
      (c.step e {} >=> Step.sequence (ops.map (QueryOperator.step c))) := by
  induction ops generalizing e with
  | nil => exact (fish_pure _).symm
  | cons op rest ih =>
      rw [List.foldl_cons, ih, step_apply, fish_assoc]
      rfl

theorem yields_foldl (ops : List QueryOperator) (e : Expr) :
    (c.step (ops.foldl QueryOperator.apply e) {}).Yields p q ↔
      ∃ r, (c.step e {}).Yields p r ∧
        (Step.sequence (ops.map (QueryOperator.step c))).Yields r q := by
  rw [step_foldl]
  exact Step.yields_seq

end Context

namespace Query

variable {t : Table} {kind : StatementKind} {q : Parts}

/-- **Chains compile from their beginning on.** The parts of a chain are those of its beginning,
taken further by the operators that follow. -/
theorem compile_append (before after : List QueryOperator) :
    ((ofOperators t (before ++ after)).compile kind).outcome = .ok q ↔
      ∃ p, ((ofOperators t before).compile kind).outcome = .ok p ∧
        (Step.sequence (after.map (QueryOperator.step ⟨t.mapping, kind⟩))).Yields p q := by
  show (Context.step _ ((before ++ after).foldl QueryOperator.apply .root) {}).Yields {} q ↔ _
  rw [List.foldl_append, Context.yields_foldl]
  exact Iff.rfl

/-- What one operator does in a chain. -/
theorem compile_around (before after : List QueryOperator) (op : QueryOperator) :
    ((ofOperators t (before ++ op :: after)).compile kind).outcome = .ok q ↔
      ∃ p r, ((ofOperators t before).compile kind).outcome = .ok p ∧
        (op.step ⟨t.mapping, kind⟩).Yields p r ∧
        (Step.sequence (after.map (QueryOperator.step ⟨t.mapping, kind⟩))).Yields r q := by
  rw [compile_append]
  constructor
  · rintro ⟨p, hp, hops⟩
    obtain ⟨r, hop, hafter⟩ := Step.yields_seq.mp hops
    exact ⟨p, r, hp, hop, hafter⟩
  · rintro ⟨p, r, hp, hop, hafter⟩
    exact ⟨p, hp, Step.yields_seq.mpr ⟨r, hop, hafter⟩⟩

end Query

end TypedCql
