import TypedCql.Proofs.Invariance

/-!
# Operators in another order

Operators whose footprints are disjoint can change places: each of them leaves the clauses of the
other as they are, and finds in its own clauses the same whether the other has been there or not.
`Step.KeepsTo` states the two halves for any step, `Step.KeepsTo.comm` is the exchange, and that an
operator keeps to its footprint comes from comparing the visit of its argument with itself.
-/

namespace TypedCql

/-! ## Outcomes without their errors -/

namespace Outcome

variable {α β : Type}

theorem toOption_bind (o : Outcome α) (f : α → Outcome β) :
    (o >>= f).toOption = o.toOption.bind fun a => (f a).toOption := by
  cases o <;> rfl

theorem toOption_map (o : Outcome α) (f : α → β) : (o.map f).toOption = o.toOption.map f := by
  cases o <;> rfl

theorem toOption_eq {o o' : Outcome α} (h : ∀ a, o = .ok a → o' = .ok a)
    (h' : ∀ a, o' = .ok a → o = .ok a) : o.toOption = o'.toOption := by
  cases o with
  | ok a => rw [h a rfl]
  | error e =>
      cases o' with
      | ok a => exact nomatch h' a rfl
      | error e' => rfl

end Outcome

/-! ## Steps that keep to some clauses -/

/-- The step leaves every clause but those of `S` as it is, and what it makes of them depends on
nothing else. -/
structure Step.KeepsTo (S : List Clause) (st : Step) : Prop where
  elsewhere : ∀ {p q : Parts}, st.Yields p q → p.AgreeOn (· ∉ S) q
  here : ∀ {p p' q : Parts}, p.AgreeOn (· ∈ S) p' → st.Yields p q →
    ∃ q', st.Yields p' q' ∧ q.AgreeOn (· ∈ S) q'

namespace Step.KeepsTo

variable {S S' : List Clause} {first next : Step} {p r : Parts}

/-- **Exchange.** Steps that keep to disjoint clauses come to the same in either order. -/
theorem comm (hfirst : first.KeepsTo S) (hnext : next.KeepsTo S') (hdisjoint : ∀ i ∈ S, i ∉ S')
    (h : Step.Yields (first >=> next) p r) : Step.Yields (next >=> first) p r := by
  obtain ⟨q, hpq, hqr⟩ := Step.yields_seq.mp h
  have hoff : p.AgreeOn (· ∉ S) q := hfirst.elsewhere hpq
  have hoff' : q.AgreeOn (· ∉ S') r := hnext.elsewhere hqr
  -- The second step finds at the beginning what it would find after the first.
  have hfound : q.AgreeOn (· ∈ S') p := fun i hi =>
    (hoff i fun hS => hdisjoint i hS hi).symm
  obtain ⟨q', hpq', hrq'⟩ := hnext.here hfound hqr
  have hoffq : p.AgreeOn (· ∉ S') q' := hnext.elsewhere hpq'
  have hfound' : p.AgreeOn (· ∈ S) q' := fun i hi => hoffq i (hdisjoint i hi)
  obtain ⟨r', hq'r', hqr'⟩ := hfirst.here hfound' hpq
  have hoffr : q'.AgreeOn (· ∉ S) r' := hfirst.elsewhere hq'r'
  have hsame : r' = r := by
    refine Parts.eq_of_clauses fun i => ?_
    by_cases hi : i ∈ S
    · exact (hqr' i hi).symm.trans (hoff' i (hdisjoint i hi))
    · by_cases hi' : i ∈ S'
      · exact (hoffr i hi).symm.trans (hrq' i hi').symm
      · calc r'.clause i = q'.clause i := (hoffr i hi).symm
          _ = p.clause i := (hoffq i hi').symm
          _ = q.clause i := hoff i hi
          _ = r.clause i := hoff' i hi'
  exact Step.yields_seq.mpr ⟨q', hpq', hsame ▸ hq'r'⟩

end Step.KeepsTo

/-! ## Footprints of operators -/

namespace QueryOperator

/-- The expression that an operator is given. -/
def argument? : QueryOperator → Option Expr
  | .filter e | .select e | .orderBy e | .thenBy e | .orderByDescending e | .thenByDescending e
  | .groupBy e | .updateIf e | .deleteIf e => some e
  | .first e | .firstOrDefault e => e
  | .take _ | .allowFiltering => none

/-- The clauses that an operator writes. -/
def writes : QueryOperator → List Clause
  | .filter _ => [.rows]
  | .updateIf _ | .deleteIf _ => [.change]
  | .select _ => [.projection]
  | .take _ => [.limit]
  | .orderBy _ | .thenBy _ | .orderByDescending _ | .thenByDescending _ => [.order]
  | .groupBy _ => [.grouping]
  | .allowFiltering => [.filtering]
  | .first predicate | .firstOrDefault predicate =>
    if predicate.isSome then [.rows, .limit] else [.limit]

/-- The clauses of other operators that an operator reads. -/
def reads : QueryOperator → List Clause
  | .select _ => [.grouping]
  | _ => []

/-- Neither operator writes what the other writes or reads. -/
def Independent (a b : QueryOperator) : Prop :=
  (∀ i ∈ a.writes, i ∉ b.writes ++ b.reads) ∧ ∀ i ∈ b.writes, i ∉ a.writes ++ a.reads

instance (a b : QueryOperator) : Decidable (Independent a b) :=
  inferInstanceAs (Decidable (_ ∧ _))

/-- Two projections would write the same, so no clause is read by both. -/
theorem Independent.disjoint {a b : QueryOperator} (h : Independent a b) :
    ∀ i ∈ a.writes ++ a.reads, i ∉ b.writes ++ b.reads := by
  intro i hi hi'
  rcases List.mem_append.mp hi with hwrites | hreads
  · exact h.1 i hwrites hi'
  · rcases List.mem_append.mp hi' with hwrites' | hreads'
    · exact h.2 i hwrites' hi
    · cases a <;> cases b <;> first
        | exact absurd hreads List.not_mem_nil
        | exact absurd hreads' List.not_mem_nil
        | exact h.1 .projection (List.mem_cons_self ..) (List.mem_cons_self ..)

/-- The argument of the operator holds no operators of its own. -/
def HasPlainArgument (op : QueryOperator) : Prop :=
  ∀ e, op.argument? = some e → e.hasOperator = false

section Steps

variable {op : QueryOperator} (hplain : op.HasPlainArgument)
include hplain

theorem step_tracks {k : Comparison} (h : ∀ i ∈ op.writes ++ op.reads, k.clauses i) :
    k.Tracks (op.step k.context) (op.step k.context') := by
  have argument {e : Expr} (he : op.argument? = some e) {s : Scope}
      (hs : s.footprint ⊆ op.writes ++ op.reads) :
      k.Tracks (k.context.step e.asLambda s) (k.context'.step e.asLambda s) := by
    refine Comparison.step_tracks (.refl _) ⟨fun i hi => h i (hs hi), fun hoperator => ?_⟩
    rw [Expr.hasOperator_asLambda, hplain e he] at hoperator
    exact absurd hoperator Bool.false_ne_true
  have predicate {e : Expr} (he : op.argument? = some e) {t : ConditionTarget}
      (ht : t.clause ∈ op.writes ++ op.reads) :
      k.Tracks (Step.openCondition t >=> k.context.step e.asLambda (Scope.condition {} t))
        (Step.openCondition t >=> k.context'.step e.asLambda (Scope.condition {} t)) :=
    Comparison.tracks_seq (Comparison.tracks_modify (Clause.alone_openCondition t) (h _ ht))
      (argument he fun i hi => List.mem_singleton.mp hi ▸ ht)
  cases op with
  | filter e | updateIf e | deleteIf e => exact predicate rfl (List.mem_singleton_self _)
  | select e | orderBy e | thenBy e | orderByDescending e | thenByDescending e | groupBy e =>
      exact argument rfl (List.Subset.refl _)
  | take n =>
      exact Comparison.step_tracks (.constant _) ⟨h, fun hoperator => nomatch hoperator⟩
  | allowFiltering =>
      exact Comparison.tracks_modify Clause.alone_filtering (h _ (List.mem_singleton_self _))
  | first e | firstOrDefault e =>
      cases e with
      | none =>
          exact Comparison.tracks_seq Comparison.tracks_pure
            (Comparison.tracks_modify (Clause.alone_limit 1) (h _ (List.mem_singleton_self _)))
      | some e =>
          exact Comparison.tracks_seq (predicate rfl (List.mem_cons_self ..))
            (Comparison.tracks_modify (Clause.alone_limit 1)
              (h _ (List.mem_cons_of_mem _ (List.mem_singleton_self _))))

/-- An operator writes its own clauses, by what it finds in them and in those it reads. -/
theorem step_keepsTo (c : Context) : (op.step c).KeepsTo (op.writes ++ op.reads) := by
  let k : Comparison := ⟨c.mapping, c.kind, c.kind, false, (· ∈ op.writes ++ op.reads)⟩
  have htracks : k.Tracks (op.step c) (op.step c) := step_tracks hplain fun _ hi => hi
  refine ⟨fun {p q} h => ?_, fun {p p' q} hp h => ?_⟩
  · have hagrees := htracks p p (.refl p)
    rw [h] at hagrees
    exact hagrees.related.elsewhere
  · have hagrees := htracks p p' hp
    rw [h] at hagrees
    generalize ho : (op.step c p').outcome = o at hagrees
    cases hagrees with
    | ok hq => exact ⟨_, ho, hq.agree⟩
    | right hfails =>
        rcases hfails with hkind | hrows
        · exact absurd rfl hkind
        · exact absurd hrows Bool.false_ne_true

end Steps

end QueryOperator

/-! ## Chains -/

namespace Query

open QueryOperator

variable {t : Table} {before after : List QueryOperator} {a b : QueryOperator}

theorem compile_of_swapped {kind : StatementKind} {r : Parts} (ha : a.HasPlainArgument)
    (hb : b.HasPlainArgument) (hind : a.Independent b)
    (h : ((ofOperators t (before ++ a :: b :: after)).compile kind).outcome = .ok r) :
    ((ofOperators t (before ++ b :: a :: after)).compile kind).outcome = .ok r := by
  rw [compile_append] at *
  obtain ⟨p, hp, hops⟩ := h
  obtain ⟨q₁, hpq₁, hrest⟩ := Step.yields_seq.mp hops
  obtain ⟨q, hq₁q, hqr⟩ := Step.yields_seq.mp hrest
  have hboth : Step.Yields (b.step ⟨t.mapping, kind⟩ >=> a.step ⟨t.mapping, kind⟩) p q :=
    (step_keepsTo ha _).comm (step_keepsTo hb _) hind.disjoint
      (Step.yields_seq.mpr ⟨q₁, hpq₁, hq₁q⟩)
  obtain ⟨q₂, hpq₂, hq₂q⟩ := Step.yields_seq.mp hboth
  exact ⟨p, hp, Step.yields_seq.mpr ⟨q₂, hpq₂, Step.yields_seq.mpr ⟨q, hq₂q, hqr⟩⟩⟩

/-- Operators that are independent of each other can be compiled in either order. -/
theorem compile_swap {kind : StatementKind} (ha : a.HasPlainArgument) (hb : b.HasPlainArgument)
    (hind : a.Independent b) :
    ((ofOperators t (before ++ a :: b :: after)).compile kind).outcome.toOption =
      ((ofOperators t (before ++ b :: a :: after)).compile kind).outcome.toOption :=
  Outcome.toOption_eq (fun _ => compile_of_swapped ha hb hind)
    fun _ => compile_of_swapped hb ha ⟨hind.2, hind.1⟩

/-- **Independent operators can change places.** Take two operators next to each other in a chain,
neither of which writes what the other writes or reads, and whose predicates, keys and projectors
hold no query operators. Whatever statement is made from the query, and in either form, both orders
fail, or both yield the same. -/
theorem statement_swap (ha : a.HasPlainArgument) (hb : b.HasPlainArgument)
    (hind : a.Independent b) (u : QueryUse) :
    (u.command (ofOperators t (before ++ a :: b :: after))).statement.outcome.toOption =
        (u.command (ofOperators t (before ++ b :: a :: after))).statement.outcome.toOption ∧
      (u.command (ofOperators t (before ++ a :: b :: after))).inline.outcome.toOption =
        (u.command (ofOperators t (before ++ b :: a :: after))).inline.outcome.toOption := by
  have hfragment :
      (u.command (ofOperators t (before ++ a :: b :: after))).fragment.outcome.toOption =
        (u.command (ofOperators t (before ++ b :: a :: after))).fragment.outcome.toOption := by
    rw [QueryUse.fragment_outcome, QueryUse.fragment_outcome, Outcome.toOption_bind,
      Outcome.toOption_bind, compile_swap ha hb hind]
    rfl
  constructor
  · rw [Command.statement_outcome, Command.statement_outcome, Outcome.toOption_map,
      Outcome.toOption_map, hfragment]
  · rw [Command.inline_outcome, Command.inline_outcome, Outcome.toOption_map,
      Outcome.toOption_map, hfragment]

/-- The name of the first person can be asked for before the person is. -/
theorem statement_swap_firstPerson :
    (Change.firstPerson.HasPlainArgument ∧
      (QueryOperator.select (.column "name")).HasPlainArgument ∧
      Change.firstPerson.Independent (.select (.column "name"))) ∧
    (QueryUse.select.command (ofOperators { mapping := people }
        ([] ++ Change.firstPerson :: .select (.column "name") :: [.take 1]))).inline.outcome =
      .ok "SELECT name FROM Person WHERE id = 1 LIMIT 1" ∧
    (QueryUse.select.command (ofOperators { mapping := people }
        ([] ++ .select (.column "name") :: Change.firstPerson ::
          [.take 1]))).inline.outcome.toOption =
      some "SELECT name FROM Person WHERE id = 1 LIMIT 1" := by
  have ha : Change.firstPerson.HasPlainArgument := by
    rintro e ⟨⟩
    rfl
  have hb : (QueryOperator.select (.column "name")).HasPlainArgument := by
    rintro e ⟨⟩
    rfl
  have hind : Change.firstPerson.Independent (.select (.column "name")) := by decide
  have hinline : (QueryUse.select.command (ofOperators { mapping := people }
      ([] ++ Change.firstPerson :: .select (.column "name") :: [.take 1]))).inline.outcome =
        .ok "SELECT name FROM Person WHERE id = 1 LIMIT 1" := rfl
  have hswap := (@statement_swap { mapping := people } [] [.take 1] _ _ ha hb hind .select).2
  rw [hinline] at hswap
  exact ⟨⟨ha, hb, hind⟩, hinline, hswap.symm⟩

end Query

end TypedCql
