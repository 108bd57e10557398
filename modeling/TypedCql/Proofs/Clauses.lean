import TypedCql.Proofs.Assignments

/-!
# Clauses and footprints

The parts of a statement belong to clauses, and an expression without query operators has a small
footprint: the clauses of its place, which are all that it writes and all that it looks at.
`Parts.AgreeOn S p q` says that two parts agree on the clauses of `S`, `Clause.Alone` that a change
of the parts concerns a single clause, and `Within S e s` that a visit of `e` in the scope `s`
cannot leave the clauses of `S`.
-/

namespace TypedCql

/-- The clauses that the parts of a statement belong to. -/
inductive Clause
  /-- The conditions that choose the rows. -/
  | rows
  /-- The conditions under which the rows are changed. -/
  | change
  /-- The selected fields and the assignments. -/
  | projection
  | order
  | grouping
  | limit
  | filtering
  deriving DecidableEq

/-- What is collected for a clause. -/
def Clause.Content : Clause → Type
  | .rows | .change => Fragment
  | .projection => List Field × List Assignment
  | .order => List OrderKey
  | .grouping => List Identifier
  | .limit => Option Int32
  | .filtering => Bool

def ConditionTarget.clause : ConditionTarget → Clause
  | .rows => .rows
  | .change => .change

namespace Parts

def clause (p : Parts) : (i : Clause) → i.Content
  | .rows => p.rowConditions
  | .change => p.changeConditions
  | .projection => (p.fields, p.assignments)
  | .order => p.orderBy
  | .grouping => p.groupBy
  | .limit => p.limit
  | .filtering => p.allowFiltering

/-- There is nothing in the parts but their clauses. -/
theorem eq_of_clauses {p q : Parts} (h : ∀ i, p.clause i = q.clause i) : p = q := by
  have hrows : p.rowConditions = q.rowConditions := h .rows
  have hchange : p.changeConditions = q.changeConditions := h .change
  have hprojection : (p.fields, p.assignments) = (q.fields, q.assignments) := h .projection
  have horder : p.orderBy = q.orderBy := h .order
  have hgrouping : p.groupBy = q.groupBy := h .grouping
  have hlimit : p.limit = q.limit := h .limit
  have hfiltering : p.allowFiltering = q.allowFiltering := h .filtering
  obtain ⟨hfields, hassignments⟩ := Prod.mk.inj hprojection
  cases p
  cases q
  simp_all

theorem clause_eq_iff_conditions_eq {p q : Parts} (t : ConditionTarget) :
    p.clause t.clause = q.clause t.clause ↔ p.conditions t = q.conditions t := by
  cases t <;> exact Iff.rfl

/-- The parts have the same in the clauses of `S`. -/
def AgreeOn (S : Clause → Prop) (p q : Parts) : Prop := ∀ i, S i → p.clause i = q.clause i

namespace AgreeOn

variable {S : Clause → Prop} {p q r : Parts}

theorem refl (p : Parts) : AgreeOn S p p := fun _ _ => rfl

theorem trans (h : AgreeOn S p q) (h' : AgreeOn S q r) : AgreeOn S p r :=
  fun i hi => (h i hi).trans (h' i hi)

end AgreeOn

end Parts

/-! ## Changes of a single clause -/

/-- The change concerns the clause `i` alone: it leaves every other one as it is, and what it makes
of this one depends on nothing else. -/
structure Clause.Alone (i : Clause) (f : Parts → Parts) : Prop where
  elsewhere : ∀ p j, j ≠ i → (f p).clause j = p.clause j
  here : ∀ {p q : Parts}, p.clause i = q.clause i → (f p).clause i = (f q).clause i

namespace Clause

theorem alone_addCondition (t : ConditionTarget) (f : Fragment) :
    t.clause.Alone (·.addCondition t f) where
  elsewhere p j hj := by
    cases t <;> cases j <;> first | rfl | exact absurd rfl hj
  here h := by
    rw [Parts.clause_eq_iff_conditions_eq] at h ⊢
    rw [Step.conditions_addCondition_self, Step.conditions_addCondition_self, h]

/-- Whether a condition is joined to others depends on them alone. -/
theorem alone_openCondition (t : ConditionTarget) :
    t.clause.Alone fun p =>
      if (p.conditions t).isBlank then p else p.addCondition t [.verbatim " AND "] where
  elsewhere p j hj := by
    split
    · rfl
    · exact (alone_addCondition t _).elsewhere p j hj
  here {p q} h := by
    have hconditions : p.conditions t = q.conditions t :=
      (Parts.clause_eq_iff_conditions_eq t).mp h
    rw [hconditions]
    split
    · exact h
    · exact (alone_addCondition t _).here h

theorem alone_fields (g : List Field → List Field) :
    projection.Alone fun p => { p with fields := g p.fields } where
  elsewhere p j hj := by cases j <;> first | rfl | exact absurd rfl hj
  here h := by
    obtain ⟨hfields, hassignments⟩ := Prod.mk.inj h
    exact Prod.ext (congrArg g hfields) hassignments

theorem alone_assignments (new : List Assignment) :
    projection.Alone fun p => { p with assignments := p.assignments ++ new } where
  elsewhere p j hj := by cases j <;> first | rfl | exact absurd rfl hj
  here h := by
    obtain ⟨hfields, hassignments⟩ := Prod.mk.inj h
    exact Prod.ext hfields (congrArg (· ++ new) hassignments)

theorem alone_orderBy (new : List OrderKey) :
    order.Alone fun p => { p with orderBy := p.orderBy ++ new } where
  elsewhere p j hj := by cases j <;> first | rfl | exact absurd rfl hj
  here h := congrArg (· ++ new) h

theorem alone_groupBy (new : List Identifier) :
    grouping.Alone fun p => { p with groupBy := p.groupBy ++ new } where
  elsewhere p j hj := by cases j <;> first | rfl | exact absurd rfl hj
  here h := congrArg (· ++ new) h

theorem alone_limit (n : Int32) : limit.Alone fun p => { p with limit := some n } where
  elsewhere p j hj := by cases j <;> first | rfl | exact absurd rfl hj
  here _ := rfl

theorem alone_filtering : filtering.Alone fun p => { p with allowFiltering := true } where
  elsewhere p j hj := by cases j <;> first | rfl | exact absurd rfl hj
  here _ := rfl

end Clause

/-! ## Footprints -/

/-- The clauses that a visit writes or looks at, if it meets no query operator. A projection looks
at the grouping for its key. -/
def Scope.footprint (s : Scope) : List Clause :=
  match s.phase with
  | .chain => []
  | .condition => [s.target.clause]
  | .select | .binding => [.projection, .grouping]
  | .take => [.limit]
  | .orderBy | .orderByDescending => [.order]
  | .groupBy => [.grouping]

theorem Scope.footprint_bodyScope (s : Scope) :
    (Context.bodyScope s).footprint = s.footprint := by
  unfold Context.bodyScope
  split
  · next hphase =>
      simp only [Scope.footprint, hphase]
      rfl
  · rfl

namespace Expr

/-- Whether an operator of a query occurs anywhere. -/
def hasOperator (e : Expr) : Bool := e.subexpressions.any isOperator

theorem hasOperator_of_subset {e e' : Expr} (h : e'.subexpressions ⊆ e.subexpressions)
    (he : e'.hasOperator = true) : e.hasOperator = true := by
  unfold hasOperator at *
  rw [List.any_eq_true] at *
  obtain ⟨x, hx, hoperator⟩ := he
  exact ⟨x, h hx, hoperator⟩

theorem hasOperator_asLambda (e : Expr) : e.asLambda.hasOperator = e.hasOperator := by
  cases e <;> rfl

theorem hasOperator_call {method : Method} (h : method.isOperator = true) (args : List Expr) :
    (Expr.call method args).hasOperator = true :=
  List.any_eq_true.mpr ⟨_, self_mem_subexpressions _, h⟩

end Expr

/-- A visit of the expression in the scope keeps to the clauses of `S`: they cover its place, and if
there are operators, which lead to other places, then they are all the clauses. -/
structure Within (S : Clause → Prop) (e : Expr) (s : Scope) : Prop where
  place : ∀ i ∈ s.footprint, S i
  operators : e.hasOperator = true → ∀ i, S i

namespace Within

variable {S : Clause → Prop} {e e' : Expr} {s s' : Scope}

theorem of_all (h : ∀ i, S i) (e : Expr) (s : Scope) : Within S e s where
  place i _ := h i
  operators _ := h

/-- A part that stays with the clauses of its node. -/
theorem part (h : Within S e s) (hpart : e'.subexpressions ⊆ e.subexpressions)
    (hplace : s'.footprint = s.footprint) : Within S e' s' where
  place := hplace ▸ h.place
  operators h' := h.operators (Expr.hasOperator_of_subset hpart h')

theorem operand (h : Within S e s) (he : e' ∈ e.operands) (comparison : Option BinaryOp) :
    Within S e' { s with comparison := comparison } :=
  h.part (Expr.subset_of_operand he) rfl

theorem body (h : Within S (.lambda e) s) : Within S e (Context.bodyScope s) :=
  h.part (List.subset_cons_self ..) s.footprint_bodyScope

theorem binding {name : String} (h : Within S e s) (he : (name, e') ∈ e.bindings) :
    Within S e' (s.assigning name) :=
  h.part (Expr.subset_of_binding he) rfl

end Within

end TypedCql
