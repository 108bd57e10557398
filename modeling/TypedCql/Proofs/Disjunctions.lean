import TypedCql.Proofs.Clauses
import TypedCql.Proofs.Evaluation

/-!
# No disjunction is lost

CQL has neither disjunctions nor arithmetic in its conditions. Where such an operator has the row
below it, a predicate cannot be compiled, however deep inside of the predicate it stands: either the
compiler visits the operator, and refuses it, or it evaluates an expression around it, and finds no
value. Only an argument beyond those that a method takes would be passed over, so the calls have to
have as many as their methods take (`Expr.isWellFormed`).

The argument is an induction on the predicate. What a visit in a condition has gone through is
expressible (`expressible_of_yields`): its visited parts by induction, its evaluated ones because
evaluation is strict.
-/

namespace TypedCql

/-- The number of arguments that a method takes, if it is fixed. The receiver counts. -/
def Method.arity? : Method → Option Nat
  | .contains | .containsKey | .startsWith | .compareTo | .equals => some 2
  | .maxTimeUuid | .minTimeUuid | .append | .prepend | .subtractAssign => some 1
  | .min | .max | .average | .sum => some 2
  | .count => some 1
  | _ => none

namespace Expr

/-- A call has as many arguments as its method takes. -/
def hasArity : Expr → Bool
  | .call method args => method.arity?.all fun n => args.length == n
  | _ => true

/-- So does every call inside of the expression. -/
def isWellFormed (e : Expr) : Bool := e.subexpressions.all hasArity

/-- A predicate as it can be built: its calls are well formed, and no operator of a query is among
them. -/
structure IsPredicate (e : Expr) : Prop where
  wellFormed : e.isWellFormed = true
  noOperator : e.hasOperator = false

namespace IsPredicate

theorem part {e e' : Expr} (h : IsPredicate e) (hpart : e'.subexpressions ⊆ e.subexpressions) :
    IsPredicate e' where
  wellFormed := by
    have hall := List.all_eq_true.mp h.wellFormed
    exact List.all_eq_true.mpr fun x hx => hall x (hpart hx)
  noOperator := by
    rw [Bool.eq_false_iff]
    intro hoperator
    exact Bool.false_ne_true (h.noOperator.symm.trans (hasOperator_of_subset hpart hoperator))

theorem asLambda {e : Expr} (h : IsPredicate e) : IsPredicate e.asLambda where
  wellFormed := by
    have hsame : e.asLambda.isWellFormed = e.isWellFormed := by cases e <;> rfl
    exact hsame.trans h.wellFormed
  noOperator := e.hasOperator_asLambda.trans h.noOperator

theorem call {method : Method} {args : List Expr} (h : IsPredicate (.call method args)) :
    method.isOperator = false ∧ (Expr.call method args).hasArity = true := by
  refine ⟨?_, List.all_eq_true.mp h.wellFormed _ (self_mem_subexpressions _)⟩
  rw [Bool.eq_false_iff]
  intro hoperator
  exact Bool.false_ne_true (h.noOperator.symm.trans (hasOperator_call hoperator args))

end IsPredicate

/-- A disjunction or arithmetic, which the conditions of CQL cannot express. -/
def isInexpressible : Expr → Bool
  | .binary .or _ _ | .binary .orElse _ _ | .binary .add _ _ | .binary .sub _ _ | .binary .mul _ _
  | .binary .div _ _ | .binary .rem _ _ => true
  | _ => false

theorem isInexpressible_binary (op : BinaryOp) (l r : Expr) :
    (Expr.binary op l r).isInexpressible = op.cql?.isNone := by
  cases op <;> rfl

/-- Nothing that cannot be expressed has the row below it. -/
def Expressible (e : Expr) : Prop :=
  ∀ part ∈ e.subexpressions, part.isInexpressible = true → part.usesRow = false

theorem expressible_of_evaluates {e : Expr} {v : Value} (h : e.evaluate = .ok v) :
    e.Expressible := by
  intro part hpart _
  obtain ⟨w, hw⟩ := evaluates_of_mem h hpart
  rw [Bool.eq_false_iff]
  intro hrow
  exact not_evaluates_of_usesRow hrow w hw

/-- A node that can be expressed itself, as all that is inside it can. -/
theorem expressible_node {e : Expr} {inner : List Expr} (he : e.subexpressions = e :: inner)
    (hself : e.isInexpressible = false)
    (hinner : ∀ part ∈ inner, part.isInexpressible = true → part.usesRow = false) :
    e.Expressible := by
  intro part hpart hpartInexpressible
  rw [he] at hpart
  rcases List.mem_cons.mp hpart with rfl | hpart
  · rw [hself] at hpartInexpressible
    exact absurd hpartInexpressible Bool.false_ne_true
  · exact hinner part hpart hpartInexpressible

theorem expressible_unary {op : UnaryOp} {e : Expr} (h : e.Expressible) :
    (Expr.unary op e).Expressible :=
  expressible_node rfl rfl h

theorem expressible_lambda {body : Expr} (h : body.Expressible) : (Expr.lambda body).Expressible :=
  expressible_node rfl rfl h

theorem expressible_binary {op : BinaryOp} {l r : Expr} (hop : op.cql?.isNone = false)
    (hl : l.Expressible) (hr : r.Expressible) : (Expr.binary op l r).Expressible := by
  refine expressible_node rfl ((isInexpressible_binary op l r).trans hop) fun part hpart => ?_
  rcases List.mem_append.mp hpart with hpart | hpart
  · exact hl part hpart
  · exact hr part hpart

theorem expressible_column (name : String) : (Expr.column name).Expressible :=
  expressible_node rfl rfl (by simp [subexpressions, isInexpressible])

/-- A column holds no operator, and neither do the conversions around it. -/
theorem expressible_of_rowMember {e : Expr} {name : String}
    (h : e.withoutConvert.rowMember? = some name) : e.Expressible := by
  fun_induction withoutConvert e with
  | case1 e ih => exact expressible_unary (ih h)
  | case2 e =>
      cases e with
      | member target member =>
          cases target with
          | parameter => exact expressible_column member
          | _ => exact absurd h (Option.some_ne_none name).symm
      | _ => exact absurd h (Option.some_ne_none name).symm

theorem mem_argumentSubexpressions {part : Expr} {args : List Expr}
    (h : part ∈ argumentSubexpressions args) : ∃ e ∈ args, part ∈ e.subexpressions := by
  induction args with
  | nil => exact absurd h List.not_mem_nil
  | cons e rest ih =>
      rcases List.mem_append.mp h with h | h
      · exact ⟨e, List.mem_cons_self .., h⟩
      · obtain ⟨e', he', hpart⟩ := ih h
        exact ⟨e', List.mem_cons_of_mem _ he', hpart⟩

theorem expressible_call {method : Method} {args : List Expr}
    (h : ∀ e ∈ args, e.Expressible) : (Expr.call method args).Expressible := by
  refine expressible_node rfl rfl fun part hpart => ?_
  obtain ⟨e, he, hpart⟩ := mem_argumentSubexpressions hpart
  exact h e he part hpart

theorem expressible_pair {method : Method} {a b : Expr} (ha : a.Expressible)
    (hb : b.Expressible) : (Expr.call method [a, b]).Expressible :=
  expressible_call (List.forall_mem_cons.mpr ⟨ha, List.forall_mem_singleton.mpr hb⟩)

end Expr

/-- Steps in a row go through one by one. -/
theorem Step.yields_of_separated {s : Scope} {separator : String} :
    ∀ {steps : List Step} {p q : Parts}, (separated s separator steps).Yields p q →
      ∀ st ∈ steps, ∃ p' q', st.Yields p' q'
  | [st], p, q, h, st', hst' => List.mem_singleton.mp hst' ▸ ⟨p, q, h⟩
  | st :: _ :: _, p, q, h, st', hst' => by
      obtain ⟨p₁, hfirst, h⟩ := yields_seq.mp h
      obtain ⟨p₂, -, hrest⟩ := yields_seq.mp h
      rcases List.mem_cons.mp hst' with rfl | hst'
      · exact ⟨p, p₁, hfirst⟩
      · exact yields_of_separated hrest st' hst'

namespace Context

variable {c : Context} {s : Scope} {p q : Parts}

/-! ## Visits in a condition -/

/-- The expression is expressible if a condition with it goes through. -/
def Checks (c : Context) (e : Expr) : Prop :=
  ∀ s p q, s.phase = .condition → (c.step e s).Yields p q → e.Expressible

theorem fold_expressible {node : Expr} (h : (c.fold node s).Yields p q) : node.Expressible := by
  unfold fold at h
  split at h
  · exact (Step.yields_fail.mp h).elim
  · obtain ⟨v, hv, -⟩ := Step.yields_given.mp h
    exact Expr.expressible_of_evaluates hv

theorem member_expressible {target : Expr} {name : String}
    (h : (c.step (.member target name) s).Yields p q) : (Expr.member target name).Expressible := by
  cases target with
  | parameter => exact Expr.expressible_column name
  | _ => exact fold_expressible h

/-- The other side of a three-way comparison is evaluated. -/
theorem expectZero_expressible {other node : Expr} {u : Unit}
    (h : expectZero other node s = .ok u) : other.Expressible := by
  unfold expectZero at h
  split at h
  · next hv => exact Expr.expressible_of_evaluates hv
  · exact nomatch h

theorem startsWith_expressible {method : Method} {a b : Expr}
    (h : (c.startsWithStep (c.operands [a, b]) (.call method [a, b]) s).Yields p q) :
    (Expr.call method [a, b]).Expressible := by
  obtain ⟨subject, hsubject, h⟩ := Step.yields_given.mp h
  obtain rfl := Except.ok.inj hsubject
  split at h
  · exact fold_expressible h
  · next hcolumn =>
      obtain ⟨start, hstart, h⟩ := Step.yields_given.mp h
      obtain rfl := Except.ok.inj hstart
      obtain ⟨v, hv, -⟩ := Step.yields_given.mp h
      exact Expr.expressible_pair (Expr.expressible_of_rowMember hcolumn)
        (Expr.expressible_of_evaluates hv)

section Condition

variable (hs : s.phase = .condition)
include hs

/-- Two expressions with a text between them. -/
theorem infix_expressible {text : String} {a b : Expr} (ha : c.Checks a) (hb : c.Checks b)
    (h : Step.Yields (c.step a s.uncompared >=> Step.write s text >=> c.step b s.uncompared) p q) :
    a.Expressible ∧ b.Expressible := by
  obtain ⟨p₁, hfirst, hrest⟩ := Step.yields_seq.mp h
  obtain ⟨p₂, -, hsecond⟩ := Step.yields_seq.mp hrest
  exact ⟨ha s.uncompared _ _ hs hfirst, hb s.uncompared _ _ hs hsecond⟩

theorem unary_expressible (op : UnaryOp) {e : Expr} (he : c.Checks e)
    (h : (c.step (.unary op e) s).Yields p q) : (Expr.unary op e).Expressible := by
  cases op with
  | convert => exact Expr.expressible_unary (he s p q hs h)
  | not =>
      simp only [step, unaryStep, hs] at h
      split at h
      · obtain ⟨p₁, -, hrest⟩ := Step.yields_seq.mp h
        obtain ⟨p₂, hoperand, -⟩ := Step.yields_seq.mp hrest
        exact Expr.expressible_unary (he s.uncompared _ _ hs hoperand)
      · exact fold_expressible h
  | negate | plus =>
      simp only [step, unaryStep, hs] at h
      exact fold_expressible h

theorem binary_expressible (op : BinaryOp) {l r : Expr} (hl : c.Checks l) (hr : c.Checks r)
    (h : (c.step (.binary op l r) s).Yields p q) : (Expr.binary op l r).Expressible := by
  simp only [step, binaryStep, hs, conditionBinary] at h
  cases hop : op.cql? with
  | none =>
      rw [hop] at h
      dsimp only at h
      split at h
      · exact (Step.yields_fail.mp h).elim
      · exact fold_expressible h
  | some tag =>
      rw [hop] at h
      dsimp only at h
      have both : l.Expressible ∧ r.Expressible := by
        split at h
        · exact infix_expressible hs hl hr h
        · split at h
          · obtain ⟨u, hzero, hvisit⟩ := Step.yields_given.mp h
            exact ⟨hl (s.compared op) _ _ hs hvisit, expectZero_expressible hzero⟩
          · split at h
            · obtain ⟨u, hzero, hvisit⟩ := Step.yields_given.mp h
              exact ⟨expectZero_expressible hzero, hr (s.compared _) _ _ hs hvisit⟩
            · exact infix_expressible hs hl hr h
      exact Expr.expressible_binary (by rw [hop]; rfl) both.1 both.2

section Pair

variable {method : Method} {a b : Expr} (ha : c.Checks a) (hb : c.Checks b)
include ha hb

theorem contains_expressible (h : (containsStep (c.operands [a, b]) s).Yields p q) :
    a.Expressible ∧ b.Expressible := by
  obtain ⟨collection, hcollection, h⟩ := Step.yields_given.mp h
  obtain ⟨item, hitem, h⟩ := Step.yields_given.mp h
  obtain rfl := Except.ok.inj hcollection
  obtain rfl := Except.ok.inj hitem
  split at h
  · exact infix_expressible hs ha hb h
  · obtain ⟨v, hv, h⟩ := Step.yields_given.mp h
    split at h
    · exact (Step.yields_fail.mp h).elim
    · obtain ⟨p₁, hvisit, -⟩ := Step.yields_seq.mp h
      exact ⟨Expr.expressible_of_evaluates hv, hb s.uncompared _ _ hs hvisit⟩

theorem containsKey_expressible
    (h : (c.containsKeyStep (c.operands [a, b]) (.call method [a, b]) s).Yields p q) :
    (Expr.call method [a, b]).Expressible := by
  obtain ⟨entries, hentries, h⟩ := Step.yields_given.mp h
  obtain rfl := Except.ok.inj hentries
  split at h
  · have hboth := infix_expressible hs ha hb h
    exact Expr.expressible_pair hboth.1 hboth.2
  · exact fold_expressible h

end Pair

/-- A call in a condition, with the arguments that its method takes. -/
theorem conditionCall_expressible {method : Method} {args : List Expr}
    (hargs : ∀ e ∈ args, c.Checks e) (harity : (Expr.call method args).hasArity = true)
    (h : (c.conditionCall method (c.operands args) (.call method args) s).Yields p q) :
    (Expr.call method args).Expressible := by
  have pair (hn : args.length = 2) : ∃ a b, args = [a, b] ∧ c.Checks a ∧ c.Checks b := by
    obtain ⟨a, b, rfl⟩ := List.length_eq_two.mp hn
    exact ⟨a, b, rfl, hargs a (List.mem_cons_self ..),
      hargs b (List.mem_cons_of_mem _ (List.mem_singleton_self b))⟩
  have single {tag : String} (hn : args.length = 1)
      (h : Step.Yields (Step.write s tag >=> operandStep method (c.operands args) 0 s.uncompared >=>
        Step.write s ")") p q) : (Expr.call method args).Expressible := by
    obtain ⟨a, rfl⟩ := List.length_eq_one_iff.mp hn
    obtain ⟨p₁, -, h⟩ := Step.yields_seq.mp h
    obtain ⟨p₂, hvisit, -⟩ := Step.yields_seq.mp h
    exact Expr.expressible_call (List.forall_mem_singleton.mpr
      (hargs a (List.mem_singleton_self a) s.uncompared _ _ hs hvisit))
  cases method with
  | contains =>
      obtain ⟨a, b, rfl, ha, hb⟩ := pair (beq_iff_eq.mp harity)
      have hboth := contains_expressible hs ha hb h
      exact Expr.expressible_pair hboth.1 hboth.2
  | containsKey =>
      obtain ⟨a, b, rfl, ha, hb⟩ := pair (beq_iff_eq.mp harity)
      exact containsKey_expressible hs ha hb h
  | startsWith =>
      obtain ⟨a, b, rfl, -, -⟩ := pair (beq_iff_eq.mp harity)
      exact startsWith_expressible h
  | compareTo =>
      obtain ⟨a, b, rfl, ha, hb⟩ := pair (beq_iff_eq.mp harity)
      cases htag : s.comparison.bind BinaryOp.cql? with
      | none =>
          simp only [conditionCall, htag] at h
          exact fold_expressible h
      | some tag =>
          simp only [conditionCall, htag] at h
          have hboth := infix_expressible hs ha hb h
          exact Expr.expressible_pair hboth.1 hboth.2
  | equals =>
      obtain ⟨a, b, rfl, ha, hb⟩ := pair (beq_iff_eq.mp harity)
      have hboth := infix_expressible hs ha hb h
      exact Expr.expressible_pair hboth.1 hboth.2
  | token =>
      obtain ⟨p₁, -, h⟩ := Step.yields_seq.mp h
      obtain ⟨p₂, hvisits, -⟩ := Step.yields_seq.mp h
      refine Expr.expressible_call fun e he => ?_
      have hvisited :
          c.step e s.uncompared ∈ (c.operands args).map fun o => o.step s.uncompared := by
        rw [operands_eq_map, List.map_map]
        exact List.mem_map.mpr ⟨e, he, rfl⟩
      obtain ⟨p₃, q₃, hvisit⟩ := Step.yields_of_separated hvisits _ hvisited
      exact hargs e he s.uncompared _ _ hs hvisit
  | maxTimeUuid | minTimeUuid => exact single (beq_iff_eq.mp harity) h
  | _ => exact fold_expressible h

theorem call_expressible {method : Method} {args : List Expr}
    (hargs : ∀ e ∈ args, c.Checks e) (harity : (Expr.call method args).hasArity = true)
    (hoperator : method.isOperator = false) (h : (c.step (.call method args) s).Yields p q) :
    (Expr.call method args).Expressible := by
  rw [step, callStep_of_not_isOperator s hoperator] at h
  split at h
  · -- Only a projection has aggregates.
    unfold aggregateStep at h
    rw [hs] at h
    simp at h
    exact (Step.yields_fail.mp h).elim
  · rw [hs] at h
    exact conditionCall_expressible hs hargs harity h

end Condition

mutual

/-- **Conditions are expressible.** -/
theorem expressible_of_yields (c : Context) : ∀ {e : Expr}, e.IsPredicate → c.Checks e
  | .root, _ | .parameter, _ | .groupKey, _ | .constant _, _ => fun _ _ _ _ _ =>
      Expr.expressible_node rfl rfl fun _ hpart => nomatch hpart
  | .member _ _, _ => fun _ _ _ _ h => member_expressible h
  | .binary op l r, he => fun s p q hs h => by
      have hleft : l.IsPredicate := he.part (Expr.subset_of_operand (List.mem_cons_self ..))
      have hright : r.IsPredicate := he.part (Expr.subset_of_operand
        (List.mem_cons_of_mem _ (List.mem_singleton_self r)))
      exact binary_expressible hs op (expressible_of_yields c hleft)
        (expressible_of_yields c hright) h
  | .unary op e, he => fun _ _ _ hs h =>
      unary_expressible hs op
        (expressible_of_yields c (e := e) (he.part (List.subset_cons_self ..))) h
  | .call method args, he => fun s p q hs h => by
      obtain ⟨hoperator, harity⟩ := he.call
      have hargs : ∀ e ∈ args, c.Checks e :=
        arguments_expressible c args fun e hmem => he.part (Expr.subset_of_operand hmem)
      exact call_expressible hs hargs harity hoperator h
  | .lambda body, he => fun s p q hs h => by
      rw [step, bodyScope_eq (hs ▸ nofun)] at h
      exact Expr.expressible_lambda
        (expressible_of_yields c (e := body) (he.part (List.subset_cons_self ..)) s p q hs h)
  | .record _, _ | .entity _, _ => fun s p q hs h => by
      rw [step, if_neg (hs ▸ nofun)] at h
      exact (Step.yields_fail.mp h).elim

theorem arguments_expressible (c : Context) : ∀ (args : List Expr),
    (∀ e ∈ args, e.IsPredicate) → ∀ e ∈ args, c.Checks e
  | [], _ => List.forall_mem_nil _
  | e :: rest, h => List.forall_mem_cons.mpr
      ⟨expressible_of_yields c (e := e) (h e (List.mem_cons_self ..)),
        arguments_expressible c rest fun e' he' => h e' (List.mem_cons_of_mem _ he')⟩

end

end Context

/-! ## Chains -/

namespace QueryOperator

/-- The predicate that an operator is given. -/
def predicate? : QueryOperator → Option Expr
  | .filter e | .updateIf e | .deleteIf e => some e
  | .first e | .firstOrDefault e => e
  | _ => none

/-- Where an operator goes through, its predicate has been visited as a condition. -/
theorem predicate_yields {c : Context} {op : QueryOperator} {e : Expr} {p q : Parts}
    (he : op.predicate? = some e) (h : (op.step c).Yields p q) :
    ∃ s p' q', s.phase = .condition ∧ (c.step e.asLambda s).Yields p' q' := by
  cases op with
  | filter | updateIf | deleteIf =>
      obtain rfl := Option.some.inj he
      obtain ⟨p', -, hvisit⟩ := Step.yields_seq.mp h
      exact ⟨_, p', q, rfl, hvisit⟩
  | first | firstOrDefault =>
      obtain rfl : _ = some e := he
      obtain ⟨q', hpredicate, -⟩ := Step.yields_seq.mp h
      obtain ⟨p', -, hvisit⟩ := Step.yields_seq.mp hpredicate
      exact ⟨_, p', q', rfl, hvisit⟩
  | _ => exact nomatch he

end QueryOperator

theorem Expr.subset_asLambda (e : Expr) : e.subexpressions ⊆ e.asLambda.subexpressions := by
  cases e with
  | lambda => exact List.Subset.refl _
  | _ => exact List.subset_cons_self ..

namespace Query

/-- **No disjunction is lost.** Take a predicate whose calls have as many arguments as their methods
take, and which holds no query operators. If anywhere inside of it the row or the key of its group
is below a disjunction or below arithmetic, then no query with a filter by this predicate compiles,
and none with a condition for an update or a deletion by it, for no kind of statement. -/
theorem disjunction_refused {t : Table} {before after : List QueryOperator} {op : QueryOperator}
    {predicate node : Expr} (hop : op.predicate? = some predicate)
    (hpredicate : predicate.IsPredicate) (hnode : node ∈ predicate.subexpressions)
    (hinexpressible : node.isInexpressible = true) (hrow : node.usesRow = true)
    (kind : StatementKind) :
    ∃ err, ((ofOperators t (before ++ op :: after)).compile kind).outcome = .error err := by
  cases hcompile : ((ofOperators t (before ++ op :: after)).compile kind).outcome with
  | error err => exact ⟨err, rfl⟩
  | ok r =>
      obtain ⟨p, q, -, hstep, -⟩ := (compile_around before after op).mp hcompile
      obtain ⟨s, p', q', hs, hvisit⟩ := QueryOperator.predicate_yields hop hstep
      have hexpressible : predicate.asLambda.Expressible :=
        Context.expressible_of_yields _ hpredicate.asLambda s p' q' hs hvisit
      have hnone := hexpressible node (predicate.subset_asLambda hnode) hinexpressible
      exact absurd (hnone.symm.trans hrow) Bool.false_ne_true

/-- Whoever is neither the first person nor active. -/
def neither : Expr :=
  .unary .not (.binary .orElse (.binary .eq (.column "id") (.constant (.int 1)))
    (.binary .eq (.column "active") (.constant (.boolean true))))

theorem disjunction_refused_neither :
    (neither.IsPredicate ∧ ∃ node ∈ neither.subexpressions,
      node.isInexpressible = true ∧ node.usesRow = true) ∧
    ∃ err, ((ofOperators { mapping := people } ([] ++ .filter neither :: [.take 1])).compile
      .delete).outcome = .error err := by
  have hpredicate : neither.IsPredicate := ⟨by decide, by decide⟩
  have hnode : Expr.binary .orElse (.binary .eq (.column "id") (.constant (.int 1)))
      (.binary .eq (.column "active") (.constant (.boolean true))) ∈ neither.subexpressions :=
    List.mem_cons_of_mem _ (List.mem_cons_self ..)
  exact ⟨⟨hpredicate, _, hnode, rfl, rfl⟩,
    disjunction_refused rfl hpredicate hnode rfl rfl .delete⟩

end Query

end TypedCql
