import TypedCql.Proofs.Chains

/-!
# What a visit leaves as it was

A visit only ever adds. Whatever conditions, fields, keys and assignments the parts of a statement
hold when it begins, they hold them, first and unchanged, when it ends, and the permission to filter
is not taken back (`Parts.Extends`, one case for each contribution). An aggregate is no exception,
though it takes a field off the end of a list: the field is the one that its own selector has just
put there (`aggregate_adds_one`).

In a condition a visit does even less. Unless a query is continued inside it, all it does is to
write at the end of the conditions of its scope, and what it writes depends on nothing that was
written before (`step_onlyWrites`).
-/

namespace TypedCql

/-! ## Growth of every part -/

/-- Everything that the parts hold stays, first and in its order; the permission to filter stays. -/
structure Parts.Extends (p q : Parts) : Prop extends Parts.Grows p q where
  conditions : ∀ t, p.conditions t <+: q.conditions t
  orderBy : p.orderBy <+: q.orderBy
  allowFiltering : p.allowFiltering = true → q.allowFiltering = true

namespace Parts.Extends

variable {p q r : Parts}

theorem refl (p : Parts) : Extends p p where
  toGrows := .refl p
  conditions _ := List.prefix_rfl
  orderBy := List.prefix_rfl
  allowFiltering := id

theorem trans (h : Extends p q) (h' : Extends q r) : Extends p r where
  toGrows := h.toGrows.trans h'.toGrows
  conditions t := (h.conditions t).trans (h'.conditions t)
  orderBy := h.orderBy.trans h'.orderBy
  allowFiltering := h'.allowFiltering ∘ h.allowFiltering

theorem addCondition (p : Parts) (t : ConditionTarget) (f : Fragment) :
    Extends p (p.addCondition t f) where
  toGrows := .addCondition p t f
  conditions t' := by
    by_cases ht : t' = t
    · subst ht
      rw [Step.conditions_addCondition_self]
      exact List.prefix_append ..
    · have hsame := Step.conditions_addCondition_ne p ht f
      exact hsame.symm ▸ List.prefix_rfl
  orderBy := by cases t <;> exact List.prefix_rfl
  allowFiltering := by cases t <;> exact id

/-- The conditions with what was added to them, as fragment, text and parameters. -/
theorem exists_conditions (h : Extends p q) (t : ConditionTarget) :
    ∃ f, q.conditions t = p.conditions t ++ f ∧ ∀ mode,
      (q.conditions t).text mode = (p.conditions t).text mode ++ f.text mode ∧
      (q.conditions t).params mode = (p.conditions t).params mode ++ f.params mode := by
  obtain ⟨f, hf⟩ := h.conditions t
  refine ⟨f, hf.symm, ?_⟩
  intro mode
  rw [← hf]
  constructor
  · exact Fragment.text_append mode _ f
  · cases mode with
    | placeholder => exact Fragment.values_append _ f
    | inline => rfl

end Parts.Extends

namespace Context

variable {c : Context} {e : Expr} {s : Scope} {p q : Parts}

theorem extends_of_adds (h : c.Adds e s p q) : p.Extends q := by
  induction h with
  | refl e s p => exact .refl p
  | trans _ _ ihpq ihqr => exact ihpq.trans ihqr
  | within _ _ ih => exact ih
  | condition p t => exact .addCondition p t _
  | column | countAll | groupKeys =>
      exact ⟨⟨List.prefix_append .., List.prefix_rfl, List.prefix_rfl⟩,
        fun _ => List.prefix_rfl, List.prefix_rfl, id⟩
  | groupKey =>
      exact ⟨⟨List.prefix_rfl, List.prefix_append .., List.prefix_rfl⟩,
        fun _ => List.prefix_rfl, List.prefix_rfl, id⟩
  | assignment =>
      exact ⟨⟨List.prefix_rfl, List.prefix_rfl, List.prefix_append ..⟩,
        fun _ => List.prefix_rfl, List.prefix_rfl, id⟩
  | orderKey =>
      exact ⟨⟨List.prefix_rfl, List.prefix_rfl, List.prefix_rfl⟩,
        fun _ => List.prefix_rfl, List.prefix_append .., id⟩
  | limit =>
      exact ⟨⟨List.prefix_rfl, List.prefix_rfl, List.prefix_rfl⟩,
        fun _ => List.prefix_rfl, List.prefix_rfl, id⟩
  | filtering =>
      exact ⟨⟨List.prefix_rfl, List.prefix_rfl, List.prefix_rfl⟩,
        fun _ => List.prefix_rfl, List.prefix_rfl, fun _ => rfl⟩
  | aggregate _ _ _ _ _ hfields ih =>
      obtain ⟨field, -, rfl⟩ := aggregated_eq_some ih.fields hfields
      exact ⟨⟨List.prefix_append .., ih.groupBy, ih.assignments⟩, ih.conditions, ih.orderBy,
        ih.allowFiltering⟩

theorem step_extends (h : (c.step e s).Yields p q) : p.Extends q :=
  extends_of_adds (c.step_adds e s p q h)

/-! ## Aggregates -/

/-- An aggregate counts the rows, or it takes in the one field that its selector adds. -/
theorem aggregate_adds_one {method : Method} {function : String} {args : List Expr}
    (hmethod : method.aggregate? = some function)
    (h : (c.step (.call method args) s).Yields p q) :
    q = { p with fields := p.fields ++ [.countAll] } ∨
      ∃ selector field r, args[1]? = some selector ∧
        (c.step selector (s.enter .binding)).Yields p r ∧ r.fields = p.fields ++ [field] ∧
        q = { r with fields := p.fields ++ [.aggregate function field] } := by
  have hoperator : method.isOperator = false := by
    cases method with
    | min | max | average | sum | count => rfl
    | _ => cases hmethod
  replace h : (c.callStep method (c.operands args) (.call method args) s).Yields p q := h
  rw [callStep_of_not_isOperator s hoperator, hmethod] at h
  dsimp only at h
  unfold aggregateStep at h
  rw [operands_eq_map, List.getElem?_map] at h
  split at h
  · cases hsel : args[1]? with
    | none =>
        rw [hsel] at h
        dsimp only [Option.map_none] at h
        split at h
        · exact .inl (Step.yields_modify.mp h).symm
        · exact (Step.yields_fail.mp h).elim
    | some selector =>
        rw [hsel] at h
        dsimp only [Option.map_some] at h
        obtain ⟨r, hr, hrest⟩ := Traced.bind_eq_ok.mp h
        split at hrest
        · next hfields =>
            obtain ⟨field, hfield, rfl⟩ := aggregated_eq_some (step_extends hr).fields hfields
            exact .inr ⟨selector, field, r, rfl, hr, hfield, (Except.ok.inj hrest).symm⟩
        · exact nomatch hrest
  · exact (Step.yields_fail.mp h).elim

end Context

/-! ## Steps that only write -/

namespace Step

/-- The step adds a fragment to some conditions and does nothing else, or fails; which of the two,
and which fragment, is the same whatever the parts before it are. -/
def OnlyWrites (st : Step) (t : ConditionTarget) : Prop := ∃ o, Writes st t o

variable {st first next : Step} {s : Scope} {t : ConditionTarget}

theorem onlyWrites_pure : OnlyWrites Traced.pure t := by
  refine ⟨.ok [], ?_⟩
  intro p
  show Except.ok p = .ok (p.addCondition t [])
  cases t <;> simp [Parts.addCondition]

theorem onlyWrites_fail (e : Error) : OnlyWrites (fail e) t := ⟨.error e, fun _ => rfl⟩

theorem onlyWrites_writeFragment (s : Scope) (f : Fragment) :
    OnlyWrites (writeFragment s f) s.target :=
  ⟨_, writes_writeFragment s f⟩

theorem onlyWrites_write (s : Scope) (text : String) : OnlyWrites (write s text) s.target :=
  ⟨_, writes_write s text⟩

theorem onlyWrites_given {α : Type} {o : Outcome α} {k : α → Step}
    (h : ∀ a, o = .ok a → OnlyWrites (k a) t) : OnlyWrites (given o k) t := by
  cases o with
  | ok a =>
      obtain ⟨o', ho'⟩ := h a rfl
      exact ⟨o', writes_given_ok rfl ho'⟩
  | error err => exact ⟨.error err, fun _ => rfl⟩

theorem onlyWrites_seq (hf : OnlyWrites first t) (hn : OnlyWrites next t) :
    OnlyWrites (first >=> next) t := by
  obtain ⟨o, ho⟩ := hf
  obtain ⟨o', ho'⟩ := hn
  exact ⟨_, writes_seq ho ho'⟩

theorem onlyWrites_separated (s : Scope) (separator : String) :
    ∀ {steps : List Step}, (∀ st ∈ steps, OnlyWrites st s.target) →
      OnlyWrites (separated s separator steps) s.target
  | [], _ => onlyWrites_pure
  | [st], h => h st (List.mem_cons_self ..)
  | st :: _ :: _, h =>
      onlyWrites_seq (h st (List.mem_cons_self ..)) (onlyWrites_seq (onlyWrites_write s separator)
        (onlyWrites_separated s separator fun st' hst' => h st' (List.mem_cons_of_mem _ hst')))

end Step

/-! ## Visits in a condition -/

/-- No query is continued anywhere inside the expression. -/
def Expr.OperatorFree (e : Expr) : Prop :=
  ∀ method args, .call method args ∈ e.subexpressions → method.isOperator = false

namespace Expr.OperatorFree

variable {e e' : Expr}

theorem of_subset (h : e.OperatorFree) (hsub : e'.subexpressions ⊆ e.subexpressions) :
    e'.OperatorFree :=
  fun method args hmem => h method args (hsub hmem)

theorem of_operand (h : e.OperatorFree) (he' : e' ∈ e.operands) : e'.OperatorFree :=
  h.of_subset (subset_of_operand he')

end Expr.OperatorFree

namespace Context

open Step

variable {c : Context} {s : Scope}

/-- Where it is met in a condition, the expression only writes. -/
def WritesInConditions (c : Context) (e : Expr) : Prop :=
  ∀ s : Scope, s.phase = .condition → OnlyWrites (c.step e s) s.target

theorem bindValue_onlyWrites (hs : s.phase = .condition) (v : Value) (node : Expr) :
    OnlyWrites (c.bindValue v node s) s.target := by
  unfold bindValue
  rw [hs]
  exact onlyWrites_writeFragment s _

theorem fold_onlyWrites (hs : s.phase = .condition) (node : Expr) :
    OnlyWrites (c.fold node s) s.target := by
  unfold fold
  split
  · exact onlyWrites_fail _
  · exact onlyWrites_given fun v _ => bindValue_onlyWrites hs v node

theorem memberStep_onlyWrites (hs : s.phase = .condition) (member : String) (node : Expr) :
    OnlyWrites (c.memberStep member node s) s.target := by
  unfold memberStep
  split
  · exact fold_onlyWrites hs node
  · rw [hs]
    exact onlyWrites_given fun col _ => onlyWrites_writeFragment s _

/-- An operand is met in the same condition, whatever comparison is around it. -/
theorem WritesInConditions.operand {e : Expr} (h : c.WritesInConditions e)
    (hs : s.phase = .condition) (comparison : Option BinaryOp) :
    OnlyWrites (c.step e { s with comparison := comparison }) s.target :=
  h { s with comparison := comparison } hs

theorem unaryStep_onlyWrites (op : UnaryOp) {e : Expr} (he : c.WritesInConditions e)
    (hs : s.phase = .condition) :
    OnlyWrites (c.unaryStep op ⟨e, c.step e⟩ (.unary op e) s) s.target := by
  unfold unaryStep
  split
  · exact he s hs
  · split
    · exact onlyWrites_seq (onlyWrites_write s _)
        (onlyWrites_seq (he.operand hs none) (onlyWrites_write s _))
    · exact fold_onlyWrites hs _
  · next hphase => exact nomatch hphase.symm.trans hs
  · next hphase => exact nomatch hphase.symm.trans hs
  · exact fold_onlyWrites hs _

theorem relation_onlyWrites (tag : String) {l r : Expr} (hl : c.WritesInConditions l)
    (hr : c.WritesInConditions r) (hs : s.phase = .condition) :
    OnlyWrites (relation tag ⟨l, c.step l⟩ ⟨r, c.step r⟩ s) s.target :=
  onlyWrites_seq (hl.operand hs none) (onlyWrites_seq (onlyWrites_write s _) (hr.operand hs none))

theorem binaryStep_onlyWrites (op : BinaryOp) {l r : Expr} (hl : c.WritesInConditions l)
    (hr : c.WritesInConditions r) (hs : s.phase = .condition) :
    OnlyWrites (c.binaryStep op ⟨l, c.step l⟩ ⟨r, c.step r⟩ (.binary op l r) s) s.target := by
  unfold binaryStep
  rw [hs]
  dsimp only
  unfold conditionBinary
  split
  · split
    · exact onlyWrites_fail _
    · exact fold_onlyWrites hs _
  · split
    · exact relation_onlyWrites _ hl hr hs
    · split
      · exact onlyWrites_given fun _ _ => hl.operand hs _
      · split
        · exact onlyWrites_given fun _ _ => hr.operand hs _
        · exact relation_onlyWrites _ hl hr hs

section Calls

variable {args : List Expr} (h : ∀ e ∈ args, c.WritesInConditions e) (hs : s.phase = .condition)
include h hs

theorem operandAt_onlyWrites {method : Method} {i : Nat} {o : Operand}
    (ho : operand method (c.operands args) i = .ok o) :
    OnlyWrites (o.step s.uncompared) s.target := by
  obtain ⟨e, he, rfl⟩ := operand_eq_ok ho
  exact (h e (List.mem_of_getElem? he)).operand hs none

theorem operandStep_onlyWrites (method : Method) (i : Nat) :
    OnlyWrites (operandStep method (c.operands args) i s.uncompared) s.target :=
  onlyWrites_given fun _ ho => operandAt_onlyWrites h hs ho

theorem containsStep_onlyWrites : OnlyWrites (containsStep (c.operands args) s) s.target := by
  refine onlyWrites_given fun collection hc => onlyWrites_given fun item hi => ?_
  split
  · exact onlyWrites_seq (operandAt_onlyWrites h hs hc)
      (onlyWrites_seq (onlyWrites_write s _) (operandAt_onlyWrites h hs hi))
  · refine onlyWrites_given fun v _ => ?_
    split
    · exact onlyWrites_fail _
    · exact onlyWrites_seq (operandAt_onlyWrites h hs hi) (onlyWrites_writeFragment s _)

theorem containsKeyStep_onlyWrites (node : Expr) :
    OnlyWrites (c.containsKeyStep (c.operands args) node s) s.target := by
  refine onlyWrites_given fun entries he => ?_
  split
  · exact onlyWrites_seq (operandAt_onlyWrites h hs he)
      (onlyWrites_seq (onlyWrites_write s _) (operandStep_onlyWrites h hs _ 1))
  · exact fold_onlyWrites hs node

omit h in
theorem startsWithStep_onlyWrites (operands : List Operand) (node : Expr) :
    OnlyWrites (c.startsWithStep operands node s) s.target := by
  refine onlyWrites_given fun subject _ => ?_
  split
  · exact fold_onlyWrites hs node
  · refine onlyWrites_given fun start _ => onlyWrites_given fun v _ => ?_
    split
    · exact onlyWrites_given fun col _ => onlyWrites_writeFragment s _
    · exact onlyWrites_fail _

/-- Between two fixed texts, or with one before the second operand, the operands only write. -/
theorem conditionCall_onlyWrites (method : Method) (node : Expr) :
    OnlyWrites (c.conditionCall method (c.operands args) node s) s.target := by
  unfold conditionCall
  split
  · exact containsStep_onlyWrites h hs
  · exact containsKeyStep_onlyWrites h hs node
  · exact startsWithStep_onlyWrites hs _ node
  · split
    · exact fold_onlyWrites hs node
    · exact onlyWrites_seq (operandStep_onlyWrites h hs _ 0)
        (onlyWrites_seq (onlyWrites_write s _) (operandStep_onlyWrites h hs _ 1))
  · exact onlyWrites_seq (operandStep_onlyWrites h hs _ 0)
      (onlyWrites_seq (onlyWrites_write s _) (operandStep_onlyWrites h hs _ 1))
  · -- A token lists the columns it is made of.
    refine onlyWrites_seq (onlyWrites_write s _)
      (onlyWrites_seq (onlyWrites_separated s _ fun st hst => ?_) (onlyWrites_write s _))
    rw [operands_eq_map, List.map_map] at hst
    obtain ⟨e, he, rfl⟩ := List.mem_map.mp hst
    exact (h e he).operand hs none
  · exact onlyWrites_seq (onlyWrites_write s _)
      (onlyWrites_seq (operandStep_onlyWrites h hs _ 0) (onlyWrites_write s _))
  · exact onlyWrites_seq (onlyWrites_write s _)
      (onlyWrites_seq (operandStep_onlyWrites h hs _ 0) (onlyWrites_write s _))
  · exact fold_onlyWrites hs node

theorem callStep_onlyWrites {method : Method} (hmethod : method.isOperator = false)
    (node : Expr) : OnlyWrites (c.callStep method (c.operands args) node s) s.target := by
  rw [callStep_of_not_isOperator s hmethod, hs]
  split
  · -- Aggregates belong to projections.
    unfold aggregateStep
    split
    · next hplace => exact nomatch hplace.1.symm.trans hs
    · exact onlyWrites_fail _
  · exact conditionCall_onlyWrites h hs method node

end Calls

mutual

/-- In a condition, an expression that continues no query only writes. -/
theorem step_onlyWrites : ∀ {e : Expr}, e.OperatorFree → c.WritesInConditions e
  | .root, _, _, _ => onlyWrites_pure
  | .parameter, _, s, hs => by
      rw [step, if_neg (fun hphase => nomatch hphase.1.symm.trans hs)]
      exact onlyWrites_fail _
  | .groupKey, _, s, hs => by
      rw [step, if_neg (fun hphase => nomatch hphase.symm.trans hs)]
      exact onlyWrites_fail _
  | .member _ name, _, s, hs => memberStep_onlyWrites hs name _
  | .constant v, _, s, hs => bindValue_onlyWrites hs v _
  | .binary op l r, h, s, hs =>
      binaryStep_onlyWrites op (step_onlyWrites (h.of_operand (List.mem_cons_self ..)))
        (step_onlyWrites (h.of_operand (List.mem_cons_of_mem _ (List.mem_singleton_self r)))) hs
  | .unary op e, h, s, hs =>
      unaryStep_onlyWrites op (step_onlyWrites (h.of_operand (List.mem_singleton_self e))) hs
  | .call method args, h, s, hs =>
      callStep_onlyWrites (arguments_onlyWrite fun e he => h.of_operand he) hs
        (h method args (Expr.self_mem_subexpressions _)) _
  | .lambda body, h, s, hs => by
      show OnlyWrites (c.step body (bodyScope s)) s.target
      rw [bodyScope_eq (hs ▸ nofun)]
      exact step_onlyWrites (h.of_subset (List.subset_cons_self ..)) s hs
  | .record bs, _, s, hs => by
      rw [step, if_neg (fun hphase => nomatch hphase.symm.trans hs)]
      exact onlyWrites_fail _
  | .entity bs, _, s, hs => by
      rw [step, if_neg (fun hphase => nomatch hphase.symm.trans hs)]
      exact onlyWrites_fail _

theorem arguments_onlyWrite : ∀ {args : List Expr}, (∀ e ∈ args, e.OperatorFree) →
    ∀ e ∈ args, c.WritesInConditions e
  | [], _ => List.forall_mem_nil _
  | _ :: _, h =>
      List.forall_mem_cons.mpr ⟨step_onlyWrites (h _ (List.mem_cons_self ..)),
        arguments_onlyWrite fun e he => h e (List.mem_cons_of_mem _ he)⟩

end

/-! ## What a visit keeps -/

/-- **A visit only adds.** If it goes through, then both conditions (text and parameters, in either
rendering), the fields, the keys of the order and of the grouping and the assignments are what they
were, with something after them, and the permission to filter is not taken back. An aggregate adds
one field: the count of the rows, or its function around the one field that its selector added. And
in a condition, with no query continued inside it, nothing but the conditions of the scope changes,
by a fragment that does not depend on the parts found. -/
theorem visit_extends (c : Context) (e : Expr) (s : Scope) (p q : Parts)
    (h : (c.step e s p).outcome = .ok q) :
    (∀ t, ∃ f, q.conditions t = p.conditions t ++ f ∧ ∀ mode,
      (q.conditions t).text mode = (p.conditions t).text mode ++ f.text mode ∧
      (q.conditions t).params mode = (p.conditions t).params mode ++ f.params mode) ∧
    p.fields <+: q.fields ∧ p.orderBy <+: q.orderBy ∧ p.groupBy <+: q.groupBy ∧
    p.assignments <+: q.assignments ∧
    (p.allowFiltering = true → q.allowFiltering = true) ∧
    (∀ method args function, e = .call method args → method.aggregate? = some function →
      ∃ field, q.fields = p.fields ++ [field] ∧ (field = .countAll ∨
        ∃ selector inner r, args[1]? = some selector ∧
          (c.step selector (s.enter .binding) p).outcome = .ok r ∧
          r.fields = p.fields ++ [inner] ∧ field = .aggregate function inner)) ∧
    (e.OperatorFree → s.phase = .condition →
      ∃ f, q = p.addCondition s.target f ∧
        ∀ p', (c.step e s p').outcome = .ok (p'.addCondition s.target f)) := by
  have hextends : p.Extends q := step_extends h
  refine ⟨hextends.exists_conditions, hextends.fields, hextends.orderBy, hextends.groupBy,
    hextends.assignments, hextends.allowFiltering, ?_, ?_⟩
  · rintro method args function rfl hmethod
    rcases aggregate_adds_one hmethod h with rfl | ⟨selector, inner, r, hsel, hr, hinner, rfl⟩
    · exact ⟨.countAll, rfl, .inl rfl⟩
    · exact ⟨.aggregate function inner, rfl, .inr ⟨selector, inner, r, hsel, hr, hinner, rfl⟩⟩
  · intro hfree hs
    obtain ⟨o, ho⟩ := step_onlyWrites hfree s hs
    cases o with
    | error err => exact nomatch (ho p).symm.trans h
    | ok f =>
        refine ⟨f, ?_, ho⟩
        exact (Except.ok.inj ((ho p).symm.trans h)).symm

/-- One of two identifiers. -/
def oneOfTwo : Expr :=
  .call .contains [.constant (.list [.int 1, .int 2]), .column "id"]

/-- The largest identifier. -/
def largestId : Expr := .call .max [.parameter, .lambda (.column "id")]

/-- After the name, the largest identifier is one more field. After a condition on the rows, one
for the change is written beside it, and the name stays as it was. -/
theorem visit_extends_people :
    (let before : Parts := { fields := [.column ⟨"name", false⟩] }
      ∃ q, (step ⟨people, .select⟩ largestId (Scope.enter {} .binding) before).outcome = .ok q ∧
        before.fields <+: q.fields ∧ ∃ field, q.fields = before.fields ++ [field]) ∧
    (let before : Parts :=
        { rowConditions := [.verbatim "active = true"], fields := [.column ⟨"name", false⟩] }
      ∃ q, (step ⟨people, .update⟩ oneOfTwo (Scope.condition {} .change) before).outcome = .ok q ∧
        oneOfTwo.OperatorFree ∧ (∃ f, q = before.addCondition .change f) ∧
        (q.conditions .change).text .placeholder = "id IN (?, ?)") := by
  constructor
  · obtain ⟨-, hfields, -, -, -, -, haggregate, -⟩ :=
      visit_extends ⟨people, .select⟩ largestId (Scope.enter {} .binding)
        { fields := [.column ⟨"name", false⟩] } _ rfl
    obtain ⟨field, hfield, -⟩ := haggregate .max _ "MAX" rfl rfl
    exact ⟨_, rfl, hfields, field, hfield⟩
  · have hfree : oneOfTwo.OperatorFree := by
      intro method args hmem
      simp only [oneOfTwo, Expr.subexpressions, Expr.argumentSubexpressions, List.mem_cons,
        List.mem_append, Expr.call.injEq, reduceCtorEq, List.not_mem_nil, or_false] at hmem
      obtain ⟨rfl, -⟩ := hmem
      rfl
    obtain ⟨-, -, -, -, -, -, -, hframe⟩ :=
      visit_extends ⟨people, .update⟩ oneOfTwo (Scope.condition {} .change)
        { rowConditions := [.verbatim "active = true"], fields := [.column ⟨"name", false⟩] } _ rfl
    obtain ⟨f, hf, -⟩ := hframe hfree rfl
    exact ⟨_, rfl, hfree, ⟨f, hf⟩, by decide⟩

end Context

end TypedCql
