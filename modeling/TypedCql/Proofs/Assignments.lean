import TypedCql.Proofs.Chains
import TypedCql.Proofs.Placeholders

/-!
# Assignments of an update

An update assigns what its projection binds. A value that is read from the row, from the key of its
group or from the table has no place in an assignment: the compiler takes it for a selected field,
or skips it, and the binding is gone from the statement. Every other binding is assigned to its own
column, or the update fails.

The argument goes through a projection node by node. Inside of it a plain node other than a read
assigns exactly once (`step_assigns`); outside of it nothing is ever assigned
(`unprojected_of_adds`), so the assignments of the statement are those of the bindings.
-/

namespace TypedCql

/-! ## Shapes of expressions -/

namespace Expr

/-- The operators that continue a query. -/
def isOperator : Expr → Bool
  | .call method _ => method.isOperator
  | _ => false

def isSelect : Expr → Bool
  | .call .select _ => true
  | _ => false

/-- Whether the node is a projection to named parts. -/
def isProjection : Expr → Bool
  | .record _ | .entity _ => true
  | _ => false

/-- Neither an operator of a query nor a projection to named parts occurs anywhere. -/
def isPlain (e : Expr) : Bool :=
  e.subexpressions.all fun e' => !e'.isOperator && !e'.isProjection

/-- Whether a projection occurs anywhere. -/
def hasSelect (e : Expr) : Bool := e.subexpressions.any isSelect

/-- Whether the expression stands for something of the row, of its group or of the table, and not
for a value of the program. Conversions and lambdas around it are of no account. -/
def isRead : Expr → Bool
  | .root | .groupKey | .member .parameter _ => true
  | .unary .convert e => isRead e
  | .lambda body => isRead body
  | _ => false

theorem isPlain_of_subset {e e' : Expr} (h : e'.subexpressions ⊆ e.subexpressions)
    (he : e.isPlain = true) : e'.isPlain = true := by
  unfold isPlain at *
  rw [List.all_eq_true] at *
  exact fun x hx => he x (h hx)

theorem hasSelect_of_subset {e e' : Expr} (h : e'.subexpressions ⊆ e.subexpressions)
    (he : e.hasSelect = false) : e'.hasSelect = false := by
  unfold hasSelect at *
  rw [List.any_eq_false] at *
  exact fun x hx => he x (h hx)

theorem isPlain_self {e : Expr} (h : e.isPlain = true) :
    e.isOperator = false ∧ e.isProjection = false := by
  have hself := List.all_eq_true.mp h e e.self_mem_subexpressions
  simpa using hself

end Expr

/-! ## Outside of projections -/

/-- The parts hold the same fields and the same assignments. -/
structure Parts.SameProjection (p q : Parts) : Prop where
  fields : q.fields = p.fields
  assignments : q.assignments = p.assignments

namespace Parts.SameProjection

variable {p q r : Parts}

theorem refl (p : Parts) : SameProjection p p := ⟨rfl, rfl⟩

theorem trans (h : SameProjection p q) (h' : SameProjection q r) : SameProjection p r :=
  ⟨h'.fields.trans h.fields, h'.assignments.trans h.assignments⟩

end Parts.SameProjection

/-- A place that is not part of a projection. -/
structure Scope.Unprojected (s : Scope) : Prop where
  select : s.phase ≠ .select
  binding : s.phase ≠ .binding

namespace Context

variable {c : Context}

theorem argumentPhase?_ne_binding (method : Method) :
    method.argumentPhase? ≠ some .binding := by
  cases method <;> simp [Method.argumentPhase?]

theorem argumentPhase?_eq_select {method : Method} (h : method.argumentPhase? = some .select) :
    method = .select := by
  cases method <;> simp [Method.argumentPhase?] at h
  rfl

/-- Only an operator that projects leads into a projection. -/
theorem Places.unprojected {e e' : Expr} {s s' : Scope} (h : Places e s e' s')
    (he : e.hasSelect = false) (hs : s.Unprojected) : s'.Unprojected := by
  cases h with
  | operand => exact ⟨hs.select, hs.binding⟩
  | argument _ hphase =>
      refine ⟨fun hselect => ?_, fun hbinding => ?_⟩
      · rw [hselect] at hphase
        obtain rfl := argumentPhase?_eq_select hphase
        exact absurd he (by simp [Expr.hasSelect, Expr.subexpressions, Expr.isSelect])
      · rw [hbinding] at hphase
        exact argumentPhase?_ne_binding _ hphase
  | body =>
      rw [bodyScope_eq hs.select]
      exact hs
  | binding hphase => exact absurd hphase hs.binding

theorem unprojected_of_adds {e : Expr} {s : Scope} {p q : Parts} (h : c.Adds e s p q)
    (he : e.hasSelect = false) (hs : s.Unprojected) : p.SameProjection q := by
  induction h with
  | refl => exact .refl _
  | trans _ _ ihpq ihqr => exact (ihpq he hs).trans (ihqr he hs)
  | within place _ ih =>
      exact ih (Expr.hasSelect_of_subset place.subset he) (place.unprojected he hs)
  | condition p t => cases t <;> exact ⟨rfl, rfl⟩
  | column _ hphase | countAll _ hphase | groupKeys _ hphase | assignment _ hphase =>
      exact absurd hphase hs.binding
  | aggregate hphase => exact absurd hphase hs.binding
  | orderKey | groupKey | limit | filtering => exact ⟨rfl, rfl⟩

theorem operators_unprojected {ops : List QueryOperator}
    (hops : ∀ op ∈ ops, (op.apply .root).hasSelect = false) {p q : Parts}
    (h : (Step.sequence (ops.map (QueryOperator.step c))).Yields p q) : p.SameProjection q := by
  refine Step.sequence_relates .refl .trans (fun st hst p q hq => ?_) p q h
  obtain ⟨op, hop, rfl⟩ := List.mem_map.mp hst
  exact unprojected_of_adds (operator_adds hq) (hops op hop) ⟨nofun, nofun⟩

/-! ## Inside a projection -/

/-- One value is assigned to the member of the scope, and nothing else is done. -/
def Assigns (c : Context) (s : Scope) (p q : Parts) : Prop :=
  ∃ name v kind a, s.member = some name ∧ c.assignment name v kind = .ok a ∧
    q = { p with assignments := p.assignments ++ [a] }

section Nodes

variable {s : Scope} {p q : Parts} {node : Expr}

theorem assigns_of_assign {name : String} {v : Value} {kind : AssignmentKind}
    (hmember : s.member = some name) (h : (c.assign name v kind).Yields p q) :
    c.Assigns s p q := by
  obtain ⟨a, ha, hq⟩ := Step.yields_given.mp h
  exact ⟨name, v, kind, a, hmember, ha, (Step.yields_modify.mp hq).symm⟩

/-- So does an evaluated operand. -/
theorem assigns_of_given {o : Outcome Value} {name : String} {kind : AssignmentKind}
    (hmember : s.member = some name)
    (h : (Step.given o fun v => c.assign name v kind).Yields p q) : c.Assigns s p q := by
  obtain ⟨v, -, hv⟩ := Step.yields_given.mp h
  exact assigns_of_assign hmember hv

variable (hphase : s.phase = .binding)
include hphase

theorem bindValue_assigns {v : Value} (h : (c.bindValue v node s).Yields p q) :
    c.Assigns s p q := by
  simp only [bindValue, hphase] at h
  split at h
  · next hmember => exact assigns_of_assign hmember h
  · exact (Step.yields_fail.mp h).elim

theorem fold_assigns (h : (c.fold node s).Yields p q) : c.Assigns s p q := by
  unfold fold at h
  split at h
  · exact (Step.yields_fail.mp h).elim
  · obtain ⟨v, -, hv⟩ := Step.yields_given.mp h
    exact bindValue_assigns hphase hv

theorem unaryStep_assigns {op : UnaryOp} {e : Operand} (hop : op ≠ .convert)
    (h : (c.unaryStep op e node s).Yields p q) : c.Assigns s p q := by
  cases op with
  | convert => exact absurd rfl hop
  | not =>
      simp only [unaryStep, hphase] at h
      exact fold_assigns hphase h
  | negate | plus =>
      simp only [unaryStep, hphase] at h
      split at h
      · next hcounter => exact assigns_of_given (counterMember?_eq_some hcounter) h
      · exact fold_assigns hphase h

theorem binaryStep_assigns {op : BinaryOp} {l r : Operand}
    (h : (c.binaryStep op l r node s).Yields p q) : c.Assigns s p q := by
  simp only [binaryStep, hphase, bindingBinary] at h
  split at h
  · next hcounter _ =>
      split at h
      · exact assigns_of_given (counterMember?_eq_some hcounter) h
      · exact fold_assigns hphase h
  · exact fold_assigns hphase h

theorem bindingCall_assigns {method : Method} {operands : List Operand}
    (h : (c.bindingCall method operands node s).Yields p q) : c.Assigns s p q := by
  unfold bindingCall at h
  split at h
  · exact fold_assigns hphase h
  · split at h
    · exact (Step.yields_fail.mp h).elim
    · next hmember =>
        obtain ⟨o, -, ho⟩ := Step.yields_given.mp h
        exact assigns_of_given hmember ho

/-- A member of anything but the row is a value of the program. -/
theorem memberStep_assigns {name : String} (hrow : node.rowMember? = none)
    (h : (c.memberStep name node s).Yields p q) : c.Assigns s p q := by
  unfold memberStep at h
  rw [hrow] at h
  exact fold_assigns hphase h

/-- A member of the row is selected if it is mapped, and skipped otherwise. -/
theorem columnStep_yields {name : String}
    (h : (c.memberStep name (.column name) s).Yields p q) :
    (∃ col, c.mapping.column? name = some col ∧
        q = { p with fields := p.fields ++ [.column (c.mapping.identifier col.name)] }) ∨
      (c.mapping.column? name = none ∧ q = p) := by
  simp only [memberStep, Expr.rowMember?, hphase] at h
  cases hcol : c.mapping.column? name with
  | some col =>
      simp only [hcol] at h
      exact Or.inl ⟨col, rfl, (Step.yields_modify.mp h).symm⟩
  | none =>
      simp only [hcol] at h
      obtain ⟨_, _, hq⟩ := Traced.bind_eq_ok.mp h
      exact Or.inr ⟨rfl, (Except.ok.inj hq).symm⟩

end Nodes

/-- **A bound value is assigned, unless it is read.** A plain value is assigned to the member that
it is bound to, once; where it is a read, nothing is assigned. -/
theorem step_assigns (hkind : c.kind = .update) {name : String} :
    ∀ {e : Expr} {s : Scope} {p q : Parts}, e.isPlain = true → s.phase = .binding →
      s.member = some name → (c.step e s).Yields p q →
        if e.isRead then q.assignments = p.assignments else c.Assigns s p q
  | .root, s, p, q, _, _, _, h => by
      rw [Step.yields_pure.mp h]
      rfl
  | .parameter, s, p, q, _, _, hmember, h => by
      -- The row as a whole is no value of a member.
      rw [step, hmember] at h
      simp at h
      exact (Step.yields_fail.mp h).elim
  | .groupKey, s, p, q, _, hphase, _, h => by
      rw [step, if_pos hphase] at h
      exact Step.yields_modify.mp h ▸ rfl
  | .member target n, s, p, q, _, hphase, _, h => by
      cases target with
      | parameter =>
          rcases columnStep_yields hphase h with ⟨_, _, rfl⟩ | ⟨_, rfl⟩ <;> rfl
      | _ => exact memberStep_assigns hphase rfl h
  | .constant v, s, p, q, _, hphase, _, h => bindValue_assigns hphase h
  | .binary op l r, s, p, q, _, hphase, _, h => binaryStep_assigns hphase h
  | .unary op e, s, p, q, he, hphase, hmember, h => by
      cases op with
      | convert =>
          have hsub : e.subexpressions ⊆ (Expr.unary .convert e).subexpressions :=
            List.subset_cons_self ..
          have hplain : e.isPlain = true := Expr.isPlain_of_subset hsub he
          exact step_assigns hkind (e := e) hplain hphase hmember h
      | _ => exact unaryStep_assigns hphase (by decide) h
  | .call method args, s, p, q, he, hphase, _, h => by
      rw [step, callStep_of_not_isOperator s (Expr.isPlain_self he).1] at h
      split at h
      · -- Only a selection has aggregates.
        unfold aggregateStep at h
        rw [hkind] at h
        simp at h
        exact (Step.yields_fail.mp h).elim
      · rw [hphase] at h
        exact bindingCall_assigns hphase h
  | .lambda body, s, p, q, he, hphase, hmember, h => by
      have hsub : body.subexpressions ⊆ (Expr.lambda body).subexpressions :=
        List.subset_cons_self ..
      rw [step, bodyScope_of_binding hphase] at h
      have hplain : body.isPlain = true := Expr.isPlain_of_subset hsub he
      exact step_assigns hkind (e := body) hplain hphase hmember h
  | .record _, _, _, _, he, _, _, _ | .entity _, _, _, _, he, _, _, _ =>
      absurd (Expr.isPlain_self he).2 (by simp [Expr.isProjection])

/-- The assignment `a` is the one of the binding `b`: its column is that of the member bound. -/
def AssignmentOf (m : Mapping) (b : String × Expr) (a : Assignment) : Prop :=
  ∃ col, m.column? b.1 = some col ∧ a.column = m.identifier col.name

theorem bindingSteps_assign (hkind : c.kind = .update) {s : Scope} (hphase : s.phase = .binding) :
    ∀ {bs : List (String × Expr)} {p q : Parts}, (∀ b ∈ bs, b.2.isPlain = true) →
      (Step.sequence (c.bindingSteps bs s)).Yields p q →
      ∃ new, q.assignments = p.assignments ++ new ∧
        List.Forall₂ (AssignmentOf c.mapping) (bs.filter fun b => !b.2.isRead) new
  | [], p, q, _, h => by
      rw [Step.yields_pure.mp h]
      exact ⟨[], (List.append_nil _).symm, .nil⟩
  | (name, e) :: rest, p, q, hplain, h => by
      obtain ⟨r, hpr, hrq⟩ := Step.yields_seq.mp h
      obtain ⟨new, hnew, hrest⟩ :=
        bindingSteps_assign hkind hphase (fun b hb => hplain b (List.mem_cons_of_mem _ hb)) hrq
      have hfirst := step_assigns hkind (hplain (name, e) (List.mem_cons_self ..))
        (s := s.assigning name) hphase rfl hpr
      cases hread : e.isRead with
      | true =>
          rw [hread, if_pos rfl] at hfirst
          refine ⟨new, hfirst ▸ hnew, ?_⟩
          rw [List.filter_cons_of_neg (by simp [hread])]
          exact hrest
      | false =>
          rw [hread, if_neg (by simp)] at hfirst
          obtain ⟨name', v, kind, a, hmember, ha, rfl⟩ := hfirst
          obtain rfl : name = name' := Option.some.inj hmember
          obtain ⟨-, col, kind', hcol, -, -, rfl⟩ := assignment_eq_ok ha
          refine ⟨_ :: new, hnew.trans (List.append_assoc ..), ?_⟩
          rw [List.filter_cons_of_pos (by simp [hread])]
          exact .cons ⟨col, hcol, rfl⟩ hrest

/-- A projection to named parts takes its bindings in turn. -/
theorem step_projection {e : Expr} {s : Scope} (he : e.isProjection = true)
    (hphase : s.phase = .binding) :
    c.step e s = Step.sequence (c.bindingSteps e.bindings s) := by
  cases e with
  | record bs => exact if_pos hphase
  | entity bs => exact if_pos hphase
  | _ => exact absurd he (by simp [Expr.isProjection])

/-- A projector is visited as a projection, whichever way it was given. -/
theorem select_step {projector body : Expr} (h : projector.asLambda = .lambda body) :
    (QueryOperator.select projector).step c = c.step body (Scope.enter {} .binding) := by
  show c.step projector.asLambda (Scope.enter {} .select) = _
  rw [h, step]
  rfl

end Context

/-! ## Updates -/

namespace Change

theorem compile_of_update {q : Query} {o : UpdateOptions} {s : Statement}
    (h : (Change.update q o).statement.outcome = .ok s) :
    ∃ p, (q.compile .update).outcome = .ok p := by
  obtain ⟨f, hf, -⟩ := Command.statement_eq_ok (k := .change (.update q o)) h
  obtain ⟨p, hp, -⟩ := Traced.bind_eq_ok.mp hf
  exact ⟨p, hp⟩

/-- **Assignments of an update.** Take an update with one projection, to bindings of plain values.
If its statement goes through, then it assigns every binding that is not a read, one after the other
in the order of the bindings, each to the column of its member, and it assigns nothing else. So no
binding is lost exactly when none of them is a read. -/
theorem update_assigns_bindings {t : Table} {o : UpdateOptions}
    {before after : List QueryOperator} {projector body : Expr} {s : Statement}
    (hprojector : projector.asLambda = .lambda body) (hbody : body.isProjection = true)
    (hplain : ∀ b ∈ body.bindings, b.2.isPlain = true)
    (hsingle : ∀ op ∈ before ++ after, (op.apply .root).hasSelect = false)
    (h : (update (.ofOperators t (before ++ .select projector :: after)) o).statement.outcome =
      .ok s) :
    ∃ p, ((Query.ofOperators t (before ++ .select projector :: after)).compile .update).outcome =
        .ok p ∧
      List.Forall₂ (Context.AssignmentOf t.mapping)
        (body.bindings.filter fun b => !b.2.isRead) p.assignments ∧
      (p.assignments.length = body.bindings.length ↔
        ∀ b ∈ body.bindings, b.2.isRead = false) := by
  obtain ⟨p, hp⟩ := compile_of_update h
  obtain ⟨p₁, p₂, hbefore, hselect, hafter⟩ := (Query.compile_around before after _).mp hp
  rw [Context.select_step hprojector, Context.step_projection hbody rfl] at hselect
  obtain ⟨new, hnew, hforall⟩ := Context.bindingSteps_assign rfl rfl hplain hselect
  -- What is before the projection and what is after it assigns nothing.
  have hempty : p₁.assignments = [] := by
    obtain ⟨r, hroot, hops⟩ := (Query.compile_append [] before).mp hbefore
    obtain rfl : {} = r := Except.ok.inj hroot
    exact (Context.operators_unprojected
      (fun op hop => hsingle op (List.mem_append_left _ hop)) hops).assignments
  have hlast : p.assignments = p₂.assignments := (Context.operators_unprojected
    (fun op hop => hsingle op (List.mem_append_right _ hop)) hafter).assignments
  have hassigned : p.assignments = new := by
    rw [hlast, hnew, hempty, List.nil_append]
  rw [← hassigned] at hforall
  refine ⟨p, hp, hforall, ?_⟩
  rw [← hforall.length_eq, List.length_filter_eq_length_iff]
  simp

/-- The bindings of an update that activates a person, and keeps the name as it is. -/
def activation : Expr :=
  .record [("name", .column "name"), ("active", .constant (.boolean true)),
    ("verified", .unary .convert (.constant (.boolean false)))]

def firstPerson : QueryOperator := .filter (.binary .eq (.column "id") (.constant (.int 1)))

/-- Two of the three bindings are assigned, each to its own column. -/
theorem update_assigns_bindings_activation :
    ((∀ b ∈ activation.bindings, b.2.isPlain = true) ∧
      ∀ op ∈ [firstPerson] ++ [], (op.apply .root).hasSelect = false) ∧
    ∃ p, ((Query.ofOperators { mapping := people } [firstPerson, .select activation]).compile
        .update).outcome = .ok p ∧
      List.Forall₂ (Context.AssignmentOf people)
        [("active", .constant (.boolean true)),
          ("verified", .unary .convert (.constant (.boolean false)))] p.assignments := by
  have hplain : ∀ b ∈ activation.bindings, b.2.isPlain = true := by decide
  have hsingle : ∀ op ∈ [firstPerson] ++ [], (op.apply .root).hasSelect = false := by
    intro op hop
    rw [List.append_nil, List.mem_singleton] at hop
    rw [hop]
    rfl
  obtain ⟨s, hs⟩ : ∃ s,
      (update (.ofOperators { mapping := people } ([firstPerson] ++ [.select activation]))
        {}).statement.outcome = .ok s := ⟨_, rfl⟩
  obtain ⟨p, hp, hforall, -⟩ := update_assigns_bindings rfl rfl hplain hsingle hs
  exact ⟨⟨hplain, hsingle⟩, p, hp, hforall⟩

/-- **A lost binding.** The statement of that update goes through and says nothing of the name. -/
theorem update_loses_binding :
    (Mapping.build personType .conventional).outcome = .ok people ∧
    ∃ s p,
      (update (.ofOperators { mapping := people } [firstPerson, .select activation])
        {}).statement.outcome = .ok s ∧
      s.cql = "UPDATE Person SET active = ?, verified = ? WHERE id = ?" ∧
      ((Query.ofOperators { mapping := people } [firstPerson, .select activation]).compile
        .update).outcome = .ok p ∧
      activation.bindings.length = 3 ∧ p.assignments.length = 2 :=
  ⟨people_built, _, _, rfl, rfl, rfl, rfl, rfl⟩

end Change

end TypedCql
