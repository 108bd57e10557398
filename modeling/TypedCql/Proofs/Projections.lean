import TypedCql.Proofs.Assignments

/-!
# What a projection contributes

Whether a query has a projection is told by what the projection left in the parts: a selection
without fields lists every column, and a deletion without fields or assignments deletes whole rows.
Some projectors leave nothing, above all members that are not mapped, and then the statement is that
of the query without the projection.

`Expr.isSilent` describes these projectors by their form. A deletion goes through, and a selection
lists every column, only if the projectors are silent (`isSilent_of_compile`); and every field that
is selected comes from a projector (`fields_of_adds`). Silent projectors without operators in them
indeed leave nothing (`compile_silent`), so the description is exact.
-/

namespace TypedCql

/-! ## Silent projectors -/

namespace Expr

mutual

/-- The projector contributes nothing: it stands for the row, the table, members without a column,
or the key of a group although there is none. A conversion or an operator in it counts for what it
is applied to. `bound` tells whether the value is bound to a member, as the row cannot be. -/
def isSilent (m : Mapping) (keys : List Identifier) (bound : Bool) : Expr → Bool
  | .root => true
  | .parameter => !bound
  | .groupKey => keys.isEmpty
  | .member .parameter name => (m.column? name).isNone
  | .unary .convert e => isSilent m keys bound e
  | .call method (source :: _) => method.isOperator && isSilent m keys bound source
  | .lambda body => isSilent m keys bound body
  | .record bs | .entity bs => bindingsSilent m keys bs
  | _ => false

def bindingsSilent (m : Mapping) (keys : List Identifier) : List (String × Expr) → Bool
  | [] => true
  | (_, e) :: rest => isSilent m keys true e && bindingsSilent m keys rest

end

mutual

/-- With fewer keys at hand there is less to contribute. -/
theorem isSilent_of_fewer {m : Mapping} {keys keys' : List Identifier} (hkeys : keys <+: keys') :
    ∀ {bound : Bool} {e : Expr}, e.isSilent m keys' bound = true → e.isSilent m keys bound = true
  | _, .root, _ => rfl
  | _, .parameter, h => h
  | _, .groupKey, h => by
      rw [isSilent, List.isEmpty_iff] at *
      rw [h] at hkeys
      exact List.prefix_nil.mp hkeys
  | _, .member .parameter _, h => h
  | _, .unary .convert e, h => isSilent_of_fewer (e := e) hkeys h
  | _, .call method (source :: _), h => by
      rw [isSilent, Bool.and_eq_true] at *
      exact ⟨h.1, isSilent_of_fewer hkeys h.2⟩
  | _, .lambda body, h => isSilent_of_fewer (e := body) hkeys h
  | _, .record bs, h => bindingsSilent_of_fewer hkeys h
  | _, .entity bs, h => bindingsSilent_of_fewer hkeys h

theorem bindingsSilent_of_fewer {m : Mapping} {keys keys' : List Identifier}
    (hkeys : keys <+: keys') :
    ∀ {bs : List (String × Expr)}, bindingsSilent m keys' bs = true →
      bindingsSilent m keys bs = true
  | [], _ => rfl
  | (_, e) :: rest, h => by
      rw [bindingsSilent, Bool.and_eq_true] at *
      exact ⟨isSilent_of_fewer hkeys h.1, bindingsSilent_of_fewer hkeys h.2⟩

end

end Expr

/-- Growing parts that end as they began did not change on the way. -/
theorem Parts.SameProjection.squeeze {p q r : Parts} (hpq : p.Grows q) (hqr : q.Grows r)
    (h : p.SameProjection r) : p.SameProjection q ∧ q.SameProjection r := by
  have hfields : p.fields = q.fields :=
    hpq.fields.eq_of_length_le (h.fields ▸ hqr.fields.length_le)
  have hassignments : p.assignments = q.assignments :=
    hpq.assignments.eq_of_length_le (h.assignments ▸ hqr.assignments.length_le)
  exact ⟨⟨hfields.symm, hassignments.symm⟩, h.fields.trans hfields,
    h.assignments.trans hassignments⟩

namespace Context

variable {c : Context}

/-- An assignment is a contribution. -/
theorem not_sameProjection_of_assigns {s : Scope} {p q : Parts} (h : c.Assigns s p q) :
    ¬p.SameProjection q := by
  obtain ⟨_, _, _, a, -, -, rfl⟩ := h
  intro hsame
  simpa using hsame.assignments

/-- So is an aggregate. -/
theorem not_sameProjection_of_aggregate {method : Method} {function : String} {args : List Expr}
    {node : Expr} {s : Scope} {p q : Parts}
    (h : (c.aggregateStep method function (c.operands args) node s).Yields p q) :
    ¬p.SameProjection q := by
  intro hsame
  unfold aggregateStep at h
  split at h
  · rw [operands_eq_map, List.getElem?_map] at h
    cases hsel : args[1]? with
    | none =>
        rw [hsel] at h
        simp only [Option.map_none] at h
        split at h
        · have hq := Step.yields_modify.mp h
          simpa [← hq] using hsame.fields
        · exact Step.yields_fail.mp h
    | some selector =>
        rw [hsel] at h
        obtain ⟨r, hr, hrest⟩ := Traced.bind_eq_ok.mp h
        split at hrest
        · next hfields =>
            obtain ⟨field, -, rfl⟩ := aggregated_eq_some (step_grows hr).fields hfields
            have hq := Except.ok.inj hrest
            simpa [← hq] using hsame.fields
        · exact nomatch hrest
  · exact Step.yields_fail.mp h

/-- An operator in a projection first visits what it is applied to. -/
theorem operator_yields {method : Method} {args : List Expr} {node : Expr} {s : Scope}
    {p q : Parts} (hoperator : method.isOperator = true)
    (h : (c.callStep method (c.operands args) node s).Yields p q) :
    ∃ source rest r, args = source :: rest ∧ (c.step source s).Yields p r ∧ r.Grows q := by
  obtain ⟨next, hstep, hnext⟩ :=
    operator_adding (fun e _ => c.step_adds e) s hoperator node
  rw [hstep] at h
  obtain ⟨r, hsource, hrest⟩ := Step.yields_seq.mp h
  obtain ⟨o, ho, hr⟩ := Step.yields_given.mp hsource
  obtain ⟨source, hfirst, rfl⟩ := operand_eq_ok ho
  obtain ⟨rest, rfl⟩ : ∃ rest, args = source :: rest := by
    cases args with
    | nil => exact nomatch hfirst
    | cons first rest => exact ⟨rest, by rw [Option.some.inj hfirst]⟩
  exact ⟨source, rest, r, rfl, hr, grows_of_adds (hnext r q hrest)⟩

mutual

/-- **Only silent projectors contribute nothing.** -/
theorem isSilent_of_sameProjection :
    ∀ {e : Expr} {s : Scope} {p q : Parts}, s.phase = .binding → (c.step e s).Yields p q →
      p.SameProjection q → e.isSilent c.mapping p.groupBy s.member.isSome = true
  | .root, s, p, q, _, _, _ => rfl
  | .parameter, s, p, q, hphase, h, _ => by
      rw [step] at h
      split at h
      · next hplace =>
          rw [Expr.isSilent, Option.isNone_iff_eq_none.mp hplace.2]
          rfl
      · exact (Step.yields_fail.mp h).elim
  | .groupKey, s, p, q, hphase, h, hsame => by
      rw [step, if_pos hphase] at h
      have hfields := hsame.fields
      rw [← Step.yields_modify.mp h] at hfields
      simpa [Expr.isSilent] using hfields
  | .member target name, s, p, q, hphase, h, hsame => by
      cases target with
      | parameter =>
          rcases columnStep_yields hphase h with ⟨col, -, rfl⟩ | ⟨hcol, -⟩
          · simpa using hsame.fields
          · rw [Expr.isSilent, hcol]
            rfl
      | _ => exact absurd hsame (not_sameProjection_of_assigns (memberStep_assigns hphase rfl h))
  | .constant v, s, p, q, hphase, h, hsame =>
      absurd hsame (not_sameProjection_of_assigns (bindValue_assigns hphase h))
  | .binary op l r, s, p, q, hphase, h, hsame =>
      absurd hsame (not_sameProjection_of_assigns (binaryStep_assigns hphase h))
  | .unary op e, s, p, q, hphase, h, hsame => by
      cases op with
      | convert => exact isSilent_of_sameProjection (e := e) hphase h hsame
      | _ =>
          exact absurd hsame
            (not_sameProjection_of_assigns (unaryStep_assigns hphase (by decide) h))
  | .call method args, s, p, q, hphase, h, hsame => by
      rw [step] at h
      cases hoperator : method.isOperator with
      | true =>
          obtain ⟨source, rest, r, rfl, hr, hrq⟩ := operator_yields hoperator h
          have hsource := (hsame.squeeze (step_grows hr) hrq).1
          rw [Expr.isSilent, hoperator, isSilent_of_sameProjection hphase hr hsource]
          rfl
      | false =>
          rw [callStep_of_not_isOperator s hoperator] at h
          split at h
          · exact absurd hsame (not_sameProjection_of_aggregate h)
          · rw [hphase] at h
            exact absurd hsame (not_sameProjection_of_assigns (bindingCall_assigns hphase h))
  | .lambda body, s, p, q, hphase, h, hsame => by
      rw [step, bodyScope_of_binding hphase] at h
      exact isSilent_of_sameProjection (e := body) hphase h hsame
  | .record bs, s, p, q, hphase, h, hsame => by
      rw [step, if_pos hphase] at h
      exact bindingsSilent_of_sameProjection hphase h hsame
  | .entity bs, s, p, q, hphase, h, hsame => by
      rw [step, if_pos hphase] at h
      exact bindingsSilent_of_sameProjection hphase h hsame

theorem bindingsSilent_of_sameProjection :
    ∀ {bs : List (String × Expr)} {s : Scope} {p q : Parts}, s.phase = .binding →
      (Step.sequence (c.bindingSteps bs s)).Yields p q → p.SameProjection q →
        Expr.bindingsSilent c.mapping p.groupBy bs = true
  | [], s, p, q, _, _, _ => rfl
  | (name, e) :: rest, s, p, q, hphase, h, hsame => by
      obtain ⟨r, hpr, hrq⟩ := Step.yields_seq.mp h
      have hgrows : r.Grows q := by
        refine Step.sequence_relates .refl .trans (fun st hst p q hq => ?_) r q hrq
        rw [bindingSteps_eq_map] at hst
        obtain ⟨b, -, rfl⟩ := List.mem_map.mp hst
        exact step_grows hq
      obtain ⟨hfirst, hrest⟩ := hsame.squeeze (step_grows hpr) hgrows
      rw [Expr.bindingsSilent, Bool.and_eq_true]
      refine ⟨isSilent_of_sameProjection (s := s.assigning name) hphase hpr hfirst, ?_⟩
      exact Expr.bindingsSilent_of_fewer (step_grows hpr).groupBy
        (bindingsSilent_of_sameProjection hphase hrq hrest)

end

/-! ## Silence is exact -/

mutual

/-- A silent projector without operators in it leaves the parts as they are. -/
theorem yields_of_isSilent :
    ∀ {e : Expr} {s : Scope} {p : Parts}, s.phase = .binding →
      (∀ e' ∈ e.subexpressions, e'.isOperator = false) →
      e.isSilent c.mapping p.groupBy s.member.isSome = true → (c.step e s).Yields p p
  | .root, s, p, _, _, _ => Step.yields_pure.mpr rfl
  | .parameter, s, p, hphase, _, h => by
      rw [Expr.isSilent, Bool.not_eq_true', Option.isSome_eq_false_iff] at h
      rw [step, if_pos ⟨hphase, h⟩]
      exact Step.yields_pure.mpr rfl
  | .groupKey, s, p, hphase, _, h => by
      rw [Expr.isSilent, List.isEmpty_iff] at h
      have hfields : p.fields ++ p.groupBy.map .column = p.fields := by
        rw [h, List.map_nil, List.append_nil]
      rw [step, if_pos hphase, Step.yields_modify, hfields]
  | .member target name, s, p, hphase, _, h => by
      cases target with
      | parameter =>
          rw [Expr.isSilent, Option.isNone_iff_eq_none] at h
          show (c.memberStep name (.column name) s).Yields p p
          simp only [memberStep, Expr.rowMember?, hphase, h]
          rfl
      | _ => exact nomatch h
  | .constant _, _, _, _, _, h => nomatch h
  | .binary _ _ _, _, _, _, _, h => nomatch h
  | .unary op e, s, p, hphase, hnone, h => by
      cases op with
      | convert =>
          exact yields_of_isSilent (e := e) hphase
            (fun e' he' => hnone e' (List.mem_cons_of_mem _ he')) h
      | _ => exact nomatch h
  | .call method args, s, p, _, hnone, h => by
      cases args with
      | nil => exact nomatch h
      | cons source rest =>
          have hcall : method.isOperator = false := hnone _ (Expr.self_mem_subexpressions _)
          rw [Expr.isSilent, hcall] at h
          exact nomatch h
  | .lambda body, s, p, hphase, hnone, h => by
      rw [step, bodyScope_of_binding hphase]
      exact yields_of_isSilent (e := body) hphase
        (fun e' he' => hnone e' (List.mem_cons_of_mem _ he')) h
  | .record bs, s, p, hphase, hnone, h => by
      rw [step, if_pos hphase]
      exact bindings_yield_of_silent hphase (fun e' he' => hnone e' (List.mem_cons_of_mem _ he')) h
  | .entity bs, s, p, hphase, hnone, h => by
      rw [step, if_pos hphase]
      exact bindings_yield_of_silent hphase (fun e' he' => hnone e' (List.mem_cons_of_mem _ he')) h

theorem bindings_yield_of_silent :
    ∀ {bs : List (String × Expr)} {s : Scope} {p : Parts}, s.phase = .binding →
      (∀ e' ∈ Expr.bindingSubexpressions bs, e'.isOperator = false) →
      Expr.bindingsSilent c.mapping p.groupBy bs = true →
        (Step.sequence (c.bindingSteps bs s)).Yields p p
  | [], s, p, _, _, _ => Step.yields_pure.mpr rfl
  | (name, e) :: rest, s, p, hphase, hnone, h => by
      rw [Expr.bindingsSilent, Bool.and_eq_true] at h
      refine Step.yields_seq.mpr ⟨p, ?_, ?_⟩
      · exact yields_of_isSilent (s := s.assigning name) hphase
          (fun e' he' => hnone e' (List.mem_append_left _ he')) h.1
      · exact bindings_yield_of_silent hphase
          (fun e' he' => hnone e' (List.mem_append_right _ he')) h.2

end

end Context

/-! ## Selected fields -/

/-- The ways in which an expression can contribute a field: the column of a member that occurs in
it, a key of the group, the count of all rows, and an aggregate of what its selector contributes. -/
inductive Contributed (m : Mapping) (keys : List Identifier) : Expr → Field → Prop
  | column {e : Expr} {name : String} {col : Column} (h : .column name ∈ e.subexpressions)
      (hcol : m.column? name = some col) : Contributed m keys e (.column (m.identifier col.name))
  | groupKey {e : Expr} {i : Identifier} (h : .groupKey ∈ e.subexpressions) (hi : i ∈ keys) :
      Contributed m keys e (.column i)
  | countAll {e : Expr} {args : List Expr} (h : .call .count args ∈ e.subexpressions) :
      Contributed m keys e .countAll
  | aggregate {e selector : Expr} {method : Method} {args : List Expr} {function : String}
      {field : Field} (h : .call method args ∈ e.subexpressions)
      (hm : method.aggregate? = some function) (hsel : args[1]? = some selector)
      (hfield : Contributed m keys selector field) :
      Contributed m keys e (.aggregate function field)

theorem Contributed.mono {m : Mapping} {keys keys' : List Identifier} {e e' : Expr} {f : Field}
    (hkeys : keys ⊆ keys') (he : e.subexpressions ⊆ e'.subexpressions)
    (h : Contributed m keys e f) : Contributed m keys' e' f := by
  induction h generalizing e' with
  | column h hcol => exact .column (he h) hcol
  | groupKey h hi => exact .groupKey (he h) (hkeys hi)
  | countAll h => exact .countAll (he h)
  | aggregate h hm hsel _ ih => exact .aggregate (he h) hm hsel (ih (List.Subset.refl _))

/-- The expression is the projector of a projection that occurs in the other one. -/
def Expr.IsProjectorIn (projector e : Expr) : Prop :=
  ∃ args, .call .select args ∈ e.subexpressions ∧ args[1]? = some projector

theorem Expr.IsProjectorIn.subset {projector e : Expr} (h : projector.IsProjectorIn e) :
    projector.subexpressions ⊆ e.subexpressions := by
  obtain ⟨args, hargs, hprojector⟩ := h
  have hcall : projector.subexpressions ⊆ (Expr.call .select args).subexpressions :=
    subset_of_operand (e := .call .select args) (List.mem_of_getElem? hprojector)
  exact List.Subset.trans hcall (subset_of_mem hargs)

namespace Context

/-- The field comes from a projector: from one inside of the expression, or else the expression is
itself part of one. -/
def FromProjector (m : Mapping) (keys : List Identifier) (e : Expr) (s : Scope) (f : Field) :
    Prop :=
  (∃ projector, projector.IsProjectorIn e ∧ Contributed m keys projector f) ∨
    ¬s.Unprojected ∧ Contributed m keys e f

theorem not_unprojected_of_binding {s : Scope} (h : s.phase = .binding) : ¬s.Unprojected :=
  fun hs => hs.binding h

section Fields

variable {m : Mapping} {keys : List Identifier} {e e' : Expr} {s s' : Scope} {f : Field}

/-- Within a projection or not, the expression contributes what comes from it. -/
theorem FromProjector.contributed (h : FromProjector m keys e s f) : Contributed m keys e f := by
  rcases h with ⟨projector, hprojector, hf⟩ | ⟨-, hf⟩
  · exact hf.mono (List.Subset.refl _) hprojector.subset
  · exact hf

theorem FromProjector.mono {keys' : List Identifier} (hkeys : keys ⊆ keys')
    (h : FromProjector m keys e s f) : FromProjector m keys' e s f := by
  rcases h with ⟨projector, hprojector, hf⟩ | ⟨hs, hf⟩
  · exact Or.inl ⟨projector, hprojector, hf.mono hkeys (List.Subset.refl _)⟩
  · exact Or.inr ⟨hs, hf.mono hkeys (List.Subset.refl _)⟩

/-- What comes from a projector in a part of a node comes from one in the node, or else the node is
part of one. -/
theorem FromProjector.within (place : Places e s e' s') (h : FromProjector m keys e' s' f) :
    FromProjector m keys e s f := by
  rcases h with ⟨projector, ⟨args, hargs, hprojector⟩, hf⟩ | ⟨hs', hf⟩
  · exact Or.inl ⟨projector, ⟨args, place.subset hargs, hprojector⟩, hf⟩
  · have hwhole : Contributed m keys e f := hf.mono (List.Subset.refl _) place.subset
    cases place with
    | operand => exact Or.inr ⟨fun hs => hs' ⟨hs.select, hs.binding⟩, hwhole⟩
    | @argument method args _ _ _ hargument hphase =>
        -- The argument of an operator is part of a projection only if it is the projector.
        by_cases hselect : s'.phase = .select
        · rw [hselect] at hphase
          obtain rfl := argumentPhase?_eq_select hphase
          exact Or.inl ⟨e', ⟨args, Expr.self_mem_subexpressions _, hargument⟩, hf⟩
        · have hbinding : s'.phase ≠ .binding := by
            intro hbinding
            rw [hbinding] at hphase
            exact argumentPhase?_ne_binding method hphase
          exact absurd ⟨hselect, hbinding⟩ hs'
    | body =>
        refine Or.inr ⟨fun hs => hs' ?_, hwhole⟩
        rw [bodyScope_eq hs.select]
        exact hs
    | binding hphase => exact Or.inr ⟨not_unprojected_of_binding hphase, hwhole⟩

end Fields

/-- **Fields come from projectors.** Every field that a visit adds comes from a projector. -/
theorem fields_of_adds {c : Context} {e : Expr} {s : Scope} {p q : Parts} (h : c.Adds e s p q) :
    ∃ new, q.fields = p.fields ++ new ∧
      ∀ f ∈ new, FromProjector c.mapping q.groupBy e s f := by
  induction h with
  | refl => exact ⟨[], (List.append_nil _).symm, List.forall_mem_nil _⟩
  | trans _ hqr ihpq ihqr =>
      obtain ⟨new, hnew, hall⟩ := ihpq
      obtain ⟨new', hnew', hall'⟩ := ihqr
      refine ⟨new ++ new', by rw [hnew', hnew, List.append_assoc], ?_⟩
      rw [List.forall_mem_append]
      exact ⟨fun f hf => (hall f hf).mono (grows_of_adds hqr).groupBy.subset, hall'⟩
  | within place _ ih =>
      obtain ⟨new, hnew, hall⟩ := ih
      exact ⟨new, hnew, fun f hf => (hall f hf).within place⟩
  | condition p t =>
      refine ⟨[], ?_, List.forall_mem_nil _⟩
      cases t <;> exact (List.append_nil _).symm
  | column p hphase hcol =>
      refine ⟨_, rfl, List.forall_mem_singleton.mpr (Or.inr ⟨?_, ?_⟩)⟩
      · exact not_unprojected_of_binding hphase
      · exact .column (Expr.self_mem_subexpressions _) hcol
  | countAll p hphase =>
      refine ⟨_, rfl, List.forall_mem_singleton.mpr (Or.inr ⟨?_, ?_⟩)⟩
      · exact not_unprojected_of_binding hphase
      · exact .countAll (Expr.self_mem_subexpressions _)
  | groupKeys p hphase =>
      refine ⟨_, rfl, fun f hf => ?_⟩
      obtain ⟨i, hi, rfl⟩ := List.mem_map.mp hf
      exact Or.inr ⟨not_unprojected_of_binding hphase,
        .groupKey (Expr.self_mem_subexpressions _) hi⟩
  | orderKey | groupKey | limit | filtering | assignment =>
      exact ⟨[], (List.append_nil _).symm, List.forall_mem_nil _⟩
  | aggregate hphase _ hsel hadds hm hfields ih =>
      obtain ⟨field, hnew, rfl⟩ := aggregated_eq_some (grows_of_adds hadds).fields hfields
      obtain ⟨new, hnew', hall⟩ := ih
      have hfield : field ∈ new := by
        rw [List.append_cancel_left (hnew'.symm.trans hnew)]
        exact List.mem_singleton_self field
      refine ⟨_, rfl, List.forall_mem_singleton.mpr (Or.inr ⟨?_, ?_⟩)⟩
      · exact not_unprojected_of_binding hphase
      · exact .aggregate (Expr.self_mem_subexpressions _) hm hsel (hall field hfield).contributed

end Context

/-! ## Chains with a projection -/

theorem Expr.exists_asLambda (e : Expr) : ∃ body, e.asLambda = .lambda body := by
  cases e with
  | lambda body => exact ⟨body, rfl⟩
  | _ => exact ⟨_, rfl⟩

namespace Query

variable {t : Table} {kind : StatementKind} {before after : List QueryOperator} {projector : Expr}

/-- A chain whose projection left nothing has a silent projector. -/
theorem isSilent_of_compile {p : Parts}
    (h : ((ofOperators t (before ++ .select projector :: after)).compile kind).outcome = .ok p)
    (hfields : p.fields = []) (hassignments : p.assignments = []) :
    ∃ q, ((ofOperators t before).compile kind).outcome = .ok q ∧
      projector.asLambda.isSilent t.mapping q.groupBy false = true := by
  obtain ⟨q, r, hbefore, hselect, hafter⟩ := (compile_around before after _).mp h
  obtain ⟨body, hbody⟩ := projector.exists_asLambda
  rw [Context.select_step hbody] at hselect
  -- The end of the chain has nothing, so there was nothing before or after the projection.
  have hqr : q.Grows r := Context.step_grows hselect
  have hrp : r.Grows p := Context.operators_grow hafter
  have hq : q.SameProjection p := by
    have hqp : q.Grows p := hqr.trans hrp
    refine ⟨?_, ?_⟩
    · rw [hfields]
      exact (List.prefix_nil.mp (hfields ▸ hqp.fields)).symm
    · rw [hassignments]
      exact (List.prefix_nil.mp (hassignments ▸ hqp.assignments)).symm
  refine ⟨q, hbefore, ?_⟩
  rw [hbody]
  exact Context.isSilent_of_sameProjection (e := body) (s := Scope.enter {} .binding) rfl hselect
    (hq.squeeze hqr hrp).1

/-- **A silent projection is no projection.** Where the projector is silent and holds no operators,
the chain comes to the same parts as without it. -/
theorem compile_silent {p q : Parts}
    (hbefore : ((ofOperators t before).compile kind).outcome = .ok p)
    (hnone : ∀ e ∈ projector.asLambda.subexpressions, e.isOperator = false)
    (hsilent : projector.asLambda.isSilent t.mapping p.groupBy false = true) :
    ((ofOperators t (before ++ .select projector :: after)).compile kind).outcome = .ok q ↔
      ((ofOperators t (before ++ after)).compile kind).outcome = .ok q := by
  obtain ⟨body, hbody⟩ := projector.exists_asLambda
  have hselect : ((QueryOperator.select projector).step ⟨t.mapping, kind⟩).Yields p p := by
    rw [hbody] at hnone hsilent
    rw [Context.select_step hbody]
    exact Context.yields_of_isSilent rfl (fun e he => hnone e (List.mem_cons_of_mem _ he)) hsilent
  rw [compile_around, compile_append]
  constructor
  · rintro ⟨p₁, r, hp₁, hr, hafter⟩
    obtain rfl : p₁ = p := Except.ok.inj (hp₁.symm.trans hbefore)
    obtain rfl : p₁ = r := Except.ok.inj (hselect.symm.trans hr)
    exact ⟨p₁, hp₁, hafter⟩
  · rintro ⟨p₁, hp₁, hafter⟩
    obtain rfl : p₁ = p := Except.ok.inj (hp₁.symm.trans hbefore)
    exact ⟨p₁, p₁, hp₁, hselect, hafter⟩

theorem compile_of_delete {q : Query} {o : DeleteOptions} {s : Statement}
    (h : (Change.delete q o).statement.outcome = .ok s) :
    ∃ p, (q.compile .delete).outcome = .ok p ∧ p.fields = [] ∧ p.assignments = [] := by
  obtain ⟨f, hf, -⟩ := Command.statement_eq_ok (k := .change (.delete q o)) h
  obtain ⟨p, hp, hdelete⟩ := Traced.bind_eq_ok.mp hf
  unfold Parts.delete at hdelete
  split at hdelete
  · exact nomatch hdelete
  · next hnone =>
      rw [Bool.or_eq_true, not_or, Bool.not_eq_true', Bool.not_eq_true'] at hnone
      exact ⟨p, hp, by simpa using hnone.1, by simpa using hnone.2⟩

theorem compile_of_select {q : Query} {s : Statement} (h : q.statement.outcome = .ok s) :
    ∃ p, (q.compile .select).outcome = .ok p ∧
      s = (p.select q.table.mapping q.table.qualifiedName).render .placeholder := by
  obtain ⟨f, hf, hs⟩ := Command.statement_eq_ok (k := .select q) h
  obtain ⟨p, hp, hselect⟩ := Traced.bind_eq_ok.mp hf
  exact ⟨p, hp, by rw [← hs, ← Except.ok.inj hselect]⟩

/-- A selection has no assignments to begin with. -/
theorem assignments_of_select {c : Context} (hkind : c.kind = .select) {e : Expr} {s : Scope}
    {p q : Parts} (h : c.Adds e s p q) : q.assignments = p.assignments := by
  induction h with
  | refl => rfl
  | trans _ _ ihpq ihqr => exact ihqr.trans ihpq
  | within _ _ ih => exact ih
  | condition p t => cases t <;> rfl
  | assignment p _ _ ha => exact absurd (Or.inl hkind) (Context.assignment_eq_ok ha).1
  | column | countAll | groupKeys | orderKey | groupKey | limit | filtering => rfl
  | aggregate _ _ _ _ _ _ ih => exact ih

/-- **A projection is kept.** Take a chain with a projection among its operators. It can be deleted,
whatever the options, only if the projector is silent. Whatever fields a selection lists come from
projectors of the query, and it lists none, and so every column, only if the projector is silent. -/
theorem projection_kept (t : Table) (before after : List QueryOperator) (projector : Expr) :
    (∀ o s,
      (Change.delete (ofOperators t (before ++ .select projector :: after)) o).statement.outcome =
        .ok s →
      ∃ q, ((ofOperators t before).compile .delete).outcome = .ok q ∧
        projector.asLambda.isSilent t.mapping q.groupBy false = true) ∧
    ∀ s, (ofOperators t (before ++ .select projector :: after)).statement.outcome = .ok s →
      ∃ p, ((ofOperators t (before ++ .select projector :: after)).compile .select).outcome =
          .ok p ∧
        s = (p.select t.mapping t.qualifiedName).render .placeholder ∧
        (∀ f ∈ p.fields, ∃ part,
          part.IsProjectorIn (ofOperators t (before ++ .select projector :: after)).expr ∧
            Contributed t.mapping p.groupBy part f) ∧
        (p.fields = [] → ∃ q, ((ofOperators t before).compile .select).outcome = .ok q ∧
          projector.asLambda.isSilent t.mapping q.groupBy false = true) := by
  constructor
  · intro o s h
    obtain ⟨p, hp, hfields, hassignments⟩ := compile_of_delete h
    exact isSilent_of_compile hp hfields hassignments
  · intro s h
    obtain ⟨p, hp, hs⟩ := compile_of_select h
    have hadds := Context.compile_adds ⟨t.mapping, .select⟩ hp
    have hassignments : p.assignments = [] := assignments_of_select rfl hadds
    obtain ⟨new, hnew, hall⟩ := Context.fields_of_adds hadds
    refine ⟨p, hp, hs, fun f hf => ?_, fun hfields => isSilent_of_compile hp hfields hassignments⟩
    rw [hnew, List.nil_append] at hf
    -- The chain as a whole is no part of a projection.
    rcases hall f hf with hfrom | ⟨hchain, -⟩
    · exact hfrom
    · exact absurd ⟨nofun, nofun⟩ hchain

/-- The name of the first person is selected by the projection. The nickname, which no person has,
can be deleted, and its projector is silent. -/
theorem projection_kept_firstPerson :
    (∃ p, ((ofOperators { mapping := people }
        [Change.firstPerson, .select (.column "name")]).compile .select).outcome = .ok p ∧
      ∀ f ∈ p.fields, ∃ part,
        part.IsProjectorIn (ofOperators { mapping := people }
          [Change.firstPerson, .select (.column "name")]).expr ∧
            Contributed people p.groupBy part f) ∧
    ∃ q,
      ((ofOperators { mapping := people } [Change.firstPerson]).compile .delete).outcome = .ok q ∧
      (Expr.column "nickname").asLambda.isSilent people q.groupBy false = true := by
  have hname := projection_kept { mapping := people } [Change.firstPerson] [] (.column "name")
  have hnickname :=
    projection_kept { mapping := people } [Change.firstPerson] [] (.column "nickname")
  obtain ⟨p, hp, -, hfields, -⟩ := hname.2 _ rfl
  exact ⟨⟨p, hp, hfields⟩, hnickname.1 {} _ rfl⟩

/-- **A dropped projection.** A person has no nickname. To delete the nickname of a person deletes
the person, and to select it selects everything else. -/
theorem projection_dropped :
    (Mapping.build personType .conventional).outcome = .ok people ∧
    (∃ s, (Change.delete (ofOperators { mapping := people }
        [Change.firstPerson, .select (.column "nickname")]) {}).statement.outcome = .ok s ∧
      s.cql = "DELETE FROM Person WHERE id = ?") ∧
    ∃ s, (ofOperators { mapping := people }
        [Change.firstPerson, .select (.column "nickname")]).statement.outcome = .ok s ∧
      s.cql = "SELECT id, name, active, verified FROM Person WHERE id = ?" :=
  ⟨people_built, ⟨_, rfl, rfl⟩, _, rfl, rfl⟩

end Query

end TypedCql
