import TypedCql.Proofs.Invariance

/-!
# Conditions one after the other

A chain can restrict the rows, or condition a change, in several operators or in one, and the single
row that it is cut to can be chosen in the operator that cuts or before it. `Query.AlikeFor` says
that no statement of a kind tells two queries apart. Since the operators of a chain are steps, two
chains are alike as soon as their steps lead to the same.

The ` AND ` between two conditions comes about in two ways. A conjunction always writes it between
its sides; an operator that adds a condition writes it only if something is there already. So the
two are the same wherever the first condition shows, and a condition that does not show is the one
that keeps them apart.
-/

namespace TypedCql

/-- What follows a computation matters only for the result that it has. -/
theorem Traced.bind_congr {α β : Type} {t : Traced α} {f g : α → Traced β}
    (h : ∀ a, t.outcome = .ok a → f a = g a) : t >>= f = t >>= g := by
  show Traced.bind t f = Traced.bind t g
  unfold Traced.bind
  cases ho : t.outcome with
  | error e => rfl
  | ok a =>
      dsimp only
      rw [h a ho]

namespace Query

/-! ## Queries that are alike -/

/-- The query continued by some operators. -/
def extend (q : Query) (ops : List QueryOperator) : Query :=
  { q with expr := ops.foldl QueryOperator.apply q.expr }

theorem compile_extend (q : Query) (ops : List QueryOperator) (kind : StatementKind) :
    (q.extend ops).compile kind =
      q.compile kind >>= Step.sequence (ops.map (QueryOperator.step ⟨q.table.mapping, kind⟩)) :=
  congrFun (Context.step_foldl ops q.expr) {}

/-- For statements of a kind the queries are alike: they come to the same parts or to the same
error, and so does every statement that is made of them, in either form. -/
structure AlikeFor (kind : StatementKind) (q q' : Query) : Prop where
  parts : q.compile kind = q'.compile kind
  statement : ∀ u : QueryUse, u.kind = kind → (u.command q).statement = (u.command q').statement
  inline : ∀ u : QueryUse, u.kind = kind → (u.command q).inline = (u.command q').inline

/-- On one table nothing but the parts matters. -/
theorem AlikeFor.of_parts {kind : StatementKind} {q q' : Query} (htable : q.table = q'.table)
    (h : q.compile kind = q'.compile kind) : AlikeFor kind q q' := by
  have hfragment : ∀ u : QueryUse, u.kind = kind →
      (u.command q).fragment = (u.command q').fragment := by
    rintro u rfl
    rw [QueryUse.fragment_eq, QueryUse.fragment_eq, h, htable]
  refine ⟨h, fun u hu => ?_, fun u hu => ?_⟩
  · rw [QueryUse.statement_eq, QueryUse.statement_eq, hfragment u hu]
  · rw [QueryUse.inline_eq, QueryUse.inline_eq, hfragment u hu]

/-- Queries that differ in operators whose steps lead to the same. -/
theorem AlikeFor.of_sequences {q : Query} {kind : StatementKind} {ops ops' : List QueryOperator}
    (h : q.compile kind >>= Step.sequence (ops.map (QueryOperator.step ⟨q.table.mapping, kind⟩)) =
      q.compile kind >>= Step.sequence (ops'.map (QueryOperator.step ⟨q.table.mapping, kind⟩))) :
    AlikeFor kind (q.extend ops) (q.extend ops') := by
  refine .of_parts rfl ?_
  rw [compile_extend, compile_extend, h]

end Query

/-! ## Steps of conditions -/

/-- The predicate that an operator adds to some conditions. -/
def QueryOperator.condition? : QueryOperator → Option (ConditionTarget × Expr)
  | .filter e => some (.rows, e)
  | .updateIf e | .deleteIf e => some (.change, e)
  | _ => none

namespace Context

variable {c : Context} {s : Scope} {t : ConditionTarget} {e p r : Expr}

/-- A predicate is visited in its own right, given as a lambda or not. -/
theorem step_asLambda (hs : s.phase ≠ .select) : c.step e.asLambda s = c.step e s := by
  cases e with
  | lambda body => rfl
  | _ =>
      show c.step _ (bodyScope s) = _
      rw [bodyScope_eq hs]

theorem step_predicate {op : QueryOperator} (h : op.condition? = some (t, e)) :
    op.step c = (Step.openCondition t >=> c.step e (Scope.condition {} t)) := by
  have hstep : op.step c =
      (Step.openCondition t >=> c.step e.asLambda (Scope.condition {} t)) := by
    cases op with
    | filter e' | updateIf e' | deleteIf e' =>
        obtain ⟨rfl, rfl⟩ := Prod.mk.inj (Option.some.inj h)
        rfl
    | _ => exact nomatch h
  rw [hstep, step_asLambda (s := Scope.condition {} t) nofun]

/-- A conjunction writes ` AND ` between its sides, whether the first of them shows or not. -/
theorem step_conjunction {op : BinaryOp} (hop : op = .and ∨ op = .andAlso) :
    c.step (.binary op p r) (Scope.condition {} t) =
      (c.step p (Scope.condition {} t) >=>
        Step.modify (·.addCondition t [.verbatim " AND "]) >=>
          c.step r (Scope.condition {} t)) := by
  rw [step_and rfl hop]
  rfl

end Context

namespace Step

/-- Where something is there already, the next condition is joined to it. -/
theorem openCondition_of_written {t : ConditionTarget} {p : Parts} {mode : BindMode}
    (h : (p.conditions t).text mode ≠ "") :
    openCondition t p = modify (·.addCondition t [.verbatim " AND "]) p := by
  have hblank : (p.conditions t).isBlank = false := by
    rw [Fragment.isBlank_eq_isEmpty mode]
    exact String.isEmpty_eq_false_iff.mpr h
  show Traced.pure (if (p.conditions t).isBlank then p else p.addCondition t _) = _
  rw [hblank]
  rfl

end Step

/-! ## Chains of conditions -/

namespace Query

open QueryOperator Context

variable {q : Query} {kind : StatementKind} {after : List QueryOperator}

/-- Two operators in a row add what one of them adds for a conjunction, if the first has written
something or has failed. -/
theorem conjunction_alike {t : ConditionTarget} {p r : Expr} {op : BinaryOp}
    (hop : op = .and ∨ op = .andAlso) {first second both : QueryOperator}
    (hfirst : first.condition? = some (t, p)) (hsecond : second.condition? = some (t, r))
    (hboth : both.condition? = some (t, .binary op p r)) {mode : BindMode}
    (hwritten : ∀ parts, ((q.extend [first]).compile kind).outcome = .ok parts →
      (parts.conditions t).text mode ≠ "") :
    AlikeFor kind (q.extend (first :: second :: after)) (q.extend (both :: after)) := by
  let c : Context := ⟨q.table.mapping, kind⟩
  let rest : Step := Step.sequence (after.map (QueryOperator.step c))
  let join : Step := Step.modify (·.addCondition t [.verbatim " AND "])
  let right : Step := c.step r (Scope.condition {} t)
  have hstart : (q.extend [first]).compile kind = q.compile kind >>= first.step c := by
    rw [compile_extend]
    exact congrArg (q.compile kind >>= ·) (fish_pure _)
  have hconjunction : (both.step c >=> rest) = (first.step c >=> join >=> right >=> rest) := by
    rw [step_predicate hboth, step_predicate hfirst, step_conjunction hop]
    simp only [fish_assoc]
    rfl
  refine .of_sequences ?_
  calc q.compile kind >>= (first.step c >=> second.step c >=> rest)
      = (q.extend [first]).compile kind >>= (second.step c >=> rest) := by
        rw [hstart, Traced.bind_assoc]
        rfl
    _ = (q.extend [first]).compile kind >>= (join >=> right >=> rest) := by
        -- Only the parts that the first condition leaves matter, and there it shows.
        refine Traced.bind_congr fun parts hparts => ?_
        rw [step_predicate hsecond, fish_assoc]
        show Step.openCondition t parts >>= (right >=> rest) = join parts >>= (right >=> rest)
        rw [Step.openCondition_of_written (hwritten parts hparts)]
    _ = q.compile kind >>= (both.step c >=> rest) := by
        rw [hstart, Traced.bind_assoc, hconjunction]
        rfl

/-- A chain is cut to the first row that a predicate holds for as it is after a filter. -/
theorem cut_alike {cut : Option Expr → QueryOperator} (hcut : cut = .first ∨ cut = .firstOrDefault)
    (p : Expr) :
    AlikeFor kind (q.extend (cut (some p) :: after))
      (q.extend (.filter p :: cut none :: after)) := by
  let c : Context := ⟨q.table.mapping, kind⟩
  let rest : Step := Step.sequence (after.map (QueryOperator.step c))
  let limit : Step := Step.modify fun parts => { parts with limit := some 1 }
  have hsome : (cut (some p)).step c = (QueryOperator.step c (.filter p) >=> limit) := by
    rcases hcut with rfl | rfl <;> rfl
  have hnone : (cut none).step c = (pure >=> limit) := by
    rcases hcut with rfl | rfl <;> rfl
  refine .of_sequences (congrArg (q.compile kind >>= ·) ?_)
  show ((cut (some p)).step c >=> rest) =
    (QueryOperator.step c (.filter p) >=> (cut none).step c >=> rest)
  rw [hsome, hnone, fish_assoc, fish_pipe]

/-- **Conditions join.** Take any query, and two operators that add the predicates `p` and `r` to
the same conditions: filters, or conditions of a change. Where the first of them leaves conditions
that show, or fails, the two are like one operator for the conjunction of `p` and `r`, in either of
its forms, whatever follows. And cutting the query to the first row that `p` holds for is always
like filtering by `p` and then cutting it to the first row. -/
theorem conditions_join (q : Query) (kind : StatementKind) (p r : Expr)
    (after : List QueryOperator) :
    (∀ (t : ConditionTarget) (op : BinaryOp) (first second both : QueryOperator) (mode : BindMode),
      op = .and ∨ op = .andAlso → first.condition? = some (t, p) →
        second.condition? = some (t, r) → both.condition? = some (t, .binary op p r) →
          (∀ parts, ((q.extend [first]).compile kind).outcome = .ok parts →
            (parts.conditions t).text mode ≠ "") →
          AlikeFor kind (q.extend (first :: second :: after)) (q.extend (both :: after))) ∧
      AlikeFor kind (q.extend (.first (some p) :: after))
        (q.extend (.filter p :: .first none :: after)) ∧
      AlikeFor kind (q.extend (.firstOrDefault (some p) :: after))
        (q.extend (.filter p :: .firstOrDefault none :: after)) := by
  refine ⟨?_, cut_alike (.inl rfl) p, cut_alike (.inr rfl) p⟩
  intro t op first second both mode hop hfirst hsecond hboth hwritten
  exact conjunction_alike hop hfirst hsecond hboth hwritten

/-- People who are active and verified become someone else: the update is under two conditions, the
second of them given as for a deletion, with a conversion and a lambda around it. -/
def renamedPerson : Query :=
  .ofOperators { mapping := people }
    [Change.firstPerson, .select (.record [("name", .constant (.text "Ada"))])]

def isActive : Expr := .unary .convert (.binary .eq (.column "active") (.constant (.boolean true)))

def isVerified : Expr := .lambda (.column "verified")

theorem conditions_join_renamedPerson :
    (∀ parts, ((renamedPerson.extend [.updateIf isActive]).compile .update).outcome = .ok parts →
      (parts.conditions .change).text .placeholder ≠ "") ∧
    ((QueryUse.update {}).command
      (renamedPerson.extend [.updateIf isActive, .deleteIf isVerified])).inline.outcome =
        .ok "UPDATE Person SET name = 'Ada' WHERE id = 1 IF active = true AND verified" ∧
    ((QueryUse.update {}).command
      (renamedPerson.extend [.updateIf (.binary .andAlso isActive isVerified)])).inline.outcome =
        .ok "UPDATE Person SET name = 'Ada' WHERE id = 1 IF active = true AND verified" := by
  have hwritten : ∀ parts,
      ((renamedPerson.extend [.updateIf isActive]).compile .update).outcome = .ok parts →
        (parts.conditions .change).text .placeholder ≠ "" := by
    intro parts hparts
    have htext : (parts.conditions .change).text .placeholder = "active = ?" := by
      rw [← Except.ok.inj hparts]
      rfl
    rw [htext]
    decide
  have halike := (conditions_join renamedPerson .update isActive isVerified []).1 .change .andAlso
    (.updateIf isActive) (.deleteIf isVerified) (.updateIf (.binary .andAlso isActive isVerified))
    .placeholder (.inr rfl) rfl rfl rfl hwritten
  have hinline : ((QueryUse.update {}).command
      (renamedPerson.extend [.updateIf isActive, .deleteIf isVerified])).inline.outcome =
        .ok "UPDATE Person SET name = 'Ada' WHERE id = 1 IF active = true AND verified" := rfl
  refine ⟨hwritten, hinline, ?_⟩
  rw [← halike.inline (.update {}) rfl]
  exact hinline

/-- A condition that does not show keeps the two apart: the table itself is no predicate, and only
the conjunction puts an ` AND ` after it. -/
example :
    (QueryUse.select.command (Query.extend { table := { mapping := people } }
      [.filter .root, Change.firstPerson])).inline.outcome =
        .ok "SELECT id, name, active, verified FROM Person WHERE id = 1" ∧
    (QueryUse.select.command (Query.extend { table := { mapping := people } }
      [.filter (.binary .and .root
        (.binary .eq (.column "id") (.constant (.int 1))))])).inline.outcome =
        .ok "SELECT id, name, active, verified FROM Person WHERE  AND id = 1" :=
  ⟨rfl, rfl⟩

end Query

end TypedCql
