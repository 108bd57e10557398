import TypedCql.Proofs.Comparison
import TypedCql.Proofs.Conversions

/-!
# Visits side by side

One lemma for each step of the compiler, from the binding of a value to a whole call, saying that
the two visits of a `Comparison` stay side by side in it; `step_tracks` puts them together. The
first expression of two is always the one without the conversions, and `Paired` relates the operands
of its nodes to those of the nodes of the second.

The visits part in two cases only, and then one of them fails: the kind of the statement decides
whether there may be assignments and aggregates, and a conversion around the row hides a column.
-/

namespace TypedCql

namespace Comparison

variable {k : Comparison} {st : Step}

/-! ## Values -/

/-- What depends on the kind of the statement: whether it can assign. -/
theorem assignment_agrees (member : String) (v : Value) (kind : AssignmentKind) :
    k.Agrees Eq (k.context.assignment member v kind) (k.context'.assignment member v kind) := by
  by_cases hkind : k.kind = k.kind'
  · rw [context'_eq hkind]
    exact .of_eq _
  · refine .of_either hkind (.inl hkind) fun a b ha hb => ?_
    obtain ⟨-, col, kind', hcol, hchecked, -, rfl⟩ := Context.assignment_eq_ok ha
    obtain ⟨-, col', kind'', hcol', hchecked', -, rfl⟩ := Context.assignment_eq_ok hb
    obtain rfl : col = col' := Option.some.inj (hcol.symm.trans hcol')
    obtain rfl : kind' = kind'' := Except.ok.inj (hchecked.symm.trans hchecked')
    rfl

/-- Messages do not show conversions. -/
theorem unsupported_eq {node node' : Expr} (h : node.Wraps k.rows node') (s : Scope) :
    Step.unsupported node' s = Step.unsupported node s := by
  rw [Step.unsupported, Step.unsupported, h.text_eq]

theorem unsupported_tracks {node node' : Expr} (h : node.Wraps k.rows node') (s : Scope) :
    k.Tracks (Step.unsupported node s) (Step.unsupported node' s) := by
  rw [unsupported_eq h s]
  exact tracks_fail _

section Place

variable {s : Scope} (hs : ∀ i ∈ s.footprint, k.clauses i)
include hs

theorem writeFragment_tracks (hphase : s.phase = .condition) (f : Fragment) :
    k.Tracks (Step.writeFragment s f) (Step.writeFragment s f) :=
  tracks_modify (Clause.alone_addCondition s.target f) (hs _ (by simp [Scope.footprint, hphase]))

theorem fields_tracks (hphase : s.phase = .binding) (new : List Field) :
    k.Tracks (Step.modify fun p => { p with fields := p.fields ++ new })
      (Step.modify fun p => { p with fields := p.fields ++ new }) :=
  tracks_modify (Clause.alone_fields (· ++ new)) (hs _ (by simp [Scope.footprint, hphase]))

theorem orderBy_tracks (hphase : s.phase = .orderBy ∨ s.phase = .orderByDescending)
    (new : List OrderKey) :
    k.Tracks (Step.modify fun p => { p with orderBy := p.orderBy ++ new })
      (Step.modify fun p => { p with orderBy := p.orderBy ++ new }) :=
  tracks_modify (Clause.alone_orderBy new)
    (hs _ (by rcases hphase with h | h <;> simp [Scope.footprint, h]))

theorem assign_tracks (hphase : s.phase = .binding) (member : String) (v : Value)
    (kind : AssignmentKind) :
    k.Tracks (k.context.assign member v kind) (k.context'.assign member v kind) := by
  refine tracks_given (assignment_agrees member v kind) fun a b hab => ?_
  subst hab
  exact tracks_modify (Clause.alone_assignments [a]) (hs _ (by simp [Scope.footprint, hphase]))

theorem bindValue_tracks {node node' : Expr} (hnode : node.Wraps k.rows node') (v : Value) :
    k.Tracks (k.context.bindValue v node s) (k.context'.bindValue v node' s) := by
  unfold Context.bindValue
  rw [unsupported_eq hnode s]
  -- A condition, a limit, keys of either order, an assignment; elsewhere a value means nothing.
  split
  · next hphase => exact writeFragment_tracks hs hphase _
  · next hphase =>
      exact tracks_given_same fun n =>
        tracks_modify (Clause.alone_limit n) (hs _ (by simp [Scope.footprint, hphase]))
  · next hphase =>
      split
      · exact orderBy_tracks hs (.inl hphase) _
      · exact tracks_fail _
  · next hphase =>
      split
      · exact orderBy_tracks hs (.inr hphase) _
      · exact tracks_fail _
  · next hphase =>
      split
      · exact assign_tracks hs hphase _ v _
      · exact tracks_fail _
  · exact tracks_fail _

theorem fold_tracks {node node' : Expr} (hnode : node.Wraps k.rows node') :
    k.Tracks (k.context.fold node s) (k.context'.fold node' s) := by
  unfold Context.fold
  rw [hnode.usesRow_eq, hnode.evaluate_eq]
  split
  · exact unsupported_tracks hnode s
  · exact tracks_given_same fun v => bindValue_tracks hs hnode v

end Place

/-- An expression that uses the row cannot be evaluated. -/
theorem evaluated_fails {e : Expr} (h : e.usesRow = true) (f : Value → Step) (p : Parts) :
    ∃ err, (Step.given e.evaluate f p).outcome = .error err := by
  show ∃ err, (Traced.ofOutcome e.evaluate >>= _).outcome = _
  rw [Traced.outcome_bind, Traced.outcome_ofOutcome]
  cases hv : e.evaluate with
  | ok v => exact absurd hv (Expr.not_evaluates_of_usesRow h v)
  | error err => exact ⟨err, rfl⟩

/-- A node that uses the row has no value that could be put in its place. -/
theorem fold_fails {c : Context} {node : Expr} {s : Scope} (h : node.usesRow = true) (p : Parts) :
    ∃ err, (c.fold node s p).outcome = .error err := by
  unfold Context.fold
  split
  · exact ⟨_, rfl⟩
  · exact evaluated_fails h _ p

/-- Where a column is hidden, the second visit looks for a value and finds none. -/
theorem fold_tracks_of_hidden {node node' : Expr} {s : Scope} (hnode : node.Wraps k.rows node')
    (hrows : k.rows = true) (hrow : node.usesRow = true) :
    k.Tracks st (k.context'.fold node' s) :=
  tracks_of_fails (.inr hrows) fun p => fold_fails (hnode.usesRow_eq.trans hrow) p

theorem memberStep_eq_fold {c : Context} {node : Expr} (h : node.rowMember? = none) (name : String)
    (s : Scope) : c.memberStep name node s = c.fold node s := by
  unfold Context.memberStep
  rw [h]
  rfl

theorem memberStep_tracks {s : Scope} (hs : ∀ i ∈ s.footprint, k.clauses i) (name : String)
    {target target' : Expr}
    (h : (Expr.member target name).Wraps k.rows (.member target' name)) :
    k.Tracks (k.context.memberStep name (.member target name) s)
      (k.context'.memberStep name (.member target' name) s) := by
  rcases h.rowMember?_eq with hcolumn | ⟨hrows, hrow, hcolumn⟩
  · have hrow : (Expr.member target' name).rowMember? = (Expr.member target name).rowMember? :=
      hcolumn
    unfold Context.memberStep
    rw [hrow, unsupported_eq h s]
    split
    · exact fold_tracks hs h
    · -- A condition, a projection, keys of either order, a grouping.
      split
      · next hphase => exact tracks_given_same fun col => writeFragment_tracks hs hphase _
      · next hphase =>
          have hmapping : k.context'.mapping = k.context.mapping := rfl
          rw [hmapping]
          cases k.context.mapping.column? name with
          | some col => exact fields_tracks hs hphase _
          | none => exact tracks_pure
      · next hphase => exact tracks_given_same fun col => orderBy_tracks hs (.inl hphase) _
      · next hphase => exact tracks_given_same fun col => orderBy_tracks hs (.inr hphase) _
      · next hphase =>
          exact tracks_given_same fun col =>
            tracks_modify (Clause.alone_groupBy _) (hs _ (by simp [Scope.footprint, hphase]))
      · exact tracks_fail _
  · have hnone : (Expr.member target' name).rowMember? = none := hcolumn
    rw [memberStep_eq_fold hnone]
    exact fold_tracks_of_hidden h hrows hrow

/-! ## Operators -/

/-- Operands of two nodes at the same place, `e` being the first of the nodes. -/
structure Paired (k : Comparison) (e : Expr) (o o' : Operand) : Prop where
  mem : o.expr ∈ e.operands
  wraps : o.expr.Wraps k.rows o'.expr
  tracks : ∀ {s : Scope}, Within k.clauses o.expr s → k.Tracks (o.step s) (o'.step s)

section Nodes

variable {s : Scope} {node node' : Expr} (hw : Within k.clauses node s)
  (hnode : node.Wraps k.rows node')
include hw

theorem Paired.step {o o' : Operand} (h : k.Paired node o o') (comparison : Option BinaryOp) :
    k.Tracks (o.step { s with comparison := comparison })
      (o'.step { s with comparison := comparison }) :=
  h.tracks (hw.operand h.mem comparison)

/-- An operand that is evaluated and assigned. -/
theorem assignOperand_tracks (hphase : s.phase = .binding) {e e' : Expr} (h : e.Wraps k.rows e')
    (member : String) (kind : AssignmentKind) :
    k.Tracks (Step.given e.evaluate fun v => k.context.assign member v kind)
      (Step.given e'.evaluate fun v => k.context'.assign member v kind) := by
  rw [h.evaluate_eq]
  exact tracks_given_same fun v => assign_tracks hw.place hphase member v kind

omit hw in
/-- Either context has the same counters. -/
theorem counterMember?_eq (s : Scope) : k.context'.counterMember? s = k.context.counterMember? s :=
  rfl

include hnode

theorem unaryStep_tracks (op : UnaryOp) {e e' : Operand} (h : k.Paired node e e') :
    k.Tracks (k.context.unaryStep op e node s) (k.context'.unaryStep op e' node' s) := by
  have hfold : k.Tracks (k.context.fold node s) (k.context'.fold node' s) :=
    fold_tracks hw.place hnode
  unfold Context.unaryStep
  rw [hnode.usesRow_eq, counterMember?_eq]
  -- A conversion, a negation in a condition, and the two signs, which can count.
  split
  · exact h.step hw s.comparison
  · next hphase =>
      split
      · exact tracks_seq (writeFragment_tracks hw.place hphase _)
          (tracks_seq (h.step hw none) (writeFragment_tracks hw.place hphase _))
      · exact hfold
  · next hphase =>
      split
      · exact assignOperand_tracks hw hphase h.wraps _ _
      · exact hfold
  · next hphase =>
      split
      · exact assignOperand_tracks hw hphase h.wraps _ _
      · exact hfold
  · exact hfold

section Binary

variable (op : BinaryOp) {l l' r r' : Operand} (hl : k.Paired node l l') (hr : k.Paired node r r')
include hl hr

omit hnode in
theorem relation_tracks (hphase : s.phase = .condition) (tag : String) :
    k.Tracks (Context.relation tag l r s) (Context.relation tag l' r' s) :=
  tracks_seq (hl.step hw none)
    (tracks_seq (writeFragment_tracks hw.place hphase _) (hr.step hw none))

omit hw hl hr in
theorem expectZero_eq {e e' : Expr} (h : e.Wraps k.rows e') (s : Scope) :
    Context.expectZero e' node' s = Context.expectZero e node s := by
  unfold Context.expectZero
  rw [h.evaluate_eq, hnode.text_eq]

theorem conditionBinary_tracks (hphase : s.phase = .condition) :
    k.Tracks (k.context.conditionBinary op l r node s)
      (k.context'.conditionBinary op l' r' node' s) := by
  unfold Context.conditionBinary
  rw [hnode.usesRow_eq, unsupported_eq hnode s, hl.wraps.isThreeWay_eq, hr.wraps.isThreeWay_eq,
    expectZero_eq hnode hl.wraps s, expectZero_eq hnode hr.wraps s]
  split
  · split
    · exact tracks_fail _
    · exact fold_tracks hw.place hnode
  · split
    · exact relation_tracks hw hl hr hphase _
    · split
      · exact tracks_given_same fun _ => hl.step hw _
      · split
        · exact tracks_given_same fun _ => hr.step hw _
        · exact relation_tracks hw hl hr hphase _

theorem bindingBinary_tracks (hphase : s.phase = .binding) :
    k.Tracks (k.context.bindingBinary op l r node s)
      (k.context'.bindingBinary op l' r' node' s) := by
  have hfold : k.Tracks (k.context.fold node s) (k.context'.fold node' s) :=
    fold_tracks hw.place hnode
  unfold Context.bindingBinary
  rw [counterMember?_eq]
  split
  · next member kind _ _ =>
      rcases hl.wraps.rowMember?_eq with hcolumn | ⟨hrows, hrow, hcolumn⟩
      · rw [hcolumn]
        split
        · exact assignOperand_tracks hw hphase hr.wraps _ _
        · exact hfold
      · rw [hcolumn, if_neg (Option.some_ne_none member).symm]
        exact fold_tracks_of_hidden hnode hrows
          (Expr.usesRow_of_subset (Expr.subset_of_operand hl.mem) hrow)
  · exact hfold

theorem binaryStep_tracks :
    k.Tracks (k.context.binaryStep op l r node s) (k.context'.binaryStep op l' r' node' s) := by
  unfold Context.binaryStep
  split
  · next hphase => exact conditionBinary_tracks hw hnode op hl hr hphase
  · next hphase => exact bindingBinary_tracks hw hnode op hl hr hphase
  · exact fold_tracks hw.place hnode

end Binary

/-! ## Calls -/

section Calls

variable {os os' : List Operand} (h : List.Forall₂ (k.Paired node) os os')

omit hw hnode in
/-- The calls have the same operands, as far as they have any. -/
theorem operands_paired {os os' : List Operand} (h : List.Forall₂ (k.Paired node) os os')
    (i : Nat) :
    Option.Rel (k.Paired node) os[i]? os'[i]? := by
  induction h generalizing i with
  | nil => exact .none
  | cons h _ ih =>
      cases i with
      | zero => exact .some h
      | succ i => exact ih i

include h
omit hnode

omit hw in
theorem operand_agrees (method : Method) (i : Nat) :
    k.Agrees (k.Paired node) (Context.operand method os i) (Context.operand method os' i) := by
  unfold Context.operand
  have hi := operands_paired h i
  rw [← h.length_eq]
  generalize os[i]? = o, os'[i]? = o' at hi ⊢
  cases hi with
  | none => exact .error _
  | some hpaired => exact .ok hpaired

theorem operandStep_tracks (method : Method) (i : Nat) (comparison : Option BinaryOp) :
    k.Tracks (Context.operandStep method os i { s with comparison := comparison })
      (Context.operandStep method os' i { s with comparison := comparison }) :=
  tracks_given (operand_agrees h method i) fun _ _ hpaired => hpaired.step hw comparison

theorem containsStep_tracks (hphase : s.phase = .condition) :
    k.Tracks (Context.containsStep os s) (Context.containsStep os' s) := by
  refine tracks_given (operand_agrees h .contains 0) fun collection collection' hcol => ?_
  refine tracks_given (operand_agrees h .contains 1) fun item item' hitem => ?_
  rcases hcol.wraps.rowMember?_eq with hcolumn | ⟨hrows, hrow, hcolumn⟩
  · rw [hcolumn, hcol.wraps.evaluate_eq]
    split
    · exact tracks_seq (hcol.step hw none)
        (tracks_seq (writeFragment_tracks hw.place hphase _) (hitem.step hw none))
    · refine tracks_given_same fun v => ?_
      split
      · exact tracks_fail _
      · exact tracks_seq (hitem.step hw none) (writeFragment_tracks hw.place hphase _)
  · rw [hcolumn]
    exact tracks_of_fails (.inr hrows) (evaluated_fails (hcol.wraps.usesRow_eq.trans hrow) _)

include hnode

omit hw h in
/-- A call on a hidden column is taken for a call on a value of the program. -/
theorem fold_tracks_of_operand {o o' : Operand} (ho : k.Paired node o o') (hrows : k.rows = true)
    (hrow : o.expr.usesRow = true) : k.Tracks st (k.context'.fold node' s) :=
  fold_tracks_of_hidden hnode hrows
    (Expr.usesRow_of_subset (Expr.subset_of_operand ho.mem) hrow)

theorem containsKeyStep_tracks (hphase : s.phase = .condition) :
    k.Tracks (k.context.containsKeyStep os node s) (k.context'.containsKeyStep os' node' s) := by
  refine tracks_given (operand_agrees h .containsKey 0) fun entries entries' hentries => ?_
  rcases hentries.wraps.rowMember?_eq with hcolumn | ⟨hrows, hrow, hcolumn⟩
  · rw [hcolumn]
    split
    · exact tracks_seq (hentries.step hw none)
        (tracks_seq (writeFragment_tracks hw.place hphase _)
          (operandStep_tracks hw h .containsKey 1 none))
    · exact fold_tracks hw.place hnode
  · rw [hcolumn]
    exact fold_tracks_of_operand hnode hentries hrows hrow

theorem startsWithStep_tracks (hphase : s.phase = .condition) :
    k.Tracks (k.context.startsWithStep os node s) (k.context'.startsWithStep os' node' s) := by
  refine tracks_given (operand_agrees h .startsWith 0) fun subject subject' hsubject => ?_
  rcases hsubject.wraps.rowMember?_eq with hcolumn | ⟨hrows, hrow, hcolumn⟩
  · rw [hcolumn]
    split
    · exact fold_tracks hw.place hnode
    · refine tracks_given (operand_agrees h .startsWith 1) fun start start' hstart => ?_
      rw [hstart.wraps.evaluate_eq]
      refine tracks_given_same fun v => ?_
      split
      · exact tracks_given_same fun col => writeFragment_tracks hw.place hphase _
      · exact tracks_fail _
  · rw [hcolumn]
    exact fold_tracks_of_operand hnode hsubject hrows hrow

theorem conditionCall_tracks (hphase : s.phase = .condition) (method : Method) :
    k.Tracks (k.context.conditionCall method os node s)
      (k.context'.conditionCall method os' node' s) := by
  have write (text : String) : k.Tracks (Step.write s text) (Step.write s text) :=
    writeFragment_tracks hw.place hphase _
  unfold Context.conditionCall
  split
  · exact containsStep_tracks hw h hphase
  · exact containsKeyStep_tracks hw hnode h hphase
  · exact startsWithStep_tracks hw hnode h hphase
  · split
    · exact fold_tracks hw.place hnode
    · exact tracks_seq (operandStep_tracks hw h _ 0 none)
        (tracks_seq (write _) (operandStep_tracks hw h _ 1 none))
  · exact tracks_seq (operandStep_tracks hw h _ 0 none)
      (tracks_seq (write _) (operandStep_tracks hw h _ 1 none))
  · -- A token lists the columns it is made of.
    refine tracks_seq (write _) (tracks_seq (tracks_separated (write _) ?_) (write _))
    rw [List.forall₂_map_left_iff, List.forall₂_map_right_iff]
    exact h.imp fun o o' ho => ho.step hw none
  · exact tracks_seq (write _) (tracks_seq (operandStep_tracks hw h _ 0 none) (write _))
  · exact tracks_seq (write _) (tracks_seq (operandStep_tracks hw h _ 0 none) (write _))
  · exact fold_tracks hw.place hnode

theorem bindingCall_tracks (hphase : s.phase = .binding) (method : Method) :
    k.Tracks (k.context.bindingCall method os node s)
      (k.context'.bindingCall method os' node' s) := by
  unfold Context.bindingCall
  rw [unsupported_eq hnode s]
  split
  · exact fold_tracks hw.place hnode
  · split
    · exact tracks_fail _
    · exact tracks_given (operand_agrees h method 0) fun _ _ ho =>
        assignOperand_tracks hw hphase ho.wraps _ _

omit hw hnode h in
/-- Only a selection has aggregates. -/
theorem kind_of_aggregate {c : Context} {method : Method} {function : String} {p q : Parts}
    (h : (c.aggregateStep method function os node s p).outcome = .ok q) : c.kind = .select := by
  unfold Context.aggregateStep at h
  split at h
  · next hplace => exact hplace.2
  · exact nomatch h

omit hw hnode h in
/-- The fields before and after the selector are the same, so for both visits it has contributed the
one field, or for neither. -/
theorem aggregated_tracks (hprojection : k.clauses .projection) {selector selector' : Step}
    (hselector : k.Tracks selector selector') (function : String) (err : Error) :
    k.Tracks
      (fun p => do
        let q ← selector p
        match Context.aggregated p.fields.length function q.fields with
        | some fields => return { q with fields := fields }
        | none => Traced.fail err)
      (fun p => do
        let q ← selector' p
        match Context.aggregated p.fields.length function q.fields with
        | some fields => return { q with fields := fields }
        | none => Traced.fail err) := by
  intro p p' hp
  rw [Traced.outcome_bind, Traced.outcome_bind]
  refine (hselector p p' hp).bind fun q q' hq => ?_
  have hbefore : p.fields = p'.fields := (Prod.mk.inj (hp .projection hprojection)).1
  have hafter : q.fields = q'.fields := (Prod.mk.inj (hq.agree .projection hprojection)).1
  rw [hbefore, hafter]
  split
  · next fields _ => exact .ok (hq.modify (Clause.alone_fields fun _ => fields) hprojection)
  · exact .error err

theorem aggregateStep_tracks (method : Method) (function : String) :
    k.Tracks (k.context.aggregateStep method function os node s)
      (k.context'.aggregateStep method function os' node' s) := by
  by_cases hkind : k.kind = k.kind'
  · rw [context'_eq hkind]
    unfold Context.aggregateStep
    rw [unsupported_eq hnode s]
    split
    · next hplace =>
        have hprojection : k.clauses .projection := hw.place _ (by simp [Scope.footprint, hplace.1])
        have hselector := operands_paired h 1
        generalize os[1]? = selector, os'[1]? = selector' at hselector ⊢
        cases hselector with
        | none =>
            dsimp only
            split
            · exact fields_tracks hw.place hplace.1 _
            · exact tracks_fail _
        | @some selector selector' hpaired =>
            have hscope : (s.enter .binding).footprint = s.footprint := by
              simp only [Scope.footprint, hplace.1]
              rfl
            have hinner : Within k.clauses selector.expr (s.enter .binding) :=
              hw.part (Expr.subset_of_operand hpaired.mem) hscope
            exact aggregated_tracks hprojection (hpaired.tracks hinner) function _
    · exact tracks_fail _
  · -- For one of two kinds the aggregate fails.
    intro p p' _
    refine .of_either hkind (.inl hkind) fun q q' hq hq' => ?_
    exact absurd ((kind_of_aggregate hq).trans (kind_of_aggregate hq').symm) hkind

end Calls

end Nodes

section Methods

variable {method : Method} {args args' : List Expr} {os os' : List Operand}
  (h : List.Forall₂ (k.Paired (.call method args)) os os')
include h

/-- An operator leads to places of all clauses, and all are agreed on. -/
theorem operatorStep_tracks (hall : ∀ i, k.clauses i) (called : Method) (i : Nat) (s : Scope) :
    k.Tracks (Context.operandStep called os i s) (Context.operandStep called os' i s) :=
  tracks_given (operand_agrees h called i) fun _ _ hpaired =>
    hpaired.tracks (.of_all hall _ _)

theorem predicateStep_tracks (hall : ∀ i, k.clauses i) (called : Method) (t : ConditionTarget)
    (s : Scope) :
    k.Tracks (Context.predicateStep called os t s) (Context.predicateStep called os' t s) :=
  tracks_seq (tracks_modify (Clause.alone_openCondition t) (hall _))
    (operatorStep_tracks h hall called 1 _)

theorem firstStep_tracks (hall : ∀ i, k.clauses i) (called : Method) (s : Scope) :
    k.Tracks (Context.firstStep called os s) (Context.firstStep called os' s) := by
  unfold Context.firstStep
  rw [← h.length_eq]
  refine tracks_seq (operatorStep_tracks h hall called 0 s)
    (tracks_seq ?_ (tracks_modify (Clause.alone_limit 1) (hall _)))
  split
  · exact predicateStep_tracks h hall called .rows s
  · exact tracks_pure

theorem callStep_tracks {s : Scope} (hw : Within k.clauses (.call method args) s)
    (hnode : (Expr.call method args).Wraps k.rows (.call method args')) :
    k.Tracks (k.context.callStep method os (.call method args) s)
      (k.context'.callStep method os' (.call method args') s) := by
  cases hoperator : method.isOperator with
  | true =>
      have hall : ∀ i, k.clauses i := hw.operators (Expr.hasOperator_call hoperator args)
      have chain (i : Nat) (s : Scope) :
          k.Tracks (Context.operandStep method os i s) (Context.operandStep method os' i s) :=
        operatorStep_tracks h hall method i s
      cases method with
      | filter | updateIf | deleteIf =>
          exact tracks_seq (chain 0 s) (predicateStep_tracks h hall _ _ s)
      | select | take | orderBy | thenBy | orderByDescending | thenByDescending | groupBy =>
          exact tracks_seq (chain 0 s) (chain 1 _)
      | allowFiltering =>
          exact tracks_seq (chain 0 s) (tracks_modify Clause.alone_filtering (hall _))
      | first | firstOrDefault => exact firstStep_tracks h hall _ s
      | _ => exact absurd hoperator Bool.false_ne_true
  | false =>
      rw [Context.callStep_of_not_isOperator s hoperator,
        Context.callStep_of_not_isOperator s hoperator]
      split
      · exact aggregateStep_tracks hw hnode h method _
      · split
        · next hphase => exact conditionCall_tracks hw hnode h hphase method
        · next hphase => exact bindingCall_tracks hw hnode h hphase method
        · exact unsupported_tracks hnode s

end Methods

/-! ## The walk -/

/-- The key of a group stands for the columns of the grouping, which both visits know. -/
theorem groupKey_tracks {s : Scope} (hw : Within k.clauses .groupKey s) :
    k.Tracks (k.context.step .groupKey s) (k.context'.step .groupKey s) := by
  rw [Context.step, Context.step]
  split
  · next hphase =>
      intro p p' hp
      have hkeys : p'.groupBy.map Field.column = p.groupBy.map Field.column :=
        congrArg (List.map Field.column)
          (hp .grouping (hw.place _ (by simp [Scope.footprint, hphase]))).symm
      refine .ok ?_
      dsimp only
      rw [hkeys]
      exact Follows.modify ⟨hp, .refl p⟩ (Clause.alone_fields (· ++ p.groupBy.map .column))
        (hw.place .projection (by simp [Scope.footprint, hphase]))
  · exact tracks_fail _

/-- An operand of a node, given that visits of it stay side by side. -/
theorem Paired.of_tracks {node e e' : Expr} (hmem : e ∈ node.operands) (h : e.Wraps k.rows e')
    (htracks : ∀ {s : Scope}, Within k.clauses e s →
      k.Tracks (k.context.step e s) (k.context'.step e' s)) :
    k.Paired node ⟨e, k.context.step e⟩ ⟨e', k.context'.step e'⟩ :=
  ⟨hmem, h, htracks⟩

mutual

/-- **Two visits of one expression.** -/
theorem step_tracks : ∀ {e e' : Expr} {s : Scope}, e.Wraps k.rows e' → Within k.clauses e s →
    k.Tracks (k.context.step e s) (k.context'.step e' s)
  | _, _, _, .root, _ => tracks_pure
  | _, _, s, .parameter, _ => by
      rw [Context.step, Context.step]
      split
      · exact tracks_pure
      · exact tracks_fail _
  | _, _, _, .groupKey, hw => groupKey_tracks hw
  | _, _, _, .member name h hrow, hw => memberStep_tracks hw.place name (.member name h hrow)
  | _, _, _, .constant v, hw => bindValue_tracks hw.place (.constant v) v
  | _, _, _, .binary op hl hr, hw =>
      binaryStep_tracks hw (.binary op hl hr) op
        (.of_tracks (List.mem_cons_self ..) hl fun hw => step_tracks hl hw)
        (.of_tracks (List.mem_cons_of_mem _ (List.mem_singleton_self _)) hr
          fun hw => step_tracks hr hw)
  | _, _, _, .unary op h, hw =>
      unaryStep_tracks hw (.unary op h) op
        (.of_tracks (List.mem_singleton_self _) h fun hw => step_tracks h hw)
  | _, _, _, .call method h, hw =>
      callStep_tracks (operands_track h fun _ he => he) hw (.call method h)
  | _, _, _, .lambda h, hw => by
      rw [Context.step, Context.step]
      exact step_tracks h hw.body
  | _, _, s, .record h, hw => by
      rw [Context.step, Context.step]
      split
      · exact tracks_sequence (bindings_track h hw fun _ hb => hb)
      · exact unsupported_tracks (.record h) s
  | _, _, s, .entity h, hw => by
      rw [Context.step, Context.step]
      split
      · exact tracks_sequence (bindings_track h hw fun _ hb => hb)
      · exact unsupported_tracks (.entity h) s
  | e, _, s, @Expr.Wraps.convert _ _ e' h, hw => by
      show k.Tracks (k.context.step e s) (k.context'.step e' s)
      exact step_tracks h hw

theorem operands_track {node : Expr} : ∀ {args args' : List Expr},
    Expr.WrapsAll k.rows args args' → args ⊆ node.operands →
      List.Forall₂ (k.Paired node) (k.context.operands args) (k.context'.operands args')
  | _, _, .nil, _ => .nil
  | _, _, .cons h hrest, hmem =>
      .cons (.of_tracks (hmem (List.mem_cons_self ..)) h fun hw => step_tracks h hw)
        (operands_track hrest fun _ he => hmem (List.mem_cons_of_mem _ he))

theorem bindings_track {node : Expr} {s : Scope} : ∀ {bs bs' : List (String × Expr)},
    Expr.WrapsBindings k.rows bs bs' → Within k.clauses node s → bs ⊆ node.bindings →
      List.Forall₂ k.Tracks (k.context.bindingSteps bs s) (k.context'.bindingSteps bs' s)
  | _, _, .nil, _, _ => .nil
  | _, _, .cons _ h hrest, hw, hmem =>
      .cons (step_tracks h (hw.binding (hmem (List.mem_cons_self ..))))
        (bindings_track hrest hw fun _ hb => hmem (List.mem_cons_of_mem _ hb))

end

/-- Whole expressions are compared on all clauses, that is, on everything that is compiled. -/
theorem compile_agrees (m : Mapping) (kind kind' : StatementKind) {rows : Bool} {e e' : Expr}
    (h : e.Wraps rows e') :
    Outcome.Agrees (kind ≠ kind') (kind ≠ kind' ∨ rows = true) Eq
      (Context.compile ⟨m, kind⟩ e).outcome (Context.compile ⟨m, kind'⟩ e').outcome := by
  let k : Comparison := ⟨m, kind, kind', rows, fun _ => True⟩
  have htracks : k.Tracks (k.context.step e {}) (k.context'.step e' {}) :=
    step_tracks h (.of_all (fun _ => trivial) _ _)
  exact (htracks {} {} (.refl _)).imp fun p p' hp =>
    Parts.eq_of_clauses fun i => hp.agree i trivial

end Comparison

end TypedCql
