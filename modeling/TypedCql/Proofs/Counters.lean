import TypedCql.Proofs.AssignmentKinds
import TypedCql.Proofs.Assignments
import TypedCql.Proofs.Evaluation

/-!
# What counters count by

A statement cannot set a counter, it can only add to it or subtract from it. So the value that an
update binds to a counter stands for a difference, and the compiler reads off the expression which
one: from a value, from a sign before it, or from the counter itself with something added or
subtracted. `Expr.Counts` says by how much an expression counts, by its value where the counter
stood at zero, and `Context.step_counts` that the assignment counts by the same amount. The amounts
are exact, since a negative difference is written as the opposite one subtracted: the least integer
is subtracted as it is, and its opposite, which is no integer of its type, is never needed.
-/

namespace TypedCql

/-! ## Amounts -/

/-- The difference that a number makes when it is combined in some way. -/
def AssignmentKind.amount : AssignmentKind → Int → Int
  | .decrement, n | .remove, n => -n
  | _, n => n

/-- By how much the assignment changes a counter. -/
def Assignment.amount? (a : Assignment) : Option Int :=
  match a.kind with
  | .increment | .decrement => a.value.integer?.map a.kind.amount
  | _ => none

namespace Value

variable {u v : Value} {n : Int}

/-- A result is the exact number, or there is none. -/
theorem integer?_ofInteger {wide : Bool} (h : ofInteger wide n = .ok v) : v.integer? = some n := by
  unfold ofInteger at h
  rw [Int64.toInt_minValue, Int64.toInt_maxValue, Int32.toInt_minValue, Int32.toInt_maxValue] at h
  cases wide with
  | true =>
      rw [if_pos rfl] at h
      split at h
      · next hbounds =>
          rw [← Except.ok.inj h]
          exact congrArg some (Int64.toInt_ofInt_of_le (by omega) (by omega))
      · exact nomatch h
  | false =>
      rw [if_neg Bool.false_ne_true] at h
      split at h
      · next hbounds =>
          rw [← Except.ok.inj h]
          exact congrArg some (Int32.toInt_ofInt_of_le (by omega) (by omega))
      · exact nomatch h

theorem integer?_negate (hu : u.integer? = some n) (h : unary .negate u = .ok v) :
    v.integer? = some (-n) := by
  rcases integer?_isSome_iff.mp (Option.isSome_of_mem hu) with ⟨i, rfl⟩ | ⟨i, rfl⟩
  · rw [← Option.some.inj hu]
    exact integer?_ofInteger h
  · rw [← Option.some.inj hu]
    exact integer?_ofInteger h

theorem number?_of_integer (hu : u.integer? = some n) :
    ∃ i wide, u.number? = some (.integer i wide) ∧ i.toInt = n := by
  rcases integer?_isSome_iff.mp (Option.isSome_of_mem hu) with ⟨i, rfl⟩ | ⟨i, rfl⟩
  · exact ⟨i.toInt64, false, rfl, (Int32.toInt_toInt64 i).trans (Option.some.inj hu)⟩
  · exact ⟨i, true, rfl, Option.some.inj hu⟩

theorem calculate_of_numbers {op : BinaryOp} {x y : Number} (hu : u.number? = some x)
    (hv : v.number? = some y) : calculate op u v = arithmetic op x y := by
  unfold calculate
  split
  · exact nomatch hu
  · rw [hu, hv]

/-- Adding to zero gives the number, subtracting from zero its opposite. -/
theorem integer?_binary_zero {op : BinaryOp} {kind : AssignmentKind}
    (hkind : Context.countingKind? op = some kind) (hu : u.integer? = some n)
    (h : binary op (.bigint 0) u = .ok v) : v.integer? = some (kind.amount n) := by
  obtain ⟨i, wide, hnumber, rfl⟩ := number?_of_integer hu
  have hcalculate : calculate op (.bigint 0) u = integerArithmetic op true 0 i.toInt := by
    have hnumbers : calculate op (.bigint 0) u =
        arithmetic op (.integer 0 true) (.integer i wide) := calculate_of_numbers rfl hnumber
    rw [hnumbers, arithmetic, Int64.toInt_zero, Bool.true_or]
  cases op with
  | add =>
      obtain rfl : AssignmentKind.increment = kind := Option.some.inj hkind
      simp only [binary, hcalculate, integerArithmetic, exactResult?, reduceCtorEq, or_self,
        false_and, if_false, Int.zero_add] at h
      exact integer?_ofInteger h
  | sub =>
      obtain rfl : AssignmentKind.decrement = kind := Option.some.inj hkind
      simp only [binary, hcalculate, integerArithmetic, exactResult?, reduceCtorEq, or_self,
        false_and, if_false, Int.zero_sub] at h
      exact integer?_ofInteger h
  | _ => exact nomatch hkind

end Value

/-! ## Where the counter stood at zero -/

namespace Expr

mutual

/-- The expression with a value in the place of a member of the row. -/
def replacing (name : String) (v : Value) : Expr → Expr
  | .member .parameter n => if n = name then .constant v else .column n
  | .member target n => .member (replacing name v target) n
  | .binary op l r => .binary op (replacing name v l) (replacing name v r)
  | .unary op e => .unary op (replacing name v e)
  | .call method args => .call method (replacingAll name v args)
  | e => e

def replacingAll (name : String) (v : Value) : List Expr → List Expr
  | [] => []
  | e :: rest => replacing name v e :: replacingAll name v rest

end

variable {name : String} {v w : Value}

mutual

/-- Where the row is not used there is nothing to replace. -/
theorem replacing_of_rowless : ∀ {e : Expr}, e.usesRow = false → e.replacing name v = e
  | .member target n, h => by
      have htarget : target.replacing name v = target := replacing_of_rowless (e := target) h
      cases target with
      | parameter => exact nomatch h
      | _ => exact congrArg (Expr.member · n) htarget
  | .binary op l r, h => by
      obtain ⟨hl, hr⟩ := Bool.or_eq_false_iff.mp h
      rw [replacing, replacing_of_rowless hl, replacing_of_rowless hr]
  | .unary op e, h => congrArg (Expr.unary op) (replacing_of_rowless (e := e) h)
  | .call method args, h => congrArg (Expr.call method) (replacingAll_of_rowless h)
  | .root, _ | .parameter, _ | .groupKey, _ | .constant _, _ | .lambda _, _ | .record _, _
  | .entity _, _ => rfl

theorem replacingAll_of_rowless : ∀ {args : List Expr}, anyUsesRow args = false →
    replacingAll name v args = args
  | [], _ => rfl
  | e :: rest, h => by
      obtain ⟨he, hrest⟩ := Bool.or_eq_false_iff.mp h
      rw [replacingAll, replacing_of_rowless he, replacingAll_of_rowless hrest]

end

/-- A value that does not depend on the row stays what it is. -/
theorem evaluate_replacing {e : Expr} (h : e.evaluate = .ok w) :
    (e.replacing name v).evaluate = .ok w := by
  have hrow : e.usesRow = false :=
    Bool.eq_false_iff.mpr fun hrow => not_evaluates_of_usesRow hrow w h
  rw [replacing_of_rowless hrow]
  exact h

/-- The member itself has the value that replaces it. -/
theorem evaluate_replacing_member {e : Expr} (h : e.withoutConvert.rowMember? = some name) :
    (e.replacing name v).evaluate = .ok v := by
  fun_induction withoutConvert e with
  | case1 e ih =>
      show (Expr.unary .convert (e.replacing name v)).evaluate = _
      rw [evaluate_convert]
      exact ih h
  | case2 e =>
      unfold rowMember? at h
      split at h
      · obtain rfl := Option.some.inj h
        rw [replacing, if_pos rfl]
        rfl
      · simp at h

/-- The expression counts the member by `n`: it has this value where the member is zero, or it
appends the number or takes its opposite away. Conversions and lambdas around it are of no account.
-/
inductive Counts (name : String) : Expr → Int → Prop
  | value {e : Expr} {v : Value} {n : Int} (h : (e.replacing name (.bigint 0)).evaluate = .ok v)
      (hv : v.integer? = some n) : Counts name e n
  | append {arg : Expr} {rest : List Expr} {v : Value} {n : Int} (h : arg.evaluate = .ok v)
      (hv : v.integer? = some n) : Counts name (.call .append (arg :: rest)) n
  | subtract {arg : Expr} {rest : List Expr} {v : Value} {n : Int} (h : arg.evaluate = .ok v)
      (hv : v.integer? = some n) : Counts name (.call .subtractAssign (arg :: rest)) (-n)
  | convert {e : Expr} {n : Int} (h : Counts name e n) : Counts name (.unary .convert e) n
  | lambda {e : Expr} {n : Int} (h : Counts name e n) : Counts name (.lambda e) n

theorem Counts.of_convert {e : Expr} {n : Int} (h : Counts name (.unary .convert e) n) :
    Counts name e n := by
  cases h with
  | value h hv =>
      have hconvert : (Expr.unary .convert (e.replacing name (.bigint 0))).evaluate = .ok _ := h
      rw [evaluate_convert] at hconvert
      exact .value hconvert hv
  | convert h => exact h

end Expr

/-! ## One binding -/

/-- Between the two states of the parts the column has been counted by `n`, once. -/
def Mapping.CountsBy (m : Mapping) (col : Column) (n : Int) (p q : Parts) : Prop :=
  ∃ a, q.assignments = p.assignments ++ [a] ∧ a.column = m.identifier col.name ∧
    a.amount? = some n

namespace Context

variable {c : Context} {name : String} {col : Column}

/-- Neither the operators of a query nor what stands for the columns and the aggregates of a
statement can be called by the program. -/
theorem callStep_of_evaluates {s : Scope} {method : Method} {operands : List Operand}
    {node : Expr} {values : List Value} {v : Value} (hphase : s.phase = .binding)
    (h : Value.ofCall method values = .ok v) :
    c.callStep method operands node s = c.fold node s := by
  cases method with
  | host | token | equals | compareTo | startsWith | contains | containsKey =>
      simp only [callStep, Method.aggregate?, hphase, bindingCall, combiningKind?]
  | _ => simp [Value.ofCall] at h

theorem callStep_of_combining {s : Scope} {method : Method} {operands : List Operand} {node : Expr}
    {kind : AssignmentKind} (hphase : s.phase = .binding)
    (h : combiningKind? method = some kind) :
    c.callStep method operands node s = c.bindingCall method operands node s := by
  cases method with
  | append | prepend | subtractAssign => simp only [callStep, Method.aggregate?, hphase]
  | _ => simp [combiningKind?] at h

theorem bindingSteps_append (bs bs' : List (String × Expr)) (s : Scope) :
    c.bindingSteps (bs ++ bs') s = c.bindingSteps bs s ++ c.bindingSteps bs' s := by
  rw [bindingSteps_eq_map, bindingSteps_eq_map, bindingSteps_eq_map, List.map_append]

theorem checkedKind_amount {kind kind' : AssignmentKind} (hcounter : col.counter = true)
    (h : checkedKind col kind = .ok kind') :
    (kind' = .increment ∨ kind' = .decrement) ∧ kind'.amount = kind.amount := by
  unfold checkedKind at h
  rw [if_pos hcounter] at h
  cases kind with
  | assign | increment | append => exact Except.ok.inj h ▸ ⟨.inl rfl, rfl⟩
  | decrement | remove => exact Except.ok.inj h ▸ ⟨.inr rfl, rfl⟩
  | prepend => exact nomatch h

section Nodes

variable {s : Scope} {p q : Parts} {node : Expr} {v : Value} {n : Int}

theorem counterMember?_eq (hcol : c.mapping.column? name = some col)
    (hcounter : col.counter = true) (hmember : s.member = some name) :
    c.counterMember? s = some name := by
  have hmine : c.mapping.isCounter name = true := by
    unfold Mapping.isCounter
    rw [hcol]
    exact hcounter
  unfold counterMember?
  rw [hmember, Option.filter_some, if_pos hmine]

variable (hcol : c.mapping.column? name = some col) (hcounter : col.counter = true)
include hcol hcounter

/-- A counter is assigned whole numbers only, and counts by them. -/
theorem assign_counts {kind : AssignmentKind} (h : (c.assign name v kind).Yields p q) :
    ∃ n, v.integer? = some n ∧ c.mapping.CountsBy col (kind.amount n) p q := by
  obtain ⟨a, ha, hq⟩ := Step.yields_given.mp h
  obtain ⟨-, col', kind', hcol', hkind, hinteger, rfl⟩ := assignment_eq_ok ha
  obtain rfl : col = col' := Option.some.inj (hcol.symm.trans hcol')
  have hsome : v.integer?.isSome = true := by
    simpa [hcounter, Option.isSome_iff_ne_none] using hinteger
  obtain ⟨n, hn⟩ := Option.isSome_iff_exists.mp hsome
  obtain ⟨hcounts, hamount⟩ := checkedKind_amount hcounter hkind
  refine ⟨n, hn, ⟨_, v, kind'⟩, ?_, rfl, ?_⟩
  · exact (congrArg Parts.assignments (Step.yields_modify.mp hq)).symm
  · rw [← hamount]
    rcases hcounts with rfl | rfl
    · exact congrArg (Option.map _) hn
    · exact congrArg (Option.map _) hn

/-- So it is by an operand, where the whole has the value that the operand makes it have. -/
theorem given_counts {o : Outcome Value} {kind : AssignmentKind} (hv : v.integer? = some n)
    (h : (Step.given o fun u => c.assign name u kind).Yields p q)
    (hoperand : ∀ u i, o = .ok u → u.integer? = some i → v.integer? = some (kind.amount i)) :
    c.mapping.CountsBy col n p q := by
  obtain ⟨u, hu, hassign⟩ := Step.yields_given.mp h
  obtain ⟨i, hi, hcounts⟩ := assign_counts hcol hcounter hassign
  obtain rfl : n = kind.amount i := Option.some.inj (hv.symm.trans (hoperand u i hu hi))
  exact hcounts

variable (hphase : s.phase = .binding) (hmember : s.member = some name)
include hphase hmember

theorem bindValue_counts (hv : v.integer? = some n) (h : (c.bindValue v node s).Yields p q) :
    c.mapping.CountsBy col n p q := by
  simp only [bindValue, hphase, hmember] at h
  obtain ⟨n', hn', hcounts⟩ := assign_counts hcol hcounter h
  obtain rfl : n = n' := Option.some.inj (hv.symm.trans hn')
  exact hcounts

/-- What is evaluated as a whole does not depend on the counter. -/
theorem fold_counts (hvalue : (node.replacing name (.bigint 0)).evaluate = .ok v)
    (hv : v.integer? = some n) (h : (c.fold node s).Yields p q) :
    c.mapping.CountsBy col n p q := by
  unfold fold at h
  split at h
  · exact (Step.yields_fail.mp h).elim
  · obtain ⟨u, hu, hbind⟩ := Step.yields_given.mp h
    obtain rfl : u = v := Except.ok.inj ((Expr.evaluate_replacing hu).symm.trans hvalue)
    exact bindValue_counts hcol hcounter hphase hmember hv hbind

theorem binaryStep_counts {op : BinaryOp} {l r : Expr}
    (hvalue : ((Expr.binary op l r).replacing name (.bigint 0)).evaluate = .ok v)
    (hv : v.integer? = some n) (h : (c.step (.binary op l r) s).Yields p q) :
    c.mapping.CountsBy col n p q := by
  have hmine : c.counterMember? s = some name := counterMember?_eq hcol hcounter hmember
  simp only [step, binaryStep, hphase, bindingBinary, hmine] at h
  cases hkind : countingKind? op with
  | none =>
      simp only [hkind] at h
      exact fold_counts hcol hcounter hphase hmember hvalue hv h
  | some kind =>
      simp only [hkind] at h
      split at h
      · next hself =>
          obtain ⟨a, b, ha, hb, hab⟩ := Expr.evaluate_binary_eq_ok.mp hvalue
          -- The counter itself is zero here, and what is combined with it is the value assigned.
          obtain rfl : Value.bigint 0 = a :=
            Except.ok.inj ((Expr.evaluate_replacing_member hself).symm.trans ha)
          refine given_counts hcol hcounter hv h fun u i hu hi => ?_
          obtain rfl : u = b := Except.ok.inj ((Expr.evaluate_replacing hu).symm.trans hb)
          exact Value.integer?_binary_zero hkind hi hab
      · exact fold_counts hcol hcounter hphase hmember hvalue hv h

theorem unaryStep_counts {op : UnaryOp} {e : Expr} (hop : op ≠ .convert)
    (hvalue : ((Expr.unary op e).replacing name (.bigint 0)).evaluate = .ok v)
    (hv : v.integer? = some n) (h : (c.step (.unary op e) s).Yields p q) :
    c.mapping.CountsBy col n p q := by
  have hmine : c.counterMember? s = some name := counterMember?_eq hcol hcounter hmember
  obtain ⟨a, ha, hav⟩ := Expr.evaluate_unary_eq_ok.mp hvalue
  cases op with
  | convert => exact absurd rfl hop
  | not =>
      simp only [step, unaryStep, hphase] at h
      exact fold_counts hcol hcounter hphase hmember hvalue hv h
  | negate =>
      simp only [step, unaryStep, hphase, hmine] at h
      refine given_counts hcol hcounter hv h fun u i hu hi => ?_
      obtain rfl : u = a := Except.ok.inj ((Expr.evaluate_replacing hu).symm.trans ha)
      exact Value.integer?_negate hi hav
  | plus =>
      simp only [step, unaryStep, hphase, hmine] at h
      refine given_counts hcol hcounter hv h fun u i hu hi => ?_
      obtain rfl : u = a := Except.ok.inj ((Expr.evaluate_replacing hu).symm.trans ha)
      obtain rfl : u = v := Except.ok.inj hav
      exact hi

/-- Appending to a counter adds, and taking away subtracts. -/
theorem combining_counts {method : Method} {kind : AssignmentKind} {arg : Expr} {rest : List Expr}
    (hmethod : combiningKind? method = some kind) (hvalue : arg.evaluate = .ok v)
    (hv : v.integer? = some n) (h : (c.step (.call method (arg :: rest)) s).Yields p q) :
    c.mapping.CountsBy col (kind.amount n) p q := by
  rw [step, callStep_of_combining hphase hmethod] at h
  simp only [bindingCall, hmethod, hmember] at h
  have hgiven : (Step.given arg.evaluate fun u => c.assign name u kind).Yields p q := h
  obtain ⟨u, hu, hassign⟩ := Step.yields_given.mp hgiven
  obtain rfl : v = u := Except.ok.inj (hvalue.symm.trans hu)
  obtain ⟨i, hi, hcounts⟩ := assign_counts hcol hcounter hassign
  obtain rfl : n = i := Option.some.inj (hv.symm.trans hi)
  exact hcounts

end Nodes

/-- **Counters count by what is bound to them.** Wherever an expression that counts a member is
bound to it, and the member's column is a counter, the column is counted by the same amount; only a
read is not assigned. -/
theorem step_counts {n : Int} (hcol : c.mapping.column? name = some col)
    (hcounter : col.counter = true) :
    ∀ {e : Expr} {s : Scope} {p q : Parts}, e.Counts name n → s.phase = .binding →
      s.member = some name → (c.step e s).Yields p q →
        if e.isRead then q.assignments = p.assignments else c.mapping.CountsBy col n p q
  | .member target m, s, p, q, hcounts, hphase, hmember, h => by
      obtain ⟨hvalue, hv⟩ | _ := hcounts
      cases target with
      | parameter => rcases columnStep_yields hphase h with ⟨_, _, rfl⟩ | ⟨_, rfl⟩ <;> rfl
      | _ => exact fold_counts hcol hcounter hphase hmember hvalue hv h
  | .constant v, s, p, q, .value hvalue hv, hphase, hmember, h => by
      obtain rfl := Except.ok.inj hvalue
      exact bindValue_counts hcol hcounter hphase hmember hv h
  | .binary op l r, s, p, q, .value hvalue hv, hphase, hmember, h =>
      binaryStep_counts hcol hcounter hphase hmember hvalue hv h
  | .unary op e, s, p, q, hcounts, hphase, hmember, h => by
      by_cases hop : op = .convert
      · subst hop
        exact step_counts hcol hcounter (e := e) hcounts.of_convert hphase hmember h
      · cases hcounts with
        | value hvalue hv =>
            rw [if_neg]
            · exact unaryStep_counts hcol hcounter hphase hmember hop hvalue hv h
            · cases op <;> first | exact absurd rfl hop | exact Bool.false_ne_true
        | convert => exact absurd rfl hop
  | .call method args, s, p, q, hcounts, hphase, hmember, h => by
      show c.mapping.CountsBy col n p q
      cases hcounts with
      | value hvalue hv =>
          obtain ⟨values, -, hcall⟩ := Outcome.bind_eq_ok.mp hvalue
          rw [step, callStep_of_evaluates hphase hcall] at h
          exact fold_counts hcol hcounter hphase hmember hvalue hv h
      | append harg hv => exact combining_counts hcol hcounter hphase hmember rfl harg hv h
      | subtract harg hv => exact combining_counts hcol hcounter hphase hmember rfl harg hv h
  | .lambda body, s, p, q, hcounts, hphase, hmember, h => by
      rw [step, bodyScope_of_binding hphase] at h
      cases hcounts with
      | value hvalue _ => exact nomatch hvalue
      | lambda hbody => exact step_counts hcol hcounter (e := body) hbody hphase hmember h
  | .root, _, _, _, .value hvalue _, _, _, _ | .parameter, _, _, _, .value hvalue _, _, _, _
  | .groupKey, _, _, _, .value hvalue _, _, _, _ | .record _, _, _, _, .value hvalue _, _, _, _
  | .entity _, _, _, _, .value hvalue _, _, _, _ => nomatch hvalue

end Context

/-! ## Updates -/

namespace Change

variable {t : Table} {name : String} {col : Column} {e : Expr} {n : Int}

/-- **Counters of an update.** Let a member be mapped to a counter, and let an expression count the
member by `n`. Wherever the expression is bound to the member, unless it is a read, one assignment
to the counter comes about and changes it by `n`. So it is for every binding of an update that
compiles: with the bindings before it alone and with the binding after them, the updates compile as
well, they differ by that assignment, and it stays among the assignments of the whole update. -/
theorem update_counts (hcol : t.mapping.column? name = some col) (hcounter : col.counter = true)
    (hcounts : e.Counts name n) :
    (∀ (kind : StatementKind) (s : Scope) (p q : Parts), s.phase = .binding →
      s.member = some name → (Context.step ⟨t.mapping, kind⟩ e s).Yields p q →
        if e.isRead then q.assignments = p.assignments else t.mapping.CountsBy col n p q) ∧
    ∀ (before after : List QueryOperator) (projector body : Expr)
      (earlier later : List (String × Expr)) (p : Parts), projector.asLambda = .lambda body →
      body.isProjection = true → body.bindings = earlier ++ (name, e) :: later →
      ((Query.ofOperators t (before ++ .select projector :: after)).compile .update).outcome =
        .ok p →
      ∃ p₁ p₂,
        ((Query.ofOperators t (before ++ [.select (.record earlier)])).compile .update).outcome =
          .ok p₁ ∧
        ((Query.ofOperators t (before ++ [.select (.record (earlier ++ [(name, e)]))])).compile
          .update).outcome = .ok p₂ ∧
        p₂.assignments <+: p.assignments ∧
        if e.isRead then p₂.assignments = p₁.assignments else t.mapping.CountsBy col n p₁ p₂ := by
  have hanywhere (kind : StatementKind) (s : Scope) (p q : Parts) (hphase : s.phase = .binding)
      (hmember : s.member = some name) (h : (Context.step ⟨t.mapping, kind⟩ e s).Yields p q) :
      if e.isRead then q.assignments = p.assignments else t.mapping.CountsBy col n p q :=
    Context.step_counts hcol hcounter hcounts hphase hmember h
  refine ⟨hanywhere, ?_⟩
  intro before after projector body earlier later p hprojector hbody hbindings h
  obtain ⟨r, q, hbefore, hselect, hafter⟩ := (Query.compile_around before after _).mp h
  rw [Context.select_step hprojector, Context.step_projection hbody rfl, hbindings,
    Context.bindingSteps_append] at hselect
  obtain ⟨p₁, hearlier, hrest⟩ := Step.yields_sequence_append.mp hselect
  obtain ⟨p₂, hbinding, hlater⟩ := Step.yields_seq.mp hrest
  have hrecord {bs : List (String × Expr)} {p' : Parts}
      (hbs : (Step.sequence (Context.bindingSteps ⟨t.mapping, .update⟩ bs
        (Scope.enter {} .binding))).Yields r p') :
      ((Query.ofOperators t (before ++ [.select (.record bs)])).compile .update).outcome =
        .ok p' :=
    (Query.compile_around before [] _).mpr ⟨r, p', hbefore, hbs, Step.yields_pure.mpr rfl⟩
  refine ⟨p₁, p₂, hrecord hearlier, hrecord ?_, ?_, hanywhere _ _ p₁ p₂ rfl rfl hbinding⟩
  · rw [Context.bindingSteps_append]
    exact Step.yields_sequence_append.mpr
      ⟨p₁, hearlier, Step.yields_seq.mpr ⟨p₂, hbinding, Step.yields_pure.mpr rfl⟩⟩
  · have hgrows : p₂.Grows q := Step.sequence_relates .refl .trans (fun st hst p q hq => by
      rw [Context.bindingSteps_eq_map] at hst
      obtain ⟨b, -, rfl⟩ := List.mem_map.mp hst
      exact Context.step_grows hq) p₂ q hlater
    exact hgrows.assignments.trans (Context.operators_grow hafter).assignments

/-- The views less the least integer, the opposite of which is no integer of its type. -/
def viewsLessLeast : Expr :=
  .unary .convert
    (.binary .sub (.unary .convert (.column "views")) (.constant (.int Int32.minValue)))

/-- The bindings of an update that changes the title of a page, and counts its views twice. -/
def viewsCounted : List (String × Expr) :=
  [("title", .constant (.text "Engines")), ("views", viewsLessLeast),
    ("views", .lambda (.call .subtractAssign [.constant (.int 5)]))]

theorem update_counts_views :
    viewsLessLeast.Counts "views" 2147483648 ∧
    ∃ col p₁ p₂ p, Context.pages.column? "views" = some col ∧ col.counter = true ∧
      ((Query.ofOperators { mapping := Context.pages } [.select (.record viewsCounted)]).compile
        .update).outcome = .ok p ∧
      p₂.assignments <+: p.assignments ∧ Context.pages.CountsBy col 2147483648 p₁ p₂ ∧
      p.assignments.map (fun a => (a.column.text, a.kind, a.amount?)) =
        [("title", .assign, none), ("views", .decrement, some 2147483648),
          ("views", .decrement, some (-5))] := by
  have hcounts : viewsLessLeast.Counts "views" 2147483648 := .value rfl rfl
  obtain ⟨col, hcol, hcounter⟩ :
      ∃ col, Context.pages.column? "views" = some col ∧ col.counter = true := ⟨_, rfl, rfl⟩
  obtain ⟨p, hp⟩ :
      ∃ p, ((Query.ofOperators { mapping := Context.pages }
        ([] ++ .select (.record viewsCounted) :: [])).compile .update).outcome = .ok p := ⟨_, rfl⟩
  obtain ⟨-, hupdate⟩ := update_counts (t := { mapping := Context.pages }) hcol hcounter hcounts
  obtain ⟨p₁, p₂, -, -, hprefix, hcounted⟩ :=
    hupdate [] [] (.record viewsCounted) (.record viewsCounted)
      [("title", .constant (.text "Engines"))]
      [("views", .lambda (.call .subtractAssign [.constant (.int 5)]))] p rfl rfl rfl hp
  refine ⟨hcounts, col, p₁, p₂, p, hcol, hcounter, hp, hprefix, hcounted, ?_⟩
  rw [← Except.ok.inj hp]
  rfl

end Change

end TypedCql
