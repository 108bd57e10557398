import TypedCql.Proofs.Steps
import TypedCql.Query.Chain

/-!
# Predicates on rows

A predicate has two readings. The compiler writes it as the condition of a statement; and for one
row, given by the values of its members, it can be evaluated right away. This module has what the
two readings need, each with one lemma for a kind of expression: conversions change neither.
-/

namespace TypedCql

/-! ## Evaluating on a row -/

namespace Expr

mutual

/-- The expression with the members of a row in the place of their names. A lambda inside it has a
row of its own. -/
def onRow (row : String → Value) : Expr → Expr
  | .member .parameter name => .constant (row name)
  | .member target name => .member (onRow row target) name
  | .binary op l r => .binary op (onRow row l) (onRow row r)
  | .unary op e => .unary op (onRow row e)
  | .call method args => .call method (onRows row args)
  | e => e

def onRows (row : String → Value) : List Expr → List Expr
  | [] => []
  | e :: rest => onRow row e :: onRows row rest

end

variable {row : String → Value} {v : Value}

theorem evaluate_convert (e : Expr) : (Expr.unary .convert e).evaluate = e.evaluate := by
  show (e.evaluate >>= Value.unary .convert) = e.evaluate
  cases e.evaluate <;> rfl

theorem evaluate_withoutConvert (e : Expr) : e.withoutConvert.evaluate = e.evaluate := by
  fun_induction withoutConvert e with
  | case1 e ih => rw [ih, evaluate_convert]
  | case2 e => rfl

/-- A conversion is of no account to the value on a row. -/
theorem evaluate_onRow_withoutConvert (row : String → Value) (e : Expr) :
    (e.withoutConvert.onRow row).evaluate = (e.onRow row).evaluate := by
  fun_induction withoutConvert e with
  | case1 e ih =>
      show _ = (Expr.unary .convert (e.onRow row)).evaluate
      rw [ih, evaluate_convert]
  | case2 e => rfl

theorem evaluate_binary_eq_ok {op : BinaryOp} {l r : Expr} :
    (Expr.binary op l r).evaluate = .ok v ↔
      ∃ a b, l.evaluate = .ok a ∧ r.evaluate = .ok b ∧ Value.binary op a b = .ok v := by
  show (l.evaluate >>= fun a => r.evaluate >>= fun b => Value.binary op a b) = .ok v ↔ _
  rw [Outcome.bind_eq_ok]
  constructor
  · rintro ⟨a, ha, h⟩
    obtain ⟨b, hb, h⟩ := Outcome.bind_eq_ok.mp h
    exact ⟨a, b, ha, hb, h⟩
  · rintro ⟨a, b, ha, hb, h⟩
    exact ⟨a, ha, Outcome.bind_eq_ok.mpr ⟨b, hb, h⟩⟩

theorem evaluate_unary_eq_ok {op : UnaryOp} {e : Expr} :
    (Expr.unary op e).evaluate = .ok v ↔ ∃ a, e.evaluate = .ok a ∧ Value.unary op a = .ok v :=
  Outcome.bind_eq_ok

/-- Both arguments of a call are evaluated before it. -/
theorem evaluate_call_pair (method : Method) (l r : Expr) :
    (Expr.call method [l, r]).evaluate =
      l.evaluate >>= fun a => r.evaluate >>= fun b => Value.ofCall method [a, b] := by
  show (evaluateAll [l, r] >>= Value.ofCall method) = _
  simp only [evaluateAll]
  cases l.evaluate with
  | error e => rfl
  | ok a => cases r.evaluate <;> rfl

/-- The value of a member on a row. -/
theorem evaluate_onRow_column {e : Expr} {member : String} (h : e.withoutConvert = .column member) :
    (e.onRow row).evaluate = .ok (row member) := by
  rw [← evaluate_onRow_withoutConvert, h]
  rfl

theorem evaluate_onRow_constant {e : Expr} (h : e.withoutConvert = .constant v) :
    (e.onRow row).evaluate = .ok v := by
  rw [← evaluate_onRow_withoutConvert, h]
  rfl

theorem evaluate_onRow_binary {op : BinaryOp} {l r : Expr} {a b : Value}
    (hl : (l.onRow row).evaluate = .ok a) (hr : (r.onRow row).evaluate = .ok b) :
    ((Expr.binary op l r).onRow row).evaluate = Value.binary op a b := by
  show ((l.onRow row).evaluate >>= fun a => (r.onRow row).evaluate >>= Value.binary op a) = _
  rw [hl, hr]
  rfl

theorem evaluate_onRow_call {method : Method} {l r : Expr} {a b : Value}
    (hl : (l.onRow row).evaluate = .ok a) (hr : (r.onRow row).evaluate = .ok b) :
    ((Expr.call method [l, r]).onRow row).evaluate = Value.ofCall method [a, b] := by
  show (Expr.call method [l.onRow row, r.onRow row]).evaluate = _
  rw [evaluate_call_pair, hl, hr]
  rfl

theorem evaluate_constant {e : Expr} (h : e.withoutConvert = .constant v) :
    e.evaluate = .ok v := by
  rw [← evaluate_withoutConvert, h]
  rfl

end Expr

/-! ## Writing conditions -/

theorem BinaryOp.comparison_cql {op : BinaryOp} (h : op.isComparison = true) :
    ∃ tag inverse, op.cql? = some tag ∧ op.inverse? = some inverse := by
  cases op <;> first | exact ⟨_, _, rfl, rfl⟩ | exact absurd h Bool.false_ne_true

/-- The name of a member's column. -/
def Mapping.columnFragment (m : Mapping) (member : String) : Fragment :=
  (m.column? member).toList.map fun col => .name (m.identifier col.name)

theorem Mapping.columnFragment_eq {m : Mapping} {member : String} {col : Column}
    (h : m.column? member = some col) :
    m.columnFragment member = [.name (m.identifier col.name)] := by
  unfold columnFragment
  rw [h]
  rfl

namespace Context

variable {c : Context} {s : Scope}

/-- A conversion is of no account to the condition. -/
theorem step_withoutConvert (c : Context) (e : Expr) (s : Scope) :
    c.step e.withoutConvert s = c.step e s := by
  fun_induction Expr.withoutConvert e with
  | case1 e ih => exact ih
  | case2 e => rfl

theorem writes_column {e : Expr} {member : String} (hs : s.phase = .condition)
    (h : e.withoutConvert = .column member) (hmapped : (c.mapping.column? member).isSome = true) :
    Step.Writes (c.step e s) s.target (.ok (c.mapping.columnFragment member)) := by
  obtain ⟨col, hcol⟩ := Option.isSome_iff_exists.mp hmapped
  rw [← step_withoutConvert, h, Mapping.columnFragment_eq hcol]
  intro p
  show (c.memberStep member (.column member) s p).outcome = _
  simp only [memberStep, Expr.rowMember?, hs, mappedColumn, hcol]
  rfl

/-- A value that is no token binds as a whole. -/
theorem valueFragment_eq {v : Value} (hv : ∀ items, v ≠ .token items) :
    valueFragment v = [.value v] := by
  cases v <;> first | rfl | exact absurd rfl (hv _)

theorem writes_value {e : Expr} {v : Value} (hs : s.phase = .condition)
    (h : e.withoutConvert = .constant v) (hv : ∀ items, v ≠ .token items) :
    Step.Writes (c.step e s) s.target (.ok [.value v]) := by
  rw [← step_withoutConvert, h, ← valueFragment_eq hv]
  intro p
  show (c.bindValue v (.constant v) s p).outcome = _
  simp only [bindValue, hs]
  rfl

theorem writes_relation {tag : String} {l r : Operand} {o o' : Outcome Fragment}
    (hl : Step.Writes (l.step s.uncompared) s.target o)
    (hr : Step.Writes (r.step s.uncompared) s.target o') :
    Step.Writes (relation tag l r s) s.target
      (o >>= fun f => o'.map fun g => f ++ .verbatim (" " ++ tag ++ " ") :: g) := by
  have hseq := Step.writes_seq hl (Step.writes_seq (Step.writes_write s (" " ++ tag ++ " ")) hr)
  intro p
  refine (hseq p).trans ?_
  cases o with
  | error e => rfl
  | ok f => cases o' <;> rfl

/-- Both forms of conjunction write the two sides as they stand. -/
theorem step_and {op : BinaryOp} {l r : Expr} (hs : s.phase = .condition)
    (hop : op = .and ∨ op = .andAlso) :
    c.step (.binary op l r) s = relation "AND" ⟨l, c.step l⟩ ⟨r, c.step r⟩ s := by
  show c.binaryStep op ⟨l, c.step l⟩ ⟨r, c.step r⟩ (.binary op l r) s = _
  rcases hop with rfl | rfl
  · simp only [binaryStep, hs, conditionBinary, BinaryOp.cql?, BinaryOp.inverse?]
  · simp only [binaryStep, hs, conditionBinary, BinaryOp.cql?, BinaryOp.inverse?]

/-- So does a comparison, unless one of the sides is a three-way comparison. -/
theorem step_comparison {op : BinaryOp} {l r : Expr} (hs : s.phase = .condition)
    (hop : op.isComparison = true) (hl : isThreeWay l = false) (hr : isThreeWay r = false) :
    c.step (.binary op l r) s = relation (op.cql?.getD "") ⟨l, c.step l⟩ ⟨r, c.step r⟩ s := by
  obtain ⟨tag, inverse, htag, hinverse⟩ := BinaryOp.comparison_cql hop
  show c.binaryStep op ⟨l, c.step l⟩ ⟨r, c.step r⟩ (.binary op l r) s = _
  simp only [binaryStep, hs, conditionBinary, htag, hinverse, hl, hr, Option.getD_some,
    Bool.false_eq_true, if_false]

/-- A row is filtered by what its predicate writes. -/
theorem filter_outcome {t : Table} {kind : StatementKind} {e : Expr} {o : Outcome Fragment}
    (he : e.asLambda = .lambda e)
    (h : Step.Writes (Context.step ⟨t.mapping, kind⟩ e (Scope.condition {} .rows)) .rows o) :
    ((Query.ofOperators t [.filter e]).compile kind).outcome =
      o.map fun f => { rowConditions := f } := by
  show (Context.step ⟨t.mapping, kind⟩ (.call .filter [.root, e.asLambda]) {} {}).outcome = _
  rw [he]
  exact h {}

end Context

end TypedCql
