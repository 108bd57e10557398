import TypedCql.Proofs.Conjunctions
import TypedCql.Proofs.JoinedConditions

/-!
# Three-way comparisons

A program may compare two things in three ways and ask where the outcome stands to zero, or it may
compare them directly. Both readings of a predicate take the one for the other: a three-way
comparison with zero is visited as the comparison itself (`Context.step_threeWay`), and it has the
same value or the same error (`Expr.evaluate_threeWay`). With the zero first, the comparison is the
inverse one.

Only equality sets the two apart, and only where it is evaluated. Things without an order can still
be equal or not, while a three-way comparison of them is an error.
-/

namespace TypedCql

theorem BinaryOp.inverse_inverse {op inverse : BinaryOp} (h : op.inverse? = some inverse) :
    inverse.inverse? = some op := by
  cases op <;> simp only [inverse?, Option.some.injEq, reduceCtorEq] at h <;> subst h <;> rfl

/-! ## Evaluating -/

namespace Value

variable {op : BinaryOp} {a b : Value}

/-- What goes by the order of two values says of their three-way comparison what the comparison
says of themselves, an error where they have no order. -/
theorem bind_compareTo {f : Value → Outcome Value} (hop : op.isComparison = true)
    (hf : ∀ o, f (ofOrdering o) = .ok (.boolean (op.accepts o)))
    (hcomparable : op = .eq ∨ op = .ne → (a.compare? b).isSome = true) :
    (ofCall .compareTo [a, b] >>= f) = binary op a b := by
  show ((comparison a b >>= fun o => pure (ofOrdering o)) >>= f) = _
  cases ho : a.compare? b with
  | some o =>
      have hcomparison : comparison a b = .ok o := by
        unfold comparison
        rw [ho]
      rw [hcomparison, binary_of_compare hop ho]
      exact hf o
  | none =>
      have hcomparison : comparison a b = .error (.evaluation (.notComparable a.kind b.kind)) := by
        unfold comparison
        rw [ho]
      have hordered : ¬(op = .eq ∨ op = .ne) := by
        intro hequal
        have hsome := hcomparable hequal
        rw [ho] at hsome
        exact absurd hsome Bool.false_ne_true
      rw [hcomparison]
      cases op with
      | eq => exact absurd (.inl rfl) hordered
      | ne => exact absurd (.inr rfl) hordered
      | lt | lte | gt | gte =>
          simp only [binary, hcomparison]
          rfl
      | _ => exact absurd hop Bool.false_ne_true

end Value

namespace Expr

variable {op inverse : BinaryOp} {a b order zero : Expr} {v : Value}

/-- **Three-way comparisons have the value of the comparison.** -/
theorem evaluate_threeWay (hop : op.inverse? = some inverse) (horder : order.Orders a b)
    (hzero : zero.evaluate = .ok v) (hv : v.integer? = some 0)
    (hcomparable : op = .eq ∨ op = .ne →
      ∀ x y, a.evaluate = .ok x → b.evaluate = .ok y → (x.compare? y).isSome = true) :
    (Expr.binary op order zero).evaluate = (Expr.binary op a b).evaluate ∧
      (Expr.binary inverse zero order).evaluate = (Expr.binary op a b).evaluate := by
  have hevaluate : order.evaluate =
      a.evaluate >>= fun x => b.evaluate >>= fun y => Value.ofCall .compareTo [x, y] := by
    rw [← evaluate_withoutConvert, horder, evaluate_call_pair]
  have hcomparison := (BinaryOp.inverse_comparison hop).1
  simp only [evaluate, hzero, hevaluate]
  cases ha : a.evaluate with
  | error e => exact ⟨rfl, rfl⟩
  | ok x =>
      cases hb : b.evaluate with
      | error e => exact ⟨rfl, rfl⟩
      | ok y =>
          have hxy : op = .eq ∨ op = .ne → (x.compare? y).isSome = true :=
            fun hequal => hcomparable hequal x y ha hb
          constructor
          · exact Value.bind_compareTo hcomparison
              (fun o => Value.binary_ofOrdering hcomparison o hv) hxy
          · exact Value.bind_compareTo hcomparison
              (fun o => Value.binary_zero_ofOrdering (BinaryOp.inverse_inverse hop) o hv) hxy

end Expr

/-! ## Compiling -/

namespace Context

variable {c : Context} {s : Scope} {op inverse : BinaryOp} {a b order zero : Expr} {v : Value}

/-- **Three-way comparisons are visited as the comparison.** -/
theorem step_threeWay (hs : s.phase = .condition) (hop : op.inverse? = some inverse)
    (horder : order.Orders a b) (hzero : zero.evaluate = .ok v) (hv : v.integer? = some 0)
    (ha : isThreeWay a = false) (hb : isThreeWay b = false) (hz : isThreeWay zero = false) :
    c.step (.binary op order zero) s = c.step (.binary op a b) s ∧
      c.step (.binary inverse zero order) s = c.step (.binary op a b) s := by
  have hcomparison := (BinaryOp.inverse_comparison hop).1
  have hexpected (node : Expr) : expectZero zero node s = .ok () := expectZero_ok hzero hv node s
  constructor
  · rw [step_order_zero hs hcomparison horder, hexpected, step_comparison hs hcomparison ha hb]
    exact step_order hs hcomparison horder
  · rw [step_zero_order hs (BinaryOp.inverse_inverse hop) horder hz, hexpected,
      step_comparison hs hcomparison ha hb]
    exact step_order hs hcomparison horder

end Context

namespace Query

open Context

/-- Filters whose predicates are visited alike. -/
theorem filter_alike {q : Query} {kind : StatementKind} {after : List QueryOperator} {e e' : Expr}
    (h : step ⟨q.table.mapping, kind⟩ e (Scope.condition {} .rows) =
      step ⟨q.table.mapping, kind⟩ e' (Scope.condition {} .rows)) :
    AlikeFor kind (q.extend (.filter e :: after)) (q.extend (.filter e' :: after)) := by
  refine .of_sequences (congrArg (q.compile kind >>= ·) ?_)
  have hfilter (x : Expr) : QueryOperator.step ⟨q.table.mapping, kind⟩ (.filter x) =
      (Step.openCondition .rows >=>
        step ⟨q.table.mapping, kind⟩ x (Scope.condition {} .rows)) := step_predicate rfl
  rw [List.map_cons, List.map_cons, hfilter, hfilter, h]

/-- **Three-way comparisons with zero are comparisons.** Take a three-way comparison of `a` and `b`,
with any conversions around it, and an expression whose value is the integer zero. To filter by the
comparison of the former with the latter, in this order or in the other with the inverse operator,
is like filtering by the direct comparison of `a` and `b`, as long as these and the zero are no
three-way comparisons themselves. Evaluated by the program, all three have the same value or the
same error, if for equality the values of `a` and `b` have an order. -/
theorem threeWay_compares {op inverse : BinaryOp} {a b order zero : Expr} {v : Value}
    (hop : op.inverse? = some inverse) (horder : order.Orders a b)
    (hzero : zero.evaluate = .ok v) (hv : v.integer? = some 0) :
    (isThreeWay a = false → isThreeWay b = false → isThreeWay zero = false →
      ∀ (q : Query) (kind : StatementKind) (after : List QueryOperator),
        AlikeFor kind (q.extend (.filter (.binary op order zero) :: after))
            (q.extend (.filter (.binary op a b) :: after)) ∧
          AlikeFor kind (q.extend (.filter (.binary inverse zero order) :: after))
            (q.extend (.filter (.binary op a b) :: after))) ∧
      ((op = .eq ∨ op = .ne →
          ∀ x y, a.evaluate = .ok x → b.evaluate = .ok y → (x.compare? y).isSome = true) →
        (Expr.binary op order zero).evaluate = (Expr.binary op a b).evaluate ∧
          (Expr.binary inverse zero order).evaluate = (Expr.binary op a b).evaluate) := by
  constructor
  · intro ha hb hz q kind after
    obtain ⟨hstep, hswapped⟩ := step_threeWay (c := ⟨q.table.mapping, kind⟩)
      (s := Scope.condition {} .rows) rfl hop horder hzero hv ha hb hz
    exact ⟨filter_alike hstep, filter_alike hswapped⟩
  · intro hcomparable
    exact Expr.evaluate_threeWay hop horder hzero hv hcomparable

/-- Names compared with `k` in three ways, with two conversions around the comparison. -/
def nameOrder : Expr :=
  .unary .convert (.unary .convert (.call .compareTo [.column "name", .constant (.text "k")]))

/-- A zero that only comes about by a subtraction. -/
def noDifference : Expr := .binary .sub (.constant (.int 5)) (.constant (.bigint 5))

theorem threeWay_compares_names :
    (QueryUse.select.command (Query.extend { table := { mapping := people } }
      [.filter (.binary .gt noDifference nameOrder)])).inline.outcome =
        .ok "SELECT id, name, active, verified FROM Person WHERE name < 'k'" ∧
    (Expr.binary .ne (.call .compareTo [.constant (.int 7), .constant (.bigint 7)])
      noDifference).evaluate = .ok (.boolean false) := by
  have hzero : noDifference.evaluate = .ok (.bigint 0) := rfl
  constructor
  · have hop : BinaryOp.inverse? .lt = some .gt := rfl
    have horder : nameOrder.Orders (.column "name") (.constant (.text "k")) := rfl
    have halike := (threeWay_compares hop horder hzero rfl).1 rfl rfl rfl
      { table := { mapping := people } } .select []
    rw [halike.2.inline .select rfl]
    rfl
  · have hop : BinaryOp.inverse? .ne = some .ne := rfl
    have horder : (Expr.call .compareTo [.constant (.int 7), .constant (.bigint 7)]).Orders
      (.constant (.int 7)) (.constant (.bigint 7)) := rfl
    have hvalue := (threeWay_compares hop horder hzero rfl).2
    rw [(hvalue ?_).1]
    · rfl
    · rintro - x y hx hy
      cases hx
      cases hy
      rfl

/-- Without an order two things are still unequal, but they cannot be compared in three ways. -/
example :
    (Expr.binary .ne (.constant .null) (.constant (.int 1))).evaluate = .ok (.boolean true) ∧
      (Expr.binary .ne (.call .compareTo [.constant .null, .constant (.int 1)])
        (.constant (.int 0))).evaluate =
          .error (.evaluation (.notComparable Value.null.kind (Value.int 1).kind)) :=
  ⟨by cbv, rfl⟩

end Query

end TypedCql
