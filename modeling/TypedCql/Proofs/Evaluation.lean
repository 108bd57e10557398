import TypedCql.Proofs.Predicates
import TypedCql.Proofs.Subexpressions

/-!
# Evaluation is strict

An expression has a value only if all of its parts have one: no operator decides without its other
operand, and no function of the program is called without its arguments. Since the row and the key
of its group have no value, an expression that has one is about neither of them.
-/

namespace TypedCql

namespace Expr

/-- A node has a value only if what is inside it has values. -/
theorem evaluates_of_mem_node {part e : Expr} {inner : List Expr} {v : Value}
    (he : e.subexpressions = e :: inner) (h : e.evaluate = .ok v)
    (hinner : part ∈ inner → ∃ w, part.evaluate = .ok w) (hpart : part ∈ e.subexpressions) :
    ∃ w, part.evaluate = .ok w := by
  rw [he] at hpart
  rcases List.mem_cons.mp hpart with rfl | hpart
  · exact ⟨v, h⟩
  · exact hinner hpart

mutual

/-- **Strictness.** Every part of an expression that has a value has a value itself. -/
theorem evaluates_of_mem {part : Expr} :
    ∀ {e : Expr} {v : Value}, e.evaluate = .ok v → part ∈ e.subexpressions →
      ∃ w, part.evaluate = .ok w
  | .constant _, v, h, hpart => evaluates_of_mem_node rfl h (fun h' => nomatch h') hpart
  | .member target name, v, h, hpart => by
      obtain ⟨w, htarget, -⟩ := Outcome.bind_eq_ok.mp h
      exact evaluates_of_mem_node rfl h (evaluates_of_mem htarget) hpart
  | .binary op l r, v, h, hpart => by
      obtain ⟨a, b, hl, hr, -⟩ := evaluate_binary_eq_ok.mp h
      refine evaluates_of_mem_node rfl h (fun hinner => ?_) hpart
      rcases List.mem_append.mp hinner with hinner | hinner
      · exact evaluates_of_mem hl hinner
      · exact evaluates_of_mem hr hinner
  | .unary op e, v, h, hpart => by
      obtain ⟨a, he, -⟩ := evaluate_unary_eq_ok.mp h
      exact evaluates_of_mem_node rfl h (evaluates_of_mem he) hpart
  | .call method args, v, h, hpart => by
      obtain ⟨values, hargs, -⟩ := Outcome.bind_eq_ok.mp h
      exact evaluates_of_mem_node rfl h (evaluates_of_mem_arguments hargs) hpart
  | .root, _, h, _ | .parameter, _, h, _ | .groupKey, _, h, _ | .lambda _, _, h, _
  | .record _, _, h, _ | .entity _, _, h, _ => nomatch h

theorem evaluates_of_mem_arguments {part : Expr} :
    ∀ {args : List Expr} {values : List Value}, evaluateAll args = .ok values →
      part ∈ argumentSubexpressions args → ∃ w, part.evaluate = .ok w
  | [], _, _, hpart => nomatch hpart
  | e :: rest, values, h, hpart => by
      obtain ⟨v, he, h⟩ := Outcome.bind_eq_ok.mp h
      obtain ⟨later, hrest, -⟩ := Outcome.bind_eq_ok.mp h
      rcases List.mem_append.mp hpart with hpart | hpart
      · exact evaluates_of_mem he hpart
      · exact evaluates_of_mem_arguments hrest hpart

end

/-! ## The row -/

mutual

/-- The row is used where it occurs, or the key of its group does. -/
theorem usesRow_iff : ∀ {e : Expr},
    e.usesRow = true ↔ .parameter ∈ e.subexpressions ∨ .groupKey ∈ e.subexpressions
  | .root | .parameter | .groupKey | .constant _ => by simp [usesRow, subexpressions]
  | .member target _ => by simp [usesRow, subexpressions, usesRow_iff (e := target)]
  | .binary _ l r => by
      simp only [usesRow, subexpressions, Bool.or_eq_true, List.mem_cons, List.mem_append,
        reduceCtorEq, false_or, usesRow_iff (e := l), usesRow_iff (e := r)]
      exact or_or_or_comm
  | .unary _ e => by simp [usesRow, subexpressions, usesRow_iff (e := e)]
  | .call _ args => by simp [usesRow, subexpressions, @anyUsesRow_iff args]
  | .lambda body => by simp [usesRow, subexpressions, usesRow_iff (e := body)]
  | .record bs => by simp [usesRow, subexpressions, @anyBindingUsesRow_iff bs]
  | .entity bs => by simp [usesRow, subexpressions, @anyBindingUsesRow_iff bs]

theorem anyUsesRow_iff : ∀ {args : List Expr}, anyUsesRow args = true ↔
    .parameter ∈ argumentSubexpressions args ∨ .groupKey ∈ argumentSubexpressions args
  | [] => by simp [anyUsesRow, argumentSubexpressions]
  | e :: rest => by
      simp only [anyUsesRow, argumentSubexpressions, Bool.or_eq_true, List.mem_append,
        usesRow_iff (e := e), @anyUsesRow_iff rest]
      exact or_or_or_comm

theorem anyBindingUsesRow_iff : ∀ {bs : List (String × Expr)}, anyBindingUsesRow bs = true ↔
    .parameter ∈ bindingSubexpressions bs ∨ .groupKey ∈ bindingSubexpressions bs
  | [] => by simp [anyBindingUsesRow, bindingSubexpressions]
  | (_, e) :: rest => by
      simp only [anyBindingUsesRow, bindingSubexpressions, Bool.or_eq_true, List.mem_append,
        usesRow_iff (e := e), @anyBindingUsesRow_iff rest]
      exact or_or_or_comm

end

/-- An expression that uses the row has no value. -/
theorem not_evaluates_of_usesRow {e : Expr} (h : e.usesRow = true) (v : Value) :
    e.evaluate ≠ .ok v := by
  intro hv
  rcases usesRow_iff.mp h with hrow | hkey
  · obtain ⟨w, hw⟩ := evaluates_of_mem hv hrow
    exact nomatch hw
  · obtain ⟨w, hw⟩ := evaluates_of_mem hv hkey
    exact nomatch hw

/-- A part that uses the row makes the whole use it. -/
theorem usesRow_of_subset {part e : Expr} (h : part.subexpressions ⊆ e.subexpressions)
    (hpart : part.usesRow = true) : e.usesRow = true :=
  usesRow_iff.mpr ((usesRow_iff.mp hpart).imp (fun hp => h hp) fun hp => h hp)

end Expr

end TypedCql
