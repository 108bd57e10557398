import TypedCql.Proofs.Evaluation

/-!
# Conversions around parts of an expression

A conversion keeps its value, and an expression with conversions around some of its parts should be
as good as the one without them. `Expr.Wraps` says which expressions these are. Whatever the
compiler asks of an expression before it goes into it (how it reads in a message, whether it uses
the row, its value, its shape behind conversions) has the same answer for both, with one exception:
a member is no longer seen to be one of the row if a conversion stands around the row itself.
-/

namespace TypedCql

namespace Expr

mutual

/-- `e.Wraps rows e'`: `e'` is `e` with conversions around any of its parts, itself included. Only
with `rows` may they stand around a row that a member is taken of. -/
inductive Wraps (rows : Bool) : Expr → Expr → Prop
  | root : Wraps rows .root .root
  | parameter : Wraps rows .parameter .parameter
  | groupKey : Wraps rows .groupKey .groupKey
  | member (name : String) {target target' : Expr} (h : Wraps rows target target')
      (hrow : rows = true ∨ (target = .parameter → target' = .parameter)) :
      Wraps rows (.member target name) (.member target' name)
  | constant (v : Value) : Wraps rows (.constant v) (.constant v)
  | binary (op : BinaryOp) {l l' r r' : Expr} (hl : Wraps rows l l') (hr : Wraps rows r r') :
      Wraps rows (.binary op l r) (.binary op l' r')
  | unary (op : UnaryOp) {e e' : Expr} (h : Wraps rows e e') :
      Wraps rows (.unary op e) (.unary op e')
  | call (method : Method) {args args' : List Expr} (h : WrapsAll rows args args') :
      Wraps rows (.call method args) (.call method args')
  | lambda {body body' : Expr} (h : Wraps rows body body') :
      Wraps rows (.lambda body) (.lambda body')
  | record {bs bs' : List (String × Expr)} (h : WrapsBindings rows bs bs') :
      Wraps rows (.record bs) (.record bs')
  | entity {bs bs' : List (String × Expr)} (h : WrapsBindings rows bs bs') :
      Wraps rows (.entity bs) (.entity bs')
  | convert {e e' : Expr} (h : Wraps rows e e') : Wraps rows e (.unary .convert e')

inductive WrapsAll (rows : Bool) : List Expr → List Expr → Prop
  | nil : WrapsAll rows [] []
  | cons {e e' : Expr} {rest rest' : List Expr} (h : Wraps rows e e')
      (hrest : WrapsAll rows rest rest') : WrapsAll rows (e :: rest) (e' :: rest')

inductive WrapsBindings (rows : Bool) : List (String × Expr) → List (String × Expr) → Prop
  | nil : WrapsBindings rows [] []
  | cons (name : String) {e e' : Expr} {rest rest' : List (String × Expr)} (h : Wraps rows e e')
      (hrest : WrapsBindings rows rest rest') :
      WrapsBindings rows ((name, e) :: rest) ((name, e') :: rest')

end

variable {rows : Bool}

mutual

/-- No part has to be wrapped. -/
theorem Wraps.refl : ∀ e : Expr, e.Wraps rows e
  | .root => .root
  | .parameter => .parameter
  | .groupKey => .groupKey
  | .member target name => .member name (.refl target) (.inr id)
  | .constant v => .constant v
  | .binary op l r => .binary op (.refl l) (.refl r)
  | .unary op e => .unary op (.refl e)
  | .call method args => .call method (.refl args)
  | .lambda body => .lambda (.refl body)
  | .record bs => .record (.refl bs)
  | .entity bs => .entity (.refl bs)

theorem WrapsAll.refl : ∀ args : List Expr, WrapsAll rows args args
  | [] => .nil
  | e :: rest => .cons (.refl e) (.refl rest)

theorem WrapsBindings.refl : ∀ bs : List (String × Expr), WrapsBindings rows bs bs
  | [] => .nil
  | (name, e) :: rest => .cons name (.refl e) (.refl rest)

end

/-! ## What conversions do not change -/

mutual

/-- Conversions do not show in messages. -/
theorem Wraps.text_eq : ∀ {e e' : Expr}, e.Wraps rows e' → e'.text = e.text
  | _, _, .root | _, _, .parameter | _, _, .groupKey | _, _, .constant _ => rfl
  | _, _, .member name h _ => by rw [text, text, h.text_eq]
  | _, _, .binary op hl hr => by rw [text, text, hl.text_eq, hr.text_eq]
  | _, _, .unary op h => by cases op <;> simp only [text, h.text_eq]
  | _, _, .call method h => by rw [text, text, h.texts_eq]
  | _, _, .lambda h => by rw [text, text, h.text_eq]
  | _, _, .record h => by rw [text, text, h.texts_eq]
  | _, _, .entity h => by rw [text, text, h.texts_eq]
  | _, _, .convert h => h.text_eq

theorem WrapsAll.texts_eq : ∀ {args args' : List Expr}, WrapsAll rows args args' →
    texts args' = texts args
  | _, _, .nil => rfl
  | _, _, .cons h hrest => by rw [texts, texts, h.text_eq, hrest.texts_eq]

theorem WrapsBindings.texts_eq : ∀ {bs bs' : List (String × Expr)}, WrapsBindings rows bs bs' →
    bindingTexts bs' = bindingTexts bs
  | _, _, .nil => rfl
  | _, _, .cons name h hrest => by rw [bindingTexts, bindingTexts, h.text_eq, hrest.texts_eq]

end

mutual

theorem Wraps.usesRow_eq : ∀ {e e' : Expr}, e.Wraps rows e' → e'.usesRow = e.usesRow
  | _, _, .root | _, _, .parameter | _, _, .groupKey | _, _, .constant _ => rfl
  | _, _, .member name h _ => h.usesRow_eq
  | _, _, .binary op hl hr => by rw [usesRow, usesRow, hl.usesRow_eq, hr.usesRow_eq]
  | _, _, .unary op h => h.usesRow_eq
  | _, _, .call method h => h.anyUsesRow_eq
  | _, _, .lambda h => h.usesRow_eq
  | _, _, .record h => h.anyUsesRow_eq
  | _, _, .entity h => h.anyUsesRow_eq
  | _, _, .convert h => h.usesRow_eq

theorem WrapsAll.anyUsesRow_eq : ∀ {args args' : List Expr}, WrapsAll rows args args' →
    anyUsesRow args' = anyUsesRow args
  | _, _, .nil => rfl
  | _, _, .cons h hrest => by rw [anyUsesRow, anyUsesRow, h.usesRow_eq, hrest.anyUsesRow_eq]

theorem WrapsBindings.anyUsesRow_eq : ∀ {bs bs' : List (String × Expr)},
    WrapsBindings rows bs bs' → anyBindingUsesRow bs' = anyBindingUsesRow bs
  | _, _, .nil => rfl
  | _, _, .cons _ h hrest => by
      rw [anyBindingUsesRow, anyBindingUsesRow, h.usesRow_eq, hrest.anyUsesRow_eq]

end

mutual

/-- **Conversions keep the value.** -/
theorem Wraps.evaluate_eq : ∀ {e e' : Expr}, e.Wraps rows e' → e'.evaluate = e.evaluate
  | _, _, .root | _, _, .parameter | _, _, .groupKey | _, _, .constant _ => rfl
  | _, _, .member name h _ => by simp only [evaluate, h.evaluate_eq]
  | _, _, .binary op hl hr => by simp only [evaluate, hl.evaluate_eq, hr.evaluate_eq]
  | _, _, .unary op h => by simp only [evaluate, h.evaluate_eq]
  | _, _, .call method h => by simp only [evaluate, h.evaluateAll_eq]
  | _, _, .lambda h => by simp only [evaluate, (Wraps.lambda h).text_eq]
  | _, _, .record h => by simp only [evaluate, (Wraps.record h).text_eq]
  | _, _, .entity h => by simp only [evaluate, (Wraps.entity h).text_eq]
  | _, _, .convert h => by rw [evaluate_convert, h.evaluate_eq]

theorem WrapsAll.evaluateAll_eq : ∀ {args args' : List Expr}, WrapsAll rows args args' →
    evaluateAll args' = evaluateAll args
  | _, _, .nil => rfl
  | _, _, .cons h hrest => by simp only [evaluateAll, h.evaluate_eq, hrest.evaluateAll_eq]

end

/-- A three-way comparison is recognised behind conversions. -/
theorem Wraps.isThreeWay_eq : ∀ {e e' : Expr}, e.Wraps rows e' →
    Context.isThreeWay e' = Context.isThreeWay e
  | _, _, .root | _, _, .parameter | _, _, .groupKey | _, _, .constant _ | _, _, .member _ _ _
  | _, _, .binary _ _ _ | _, _, .lambda _ | _, _, .record _ | _, _, .entity _ => rfl
  | _, _, .unary op h => by
      cases op with
      | convert => exact h.isThreeWay_eq
      | _ => rfl
  | _, _, .call method _ => by cases method <;> rfl
  | _, _, .convert h => h.isThreeWay_eq

/-! ## Members of the row -/

theorem rowMember?_eq_none {target : Expr} (h : target ≠ .parameter) (name : String) :
    (Expr.member target name).rowMember? = none := by
  cases target <;> first | rfl | exact absurd rfl h

/-- A member of the row stays one, unless conversions stand around the row. -/
theorem Wraps.rowMember?_eq : ∀ {e e' : Expr}, e.Wraps rows e' →
    e'.withoutConvert.rowMember? = e.withoutConvert.rowMember? ∨
      rows = true ∧ e.usesRow = true ∧ e'.withoutConvert.rowMember? = none
  | _, _, .root | _, _, .parameter | _, _, .groupKey | _, _, .constant _
  | _, _, .binary _ _ _ | _, _, .lambda _ | _, _, .record _ | _, _, .entity _
  | _, _, .call _ _ => .inl rfl
  | _, _, @Wraps.member _ name target target' h hrow => by
      by_cases htarget : target = .parameter
      · subst htarget
        cases h with
        | parameter => exact .inl rfl
        | convert =>
            rcases hrow with hrow | hrow
            · exact .inr ⟨hrow, rfl, rfl⟩
            · exact nomatch hrow rfl
      · have htarget' : target' ≠ .parameter := by
          rintro rfl
          cases h
          exact htarget rfl
        exact .inl ((rowMember?_eq_none htarget' name).trans (rowMember?_eq_none htarget name).symm)
  | _, _, .unary op h => by
      cases op with
      | convert => exact h.rowMember?_eq
      | _ => exact .inl rfl
  | _, _, .convert h => h.rowMember?_eq

end Expr

end TypedCql
