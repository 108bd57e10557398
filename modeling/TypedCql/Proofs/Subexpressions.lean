import TypedCql.Query.Compile

/-!
# Parts of expressions and their places

The expressions inside an expression, and where the compiler meets each of them: `Places e s e' s'`
says that a visit of `e` in the scope `s` can come to its part `e'` in the scope `s'`. A part keeps
the phase of its node, except that the argument of a query operator has a phase of its own and the
body of a projector is a projection.
-/

namespace TypedCql

namespace Method

/-- The phase in which a query operator takes its argument. -/
def argumentPhase? : Method → Option Phase
  | .filter | .updateIf | .deleteIf | .first | .firstOrDefault => some .condition
  | .select => some .select
  | .take => some .take
  | .orderBy | .thenBy => some .orderBy
  | .orderByDescending | .thenByDescending => some .orderByDescending
  | .groupBy => some .groupBy
  | _ => none

/-- The operators that continue a query. -/
def isOperator : Method → Bool
  | .allowFiltering => true
  | method => method.argumentPhase?.isSome

end Method

namespace Expr

mutual

/-- The expression and all that is inside it, from the outside in. -/
def subexpressions : Expr → List Expr
  | .root => [.root]
  | .parameter => [.parameter]
  | .groupKey => [.groupKey]
  | .member target name => .member target name :: subexpressions target
  | .constant v => [.constant v]
  | .binary op l r => .binary op l r :: (subexpressions l ++ subexpressions r)
  | .unary op e => .unary op e :: subexpressions e
  | .call method args => .call method args :: argumentSubexpressions args
  | .lambda body => .lambda body :: subexpressions body
  | .record bs => .record bs :: bindingSubexpressions bs
  | .entity bs => .entity bs :: bindingSubexpressions bs

def argumentSubexpressions : List Expr → List Expr
  | [] => []
  | e :: rest => subexpressions e ++ argumentSubexpressions rest

def bindingSubexpressions : List (String × Expr) → List Expr
  | [] => []
  | (_, e) :: rest => subexpressions e ++ bindingSubexpressions rest

end

/-- The operands of a node, which mean there what the node itself would. -/
def operands : Expr → List Expr
  | .unary _ e => [e]
  | .binary _ l r => [l, r]
  | .call _ args => args
  | _ => []

/-- The bindings of a projection to named parts. -/
def bindings : Expr → List (String × Expr)
  | .record bs | .entity bs => bs
  | _ => []

theorem self_mem_subexpressions (e : Expr) : e ∈ e.subexpressions := by
  cases e <;> simp [subexpressions]

theorem subset_argumentSubexpressions {e : Expr} :
    ∀ {args : List Expr}, e ∈ args → e.subexpressions ⊆ argumentSubexpressions args
  | first :: rest, h => by
      rw [argumentSubexpressions]
      rcases List.mem_cons.mp h with rfl | h
      · exact List.subset_append_left ..
      · exact List.subset_append_of_subset_right _ (subset_argumentSubexpressions h)

theorem subset_bindingSubexpressions {name : String} {e : Expr} :
    ∀ {bs : List (String × Expr)}, (name, e) ∈ bs → e.subexpressions ⊆ bindingSubexpressions bs
  | (first, v) :: rest, h => by
      rw [bindingSubexpressions]
      rcases List.mem_cons.mp h with h | h
      · cases h
        exact List.subset_append_left ..
      · exact List.subset_append_of_subset_right _ (subset_bindingSubexpressions h)

/-- A part of a node is the node or inside it. -/
theorem subset_of_mem_node {part e : Expr} {inner : List Expr} (he : e.subexpressions = e :: inner)
    (hinner : part ∈ inner → part.subexpressions ⊆ inner) (h : part ∈ e.subexpressions) :
    part.subexpressions ⊆ e.subexpressions := by
  rw [he] at h
  rcases List.mem_cons.mp h with rfl | h
  · exact List.Subset.refl _
  · rw [he]
    exact List.subset_cons_of_subset _ (hinner h)

theorem subset_of_mem_append {part : Expr} {es es' : List Expr}
    (hleft : part ∈ es → part.subexpressions ⊆ es)
    (hright : part ∈ es' → part.subexpressions ⊆ es') (h : part ∈ es ++ es') :
    part.subexpressions ⊆ es ++ es' := by
  rcases List.mem_append.mp h with h | h
  · exact List.subset_append_of_subset_left _ (hleft h)
  · exact List.subset_append_of_subset_right _ (hright h)

mutual

/-- What is inside a part of an expression is inside the expression. -/
theorem subset_of_mem {part : Expr} :
    ∀ {e : Expr}, part ∈ e.subexpressions → part.subexpressions ⊆ e.subexpressions
  | .root, h | .parameter, h | .groupKey, h | .constant _, h =>
      List.mem_singleton.mp h ▸ List.Subset.refl _
  | .member _ _, h => subset_of_mem_node rfl (fun h => subset_of_mem h) h
  | .binary _ _ _, h =>
      subset_of_mem_node rfl
        (subset_of_mem_append (fun h => subset_of_mem h) (fun h => subset_of_mem h)) h
  | .unary _ _, h => subset_of_mem_node rfl (fun h => subset_of_mem h) h
  | .call _ _, h => subset_of_mem_node rfl (fun h => subset_of_mem_arguments h) h
  | .lambda _, h => subset_of_mem_node rfl (fun h => subset_of_mem h) h
  | .record _, h => subset_of_mem_node rfl (fun h => subset_of_mem_bindings h) h
  | .entity _, h => subset_of_mem_node rfl (fun h => subset_of_mem_bindings h) h

theorem subset_of_mem_arguments {part : Expr} :
    ∀ {args : List Expr}, part ∈ argumentSubexpressions args →
      part.subexpressions ⊆ argumentSubexpressions args
  | _ :: _, h =>
      subset_of_mem_append (fun h => subset_of_mem h) (fun h => subset_of_mem_arguments h) h

theorem subset_of_mem_bindings {part : Expr} :
    ∀ {bs : List (String × Expr)}, part ∈ bindingSubexpressions bs →
      part.subexpressions ⊆ bindingSubexpressions bs
  | _ :: _, h =>
      subset_of_mem_append (fun h => subset_of_mem h) (fun h => subset_of_mem_bindings h) h

end

theorem subset_of_operand {e e' : Expr} (h : e' ∈ e.operands) :
    e'.subexpressions ⊆ e.subexpressions := by
  cases e with
  | unary op e =>
      rw [operands, List.mem_singleton] at h
      subst h
      exact List.subset_cons_self ..
  | binary op l r =>
      simp only [operands, List.mem_cons, List.not_mem_nil, or_false] at h
      rw [subexpressions]
      refine List.Subset.trans ?_ (List.subset_cons_self ..)
      rcases h with rfl | rfl
      · exact List.subset_append_left ..
      · exact List.subset_append_right ..
  | call method args =>
      exact List.Subset.trans (subset_argumentSubexpressions h) (List.subset_cons_self ..)
  | _ => exact absurd h List.not_mem_nil

theorem subset_of_binding {e e' : Expr} {name : String} (h : (name, e') ∈ e.bindings) :
    e'.subexpressions ⊆ e.subexpressions := by
  cases e with
  | record bs => exact List.Subset.trans (subset_bindingSubexpressions h) (List.subset_cons_self ..)
  | entity bs => exact List.Subset.trans (subset_bindingSubexpressions h) (List.subset_cons_self ..)
  | _ => exact absurd h List.not_mem_nil

end Expr

namespace Context

inductive Places : Expr → Scope → Expr → Scope → Prop
  | operand {e e' : Expr} (s : Scope) (comparison : Option BinaryOp) (h : e' ∈ e.operands) :
      Places e s e' { s with comparison := comparison }
  | argument {method : Method} {args : List Expr} {e' : Expr} {s s' : Scope}
      (h : args[1]? = some e') (hphase : method.argumentPhase? = some s'.phase)
      (hmember : s'.member = none) : Places (.call method args) s e' s'
  | body (e' : Expr) (s : Scope) : Places (.lambda e') s e' (bodyScope s)
  | binding {e e' : Expr} {s : Scope} {name : String} (hphase : s.phase = .binding)
      (h : (name, e') ∈ e.bindings) : Places e s e' (s.assigning name)

/-- Only the argument of a projection has a body of its own kind. -/
theorem bodyScope_eq {s : Scope} (h : s.phase ≠ .select) : bodyScope s = s := if_neg h

theorem bodyScope_of_binding {s : Scope} (h : s.phase = .binding) : bodyScope s = s :=
  bodyScope_eq (h ▸ nofun)

theorem Places.subset {e e' : Expr} {s s' : Scope} (h : Places e s e' s') :
    e'.subexpressions ⊆ e.subexpressions := by
  cases h with
  | operand _ _ h => exact Expr.subset_of_operand h
  | argument h => exact Expr.subset_of_operand (e := .call _ _) (List.mem_of_getElem? h)
  | body => exact List.subset_cons_self ..
  | binding _ h => exact Expr.subset_of_binding h

end Context

end TypedCql
