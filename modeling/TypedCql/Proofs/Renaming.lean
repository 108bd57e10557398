import TypedCql.Proofs.Variants
import TypedCql.Query.Chain

/-!
# Compiling under other names

The compiler does not look into names. For each of its functions, from the binding of a value to a
whole call, a lemma says that it is steady over the variants of a table; `step_steady` puts them
together, and `compile_templated` says what comes of it: a query compiles for all variants of its
table or for none, and the parts that it compiles to are of the same templates.

A query can name the keys of its order by texts of its own. `Expr.OrderConstant` says which texts
these can be, and `Allows` that they are among the names that a visit may write.
-/

namespace TypedCql

/-! ## The names that a query gives itself -/

/-- What a key of the order comes down to under its lambdas and conversions, and under the operators
of a query, if it has any. -/
inductive Expr.ComesDownTo : Expr → Expr → Prop
  | self (e : Expr) : ComesDownTo e e
  | body {e x : Expr} (h : ComesDownTo e x) : ComesDownTo (.lambda e) x
  | converted {e x : Expr} (h : ComesDownTo e x) : ComesDownTo (.unary .convert e) x
  | source {method : Method} {source x : Expr} {rest : List Expr} (hm : method.isOperator = true)
      (h : ComesDownTo source x) : ComesDownTo (.call method (source :: rest)) x

/-- A key of the order has the name for its value. -/
def Expr.OrderConstant (e : Expr) (name : String) : Prop :=
  ∃ method args key x, .call method args ∈ e.subexpressions ∧
    (method.argumentPhase? = some .orderBy ∨ method.argumentPhase? = some .orderByDescending) ∧
    args[1]? = some key ∧ key.ComesDownTo x ∧ x.evaluate = .ok (.text name)

theorem Expr.OrderConstant.of_subset {e e' : Expr} (h : e'.subexpressions ⊆ e.subexpressions)
    {name : String} (hname : e'.OrderConstant name) : e.OrderConstant name := by
  obtain ⟨method, args, key, x, hcall, hkey⟩ := hname
  exact ⟨method, args, key, x, h hcall, hkey⟩

def Scope.Orders (s : Scope) : Prop := s.phase = .orderBy ∨ s.phase = .orderByDescending

/-- If there are keys of the order in the scope, those of the part are keys of the expression. -/
def Scope.Keeps (s : Scope) (e part : Expr) : Prop :=
  s.Orders → ∀ x, part.ComesDownTo x → e.ComesDownTo x

theorem Scope.keeps_of_not_orders {s : Scope} (h : ¬ s.Orders) (e part : Expr) : s.Keeps e part :=
  fun horders => absurd horders h

theorem Scope.not_orders {s : Scope} {p : Phase} (h : s.phase = p)
    (hp : ¬ (p = .orderBy ∨ p = .orderByDescending)) : ¬ s.Orders :=
  fun horders => hp (h ▸ horders)

/-- A visit of the expression in the scope names keys of the order by names of `N` only. -/
structure Allows (N : String → Prop) (e : Expr) (s : Scope) : Prop where
  keys : s.Orders → ∀ x, e.ComesDownTo x → ∀ name, x.evaluate = .ok (.text name) → N name
  constants : ∀ name, e.OrderConstant name → N name

namespace Allows

variable {N : String → Prop} {e e' : Expr} {s : Scope}

/-- Where nothing is ordered, only the keys inside count. -/
theorem elsewhere (h : ∀ name, e.OrderConstant name → N name)
    (hpart : e'.subexpressions ⊆ e.subexpressions) (hs : ¬ s.Orders) : Allows N e' s where
  keys horders := absurd horders hs
  constants name hname := h name (hname.of_subset hpart)

theorem operand (h : Allows N e s) (hmem : e' ∈ e.operands) (hkeeps : s.Keeps e e')
    (comparison : Option BinaryOp) : Allows N e' { s with comparison := comparison } where
  keys horders x hx := h.keys horders x (hkeeps horders x hx)
  constants name hname := h.constants name (hname.of_subset (Expr.subset_of_operand hmem))

/-- The argument of an operator that orders is a key. -/
theorem argument {method : Method} {args : List Expr} {s' : Scope}
    (h : Allows N (.call method args) s) (hargs : args[1]? = some e')
    (hphase : method.argumentPhase? = some s'.phase) : Allows N e' s' where
  keys horders x hx name hname := by
    refine h.constants name ⟨method, args, e', x, Expr.self_mem_subexpressions _, ?_, hargs, hx,
      hname⟩
    rcases horders with horders | horders
    · exact Or.inl (horders ▸ hphase)
    · exact Or.inr (horders ▸ hphase)
  constants name hname :=
    h.constants name (hname.of_subset
      (Expr.subset_of_operand (e := .call method args) (List.mem_of_getElem? hargs)))

theorem body (h : Allows N (.lambda e) s) : Allows N e (Context.bodyScope s) := by
  have hsubset : e.subexpressions ⊆ (Expr.lambda e).subexpressions := List.subset_cons_self ..
  by_cases hselect : s.phase = .select
  · rw [Context.bodyScope, if_pos hselect]
    exact elsewhere h.constants hsubset (Scope.not_orders (p := .binding) rfl (by decide))
  · rw [Context.bodyScope_eq hselect]
    exact ⟨fun horders x hx => h.keys horders x hx.body,
      fun name hname => h.constants name (hname.of_subset hsubset)⟩

end Allows

variable {t₀ : Table} {N : String → Prop}

/-- What a query on the variant is compiled against. -/
def Table.Variant.context (v : t₀.Variant) (kind : StatementKind) : Context :=
  ⟨v.table.mapping, kind⟩

namespace Context

variable {kind : StatementKind} {P : Assertion t₀}

/-! ## Names and values -/

theorem templated_column {col : t₀.Variant → Column} (h : ColumnFamily col) :
    Templated N Anywhere fun v => [.name (v.table.mapping.identifier (col v).name)] := by
  obtain ⟨i, hi, hcol⟩ := h
  refine ⟨[.name (.column i)], .one (.name (.column hi)), trivial, fun v => ?_⟩
  have hname : v.table.nameOf (.column i) = (col v).name := by
    rw [Table.nameOf, hcol v]
    rfl
  rw [List.map_singleton, Template.piece, hname]

theorem templated_order {name : String} (h : N name) :
    Templated N Anywhere fun v : t₀.Variant => [.name (v.table.mapping.identifier name)] :=
  .one (x := .name (.order name)) (.name (.order h)) trivial

theorem templated_valueList (items : List Value) :
    Templated N Anywhere fun _ : t₀.Variant => Fragment.valueList items := by
  have hlisted : Listed N (fun value => [Piece.value value]) fun _ : t₀.Variant => items := by
    refine ⟨items.map fun value _ => value, fun x hx => ?_, fun v => ?_⟩
    · obtain ⟨value, -, rfl⟩ := List.mem_map.mp hx
      exact .value value trivial
    · rw [List.map_map]
      exact (List.map_id items).symm
  exact hlisted.joined (by decide)

/-- Values between two texts. -/
theorem templated_enclosedList {start : String} (h : Plain start) (items : List Value) :
    Templated N Template.Leading fun _ : t₀.Variant =>
      .verbatim start :: (Fragment.valueList items ++ [.verbatim ")"]) := by
  have hitems : Templated N Anywhere fun _ : t₀.Variant => Fragment.valueList items :=
    templated_valueList items
  exact (hitems.append_leading (.text_leading (by decide))).text_cons h

theorem templated_valueFragment (value : Value) :
    Templated N Template.Leading fun _ : t₀.Variant => valueFragment value := by
  have hone : ∀ w : Value, Templated N Template.Leading fun _ : t₀.Variant => [.value w] := by
    intro w
    refine .value w fun x hx => ?_
    rw [List.head?_cons, Option.mem_some_iff] at hx
    exact hx ▸ rfl
  cases value with
  | token items => exact templated_enclosedList (by decide) items
  | _ => exact hone _

theorem mappedColumn_uniform (member : String) (s : Scope) :
    Uniformly ColumnFamily fun v : t₀.Variant => (v.context kind).mappedColumn member s := by
  unfold mappedColumn Table.Variant.context
  rcases column?_family t₀ member with hnone | ⟨col, hcol, hsome⟩
  · simp only [hnone]
    exact .error _
  · simp only [hsome]
    exact .ok hcol

/-- Whether a value can be combined with a column depends on its type alone. -/
theorem checkedKind_unnamed (c : Column) (k : AssignmentKind) :
    (checkedKind c.unnamed k).toOption = (checkedKind c k).toOption := by
  have hcounter : c.unnamed.counter = c.counter := rfl
  have htype : c.unnamed.type = c.type := rfl
  unfold checkedKind
  simp only [hcounter, htype]
  split
  · cases k <;> rfl
  · cases c.type.isList <;> cases c.type.isCollection <;> cases k <;> rfl

theorem checkedKind_uniform {col : t₀.Variant → Column} (h : ColumnFamily col)
    (k : AssignmentKind) : Uniformly Same fun v => checkedKind (col v) k := by
  obtain ⟨x, hx⟩ := h.same (fun c => (checkedKind c k).toOption) fun c => checkedKind_unnamed c k
  exact Uniformly.of_toOption hx

theorem templated_assignment {col : t₀.Variant → Column} (h : ColumnFamily col) (value : Value)
    (k : AssignmentKind) :
    Templated N Anywhere fun v =>
      (Assignment.mk (v.table.mapping.identifier (col v).name) value k).fragment := by
  have hname := templated_column (N := N) h
  have hvalue : Templated N Anywhere fun _ : t₀.Variant => [.value value] := .value value trivial
  have hset {F : t₀.Variant → Fragment} (hF : Templated N Anywhere F) :=
    hname.separated (t := " = ") (by decide) hF
  cases k with
  | assign => exact hset hvalue
  | increment | append => exact hset (hname.separated (t := " + ") (by decide) hvalue)
  | decrement | remove => exact hset (hname.separated (t := " - ") (by decide) hvalue)
  | prepend => exact hset (hvalue.separated (t := " + ") (by decide) hname)

/-- An assignment is made in all variants or in none. -/
theorem assignment_uniform (member : String) (value : Value) (k : AssignmentKind) :
    Uniformly (fun a => Templated N Anywhere fun v => (a v).fragment) fun v : t₀.Variant =>
      (v.context kind).assignment member value k := by
  unfold assignment Table.Variant.context
  by_cases hkind : kind = .select ∨ kind = .count
  · simp only [hkind, if_true]
    exact .error _
  · simp only [hkind, if_false]
    rcases column?_family t₀ member with hnone | ⟨col, hcol, hsome⟩
    · simp only [hnone]
      exact .error _
    · simp only [hsome]
      obtain ⟨counter, hcounter⟩ := hcol.same Column.counter fun _ => rfl
      refine (checkedKind_uniform hcol k).bind fun k' hk' => ?_
      obtain ⟨k', hk'⟩ := hk'
      simp only [hk', hcounter]
      by_cases hinteger : counter = true ∧ value.integer?.isNone = true
      · simp only [if_pos hinteger]
        exact .error _
      · simp only [if_neg hinteger]
        exact .ok (templated_assignment hcol value k')

theorem assign_steady (member : String) (value : Value) (k : AssignmentKind) :
    Steady N P Always fun v : t₀.Variant => (v.context kind).assign member value k := by
  refine steady_given (assignment_uniform (N := N) member value k) fun a ha => ?_
  refine steady_modify fun p hp _ => ⟨?_, trivial⟩
  exact { hp with assignments := hp.assignments.append (.one ha) }

theorem orderKey_steady {i : t₀.Variant → Identifier}
    (h : Templated N Anywhere fun v => [.name (i v)]) (ascending : Bool) :
    Steady N P Always fun v =>
      Step.modify fun p => { p with orderBy := p.orderBy ++ [⟨i v, ascending⟩] } := by
  have hdesc : Templated N Anywhere fun v => .name (i v) :: [.verbatim " DESC"] :=
    h.append_leading (.text_leading (by decide))
  refine steady_modify fun p hp _ => ⟨?_, trivial⟩
  refine { hp with orderBy := hp.orderBy.append (.one ?_) }
  cases ascending with
  | true => exact h
  | false => exact hdesc

theorem fields_steady {f : t₀.Variant → Field} (h : Templated N Anywhere fun v => (f v).fragment) :
    Steady N P Always fun v => Step.modify fun p => { p with fields := p.fields ++ [f v] } :=
  steady_modify fun _ hp _ => ⟨{ hp with fields := hp.fields.append (.one h) }, trivial⟩

/-- A value is put in its place, where it may be the name of a key of the order. -/
theorem bindValue_steady {node : Expr} {s : Scope} {value : Value}
    (h : s.Orders → ∀ name, value = .text name → N name) :
    Steady N P Always fun v : t₀.Variant => (v.context kind).bindValue value node s := by
  unfold bindValue
  cases hphase : s.phase with
  | condition => exact steady_writeFragment_leading s (templated_valueFragment value)
  | take =>
      refine steady_given_same fun n _ => steady_modify fun p hp _ => ⟨?_, trivial⟩
      exact { hp with limit := ⟨some n, fun _ => rfl⟩ }
  | orderBy =>
      cases value with
      | text name => exact orderKey_steady (templated_order (h (Or.inl hphase) name rfl)) _
      | _ => exact steady_fail _
  | orderByDescending =>
      cases value with
      | text name => exact orderKey_steady (templated_order (h (Or.inr hphase) name rfl)) _
      | _ => exact steady_fail _
  | binding =>
      cases s.member with
      | some member => exact assign_steady member value .assign
      | none => exact steady_fail _
  | chain | select | groupBy => exact steady_fail _

theorem fold_steady {node : Expr} {s : Scope} (h : Allows N node s) :
    Steady N P Always fun v : t₀.Variant => (v.context kind).fold node s := by
  unfold fold
  by_cases hrow : s.phase ≠ .condition ∧ node.usesRow = true
  · simp only [if_pos hrow]
    exact steady_fail _
  · simp only [if_neg hrow]
    refine steady_given_same fun value hvalue => bindValue_steady fun horders name hname => ?_
    exact h.keys horders node (.self node) name (hname ▸ hvalue)

/-! ## Members and unary operators -/

theorem memberStep_steady {target : Expr} {member : String} {s : Scope}
    (h : Allows N (.member target member) s) :
    Steady N (ReadyFor N s) Always fun v : t₀.Variant =>
      (v.context kind).memberStep member (.member target member) s := by
  have column {P : Assertion t₀} {st : t₀.Variant → Column → Step}
      (hst : ∀ col, ColumnFamily col → Steady N P Always fun v => st v (col v)) :
      Steady N P Always fun v =>
        Step.given ((v.context kind).mappedColumn member s) (st v) :=
    steady_given (mappedColumn_uniform member s) hst
  unfold memberStep
  cases hrow : (Expr.member target member).rowMember? with
  | none => exact fold_steady h
  | some name =>
      simp only [Option.isNone_some, Bool.false_eq_true, if_false]
      cases hphase : s.phase with
      | condition =>
          refine column fun col hcol => ?_
          exact (steady_writeFragment_ready s (templated_column hcol)).imp
            (fun p hready => hready hphase) fun _ h => h
      | binding =>
          unfold Table.Variant.context
          rcases column?_family t₀ member with hnone | ⟨col, hcol, hsome⟩
          · -- A skipped member is reported, and adds nothing.
            simp only [hnone]
            exact fun p hp _ => .ok ⟨hp, trivial⟩
          · simp only [hsome]
            exact fields_steady (templated_column hcol)
      | orderBy | orderByDescending =>
          exact column fun col hcol => orderKey_steady (templated_column hcol) _
      | groupBy =>
          refine column fun col hcol => steady_modify fun p hp _ => ⟨?_, trivial⟩
          exact { hp with groupBy := hp.groupBy.append (.one (templated_column hcol)) }
      | chain | select | take => exact steady_fail _

/-- A member is a counter in all variants or in none. -/
theorem counterMember?_same (t₀ : Table) (kind : StatementKind) (s : Scope) :
    Same fun v : t₀.Variant => (v.context kind).counterMember? s := by
  have hcounter : ∀ member, Same fun v : t₀.Variant => v.table.mapping.isCounter member := by
    intro member
    unfold Mapping.isCounter
    rcases column?_family t₀ member with hnone | ⟨col, hcol, hsome⟩
    · simp only [hnone]
      exact ⟨false, fun _ => rfl⟩
    · simp only [hsome]
      exact hcol.same Column.counter fun _ => rfl
  cases hmember : s.member with
  | none =>
      refine ⟨none, fun v => ?_⟩
      show s.member.filter v.table.mapping.isCounter = none
      rw [hmember, Option.filter_none]
  | some member =>
      obtain ⟨b, hb⟩ := hcounter member
      refine ⟨if b then some member else none, fun v => ?_⟩
      have hv : v.table.mapping.isCounter member = b := hb v
      show s.member.filter v.table.mapping.isCounter = _
      rw [hmember, Option.filter_some, hv]

/-- A visit of the expression is steady under the names that it is allowed. -/
def SteadyVisits (t₀ : Table) (N : String → Prop) (kind : StatementKind) (e : Expr) : Prop :=
  ∀ s, Allows N e s →
    Steady N (ReadyFor N s) Always fun v : t₀.Variant => (v.context kind).step e s

theorem operand_steady {e e' : Expr} {s : Scope} (h : Allows N e s) (hmem : e' ∈ e.operands)
    (hkeeps : s.Keeps e e') (ih : SteadyVisits t₀ N kind e') (comparison : Option BinaryOp) :
    Steady N (ReadyFor N s) Always fun v : t₀.Variant =>
      (v.context kind).step e' { s with comparison := comparison } :=
  ih _ (h.operand hmem hkeeps comparison)

/-- An operand that is evaluated and assigned. -/
theorem assignOperand_steady (e : Expr) (member : String) (k : AssignmentKind) :
    Steady N P Always fun v : t₀.Variant =>
      Step.given e.evaluate fun value => (v.context kind).assign member value k :=
  steady_given_same fun value _ => assign_steady member value k

theorem unaryStep_steady (op : UnaryOp) {e : Expr} {s : Scope} (h : Allows N (.unary op e) s)
    (ih : SteadyVisits t₀ N kind e) :
    Steady N (ReadyFor N s) Always fun v : t₀.Variant =>
      (v.context kind).unaryStep op ⟨e, (v.context kind).step e⟩ (.unary op e) s := by
  have operand (hkeeps : s.Keeps (.unary op e) e) :=
    operand_steady h (List.mem_singleton_self e) hkeeps ih
  have hfold : Steady N (ReadyFor N s) Always fun v : t₀.Variant =>
      (v.context kind).fold (.unary op e) s := fold_steady h
  obtain ⟨counter, hcounter⟩ := counterMember?_same t₀ kind s
  unfold unaryStep
  -- A conversion, a negation in a condition, and the two signs, which can count.
  cases op with
  | convert => exact operand (fun _ _ hx => hx.converted) s.comparison
  | not =>
      cases hphase : s.phase with
      | condition =>
          by_cases hrow : (Expr.unary .not e).usesRow = true
          · simp only [if_pos hrow]
            have hkeeps := Scope.keeps_of_not_orders (Scope.not_orders hphase (by decide))
            exact steady_write_seq (by decide)
              (steady_seq (operand (hkeeps _ _) none) (steady_write s (by decide)).anyway)
          · simp only [if_neg hrow]
            exact hfold
      | _ => exact hfold
  | negate | plus =>
      cases hphase : s.phase with
      | binding =>
          simp only [hcounter]
          cases counter with
          | some member => exact assignOperand_steady e member _
          | none => exact hfold
      | _ => exact hfold

/-! ## Binary operators -/

theorem plain_of_mem {text : String} (h : text ∈ conditionTexts) : Plain text := by
  have hall : ∀ t ∈ conditionTexts, Plain t := by decide
  exact hall text h

section Binary

variable (op : BinaryOp) {l r : Expr} {s : Scope} (h : Allows N (.binary op l r) s)
  (hl : SteadyVisits t₀ N kind l) (hr : SteadyVisits t₀ N kind r)
include h hl hr

theorem sides_steady (hphase : s.phase = .condition) (comparison : Option BinaryOp) :
    (Steady N (ReadyFor N s) Always fun v : t₀.Variant =>
      (v.context kind).step l { s with comparison := comparison }) ∧
      Steady N (ReadyFor N s) Always fun v : t₀.Variant =>
        (v.context kind).step r { s with comparison := comparison } := by
  have hkeeps := Scope.keeps_of_not_orders (Scope.not_orders hphase (by decide))
  have hleft : l ∈ (Expr.binary op l r).operands := List.mem_cons_self ..
  have hright : r ∈ (Expr.binary op l r).operands :=
    List.mem_cons_of_mem _ (List.mem_singleton_self r)
  exact ⟨operand_steady h hleft (hkeeps _ _) hl comparison,
    operand_steady h hright (hkeeps _ _) hr comparison⟩

theorem relation_steady (hphase : s.phase = .condition) {tag : String}
    (htag : op.cql? = some tag) :
    Steady N (ReadyFor N s) Always fun v : t₀.Variant =>
      relation tag ⟨l, (v.context kind).step l⟩ ⟨r, (v.context kind).step r⟩ s := by
  obtain ⟨hleft, hright⟩ := sides_steady op h hl hr hphase none
  exact steady_seq hleft (steady_write_seq (plain_of_mem (tag_mem_conditionTexts htag)) hright)

theorem conditionBinary_steady (hphase : s.phase = .condition) :
    Steady N (ReadyFor N s) Always fun v : t₀.Variant =>
      (v.context kind).conditionBinary op ⟨l, (v.context kind).step l⟩
        ⟨r, (v.context kind).step r⟩ (.binary op l r) s := by
  unfold conditionBinary
  cases htag : op.cql? with
  | none =>
      by_cases hrow : (Expr.binary op l r).usesRow = true
      · simp only [if_pos hrow]
        exact steady_fail _
      · simp only [if_neg hrow]
        exact fold_steady h
  | some tag =>
      have hsides (op') := sides_steady op h hl hr hphase (some op')
      have hrelation := relation_steady op h hl hr hphase htag
      cases op.inverse? with
      | none => exact hrelation
      | some inverse =>
          by_cases hleft : isThreeWay l = true
          · simp only [if_pos hleft]
            exact steady_given_same fun _ _ => (hsides op).1
          · by_cases hright : isThreeWay r = true
            · simp only [if_neg hleft, if_pos hright]
              exact steady_given_same fun _ _ => (hsides inverse).2
            · simp only [if_neg hleft, if_neg hright]
              exact hrelation

omit hl hr in
theorem bindingBinary_steady :
    Steady N (ReadyFor N s) Always fun v : t₀.Variant =>
      (v.context kind).bindingBinary op ⟨l, (v.context kind).step l⟩
        ⟨r, (v.context kind).step r⟩ (.binary op l r) s := by
  have hfold : Steady N (ReadyFor N s) Always fun v : t₀.Variant =>
      (v.context kind).fold (.binary op l r) s := fold_steady h
  obtain ⟨counter, hcounter⟩ := counterMember?_same t₀ kind s
  unfold bindingBinary
  simp only [hcounter]
  cases counter with
  | none => exact hfold
  | some member =>
      cases countingKind? op with
      | none => exact hfold
      | some k =>
          by_cases hmember : l.withoutConvert.rowMember? = some member
          · simp only [if_pos hmember]
            exact assignOperand_steady r member k
          · simp only [if_neg hmember]
            exact hfold

theorem binaryStep_steady :
    Steady N (ReadyFor N s) Always fun v : t₀.Variant =>
      (v.context kind).binaryStep op ⟨l, (v.context kind).step l⟩
        ⟨r, (v.context kind).step r⟩ (.binary op l r) s := by
  unfold binaryStep
  cases hphase : s.phase with
  | condition => exact conditionBinary_steady op h hl hr hphase
  | binding => exact bindingBinary_steady op h
  | _ => exact fold_steady h

end Binary

/-! ## Calls -/

section Calls

variable {method : Method} {args : List Expr} {s : Scope} (h : Allows N (.call method args) s)
  (ih : ∀ e ∈ args, SteadyVisits t₀ N kind e)

/-- An operand is there in all variants or in none. -/
theorem operandAt_steady {Q : Assertion t₀} {called : Method} {i : Nat}
    {next : t₀.Variant → Operand → Step}
    (hnext : ∀ e, args[i]? = some e →
      Steady N P Q fun v => next v ⟨e, (v.context kind).step e⟩) :
    Steady N P Q fun v =>
      Step.given (operand called ((v.context kind).operands args) i) (next v) := by
  unfold operand
  simp only [operands_eq_map, List.getElem?_map]
  cases he : args[i]? with
  | none => exact fun _ _ _ => .error _
  | some e => exact fun p hp hP => hnext e he p hp hP

include h ih

/-- An operand of a call that keeps the phase of the call. -/
theorem operandStep_steady (called : Method) (i : Nat)
    (hkeeps : ∀ e, args[i]? = some e → s.Keeps (.call method args) e)
    (comparison : Option BinaryOp) :
    Steady N (ReadyFor N s) Always fun v : t₀.Variant =>
      operandStep called ((v.context kind).operands args) i { s with comparison := comparison } :=
  operandAt_steady fun e he =>
    operand_steady (e := .call method args) h (List.mem_of_getElem? he) (hkeeps e he)
      (ih e (List.mem_of_getElem? he)) comparison

/-- The argument of a query operator, in the phase that the operator gives it. -/
theorem argumentStep_steady (called : Method) (s' : Scope)
    (hphase : method.argumentPhase? = some s'.phase) :
    Steady N (ReadyFor N s') Always fun v : t₀.Variant =>
      operandStep called ((v.context kind).operands args) 1 s' :=
  operandAt_steady fun e he =>
    ih e (List.mem_of_getElem? he) s' (h.argument he hphase)

/-- In a condition an operand is never a key of the order. -/
theorem conditionOperand_steady (hphase : s.phase = .condition) {e : Expr} (he : e ∈ args) :
    Steady N (ReadyFor N s) Always fun v : t₀.Variant => (v.context kind).step e s.uncompared :=
  operand_steady (e := .call method args) h he
    (Scope.keeps_of_not_orders (Scope.not_orders hphase (by decide)) _ _) (ih e he) none

theorem containsStep_steady (hphase : s.phase = .condition) :
    Steady N (ReadyFor N s) Always fun v : t₀.Variant =>
      containsStep ((v.context kind).operands args) s := by
  unfold containsStep
  refine operandAt_steady fun collection hc => operandAt_steady fun item hi => ?_
  have operand {e : Expr} {i : Nat} (he : args[i]? = some e) :=
    conditionOperand_steady h ih hphase (List.mem_of_getElem? he)
  by_cases hcolumn : collection.withoutConvert.rowMember?.isSome = true
  · simp only [if_pos hcolumn]
    exact steady_seq (operand hc) (steady_write_seq (by decide) (operand hi))
  · simp only [if_neg hcolumn]
    refine steady_given_same fun value _ => ?_
    cases value.elements? with
    | none => exact steady_fail _
    | some items =>
        exact steady_seq (operand hi)
          (steady_writeFragment_leading s (templated_enclosedList (by decide) items))

theorem containsKeyStep_steady (hphase : s.phase = .condition) :
    Steady N (ReadyFor N s) Always fun v : t₀.Variant =>
      (v.context kind).containsKeyStep ((v.context kind).operands args) (.call method args) s := by
  unfold containsKeyStep
  refine operandAt_steady fun entries he => ?_
  by_cases hcolumn : entries.withoutConvert.rowMember?.isSome = true
  · simp only [if_pos hcolumn]
    exact steady_seq
      (conditionOperand_steady h ih hphase (List.mem_of_getElem? he))
      (steady_write_seq (by decide)
        (operandAt_steady fun e he =>
          conditionOperand_steady h ih hphase (List.mem_of_getElem? he)))
  · simp only [if_neg hcolumn]
    exact fold_steady h

omit h ih in
theorem templated_startsWith {col : t₀.Variant → Column} (h : ColumnFamily col) (start : String) :
    Templated N Anywhere fun v =>
      startsWithFragment (v.table.mapping.identifier (col v).name) start := by
  have hname := templated_column (N := N) h
  have hvalue (value : Value) : Templated N Anywhere fun _ : t₀.Variant => [.value value] :=
    .value value trivial
  exact hname.separated (t := " >= ") (by decide)
    ((hvalue _).separated (t := " AND ") (by decide)
      (hname.separated (t := " < ") (by decide) (hvalue _)))

omit ih in
theorem startsWithStep_steady (hphase : s.phase = .condition) :
    Steady N (ReadyFor N s) Always fun v : t₀.Variant =>
      (v.context kind).startsWithStep ((v.context kind).operands args) (.call method args) s := by
  unfold startsWithStep
  refine operandAt_steady fun subject _ => ?_
  simp only
  cases subject.withoutConvert.rowMember? with
  | none => exact fold_steady h
  | some member =>
      refine operandAt_steady fun start _ => ?_
      refine steady_given_same (o := start.evaluate) fun value _ => ?_
      cases value with
      | text start =>
          refine steady_given (mappedColumn_uniform member s) fun col hcol => ?_
          exact (steady_writeFragment_ready s (templated_startsWith hcol start)).imp
            (fun p hready => hready hphase) fun _ h => h
      | _ => exact steady_fail _

/-- A token lists the columns that it is made of. -/
theorem tokenSteps_steady (hphase : s.phase = .condition) :
    Steady N (ReadyAt N s.target) Always fun v : t₀.Variant =>
      Step.separated s ", " (((v.context kind).operands args).map fun o => o.step s.uncompared) := by
  let steps : List (t₀.Variant → Step) := args.map fun e v => (v.context kind).step e s.uncompared
  have hsteps : ∀ v : t₀.Variant,
      (((v.context kind).operands args).map fun o => o.step s.uncompared) = steps.map (· v) := by
    intro v
    rw [operands_eq_map, List.map_map, List.map_map]
    rfl
  simp only [hsteps]
  refine steady_separated s (by decide) fun st hst => ?_
  obtain ⟨e, he, rfl⟩ := List.mem_map.mp hst
  exact (conditionOperand_steady h ih hphase he).imp (fun _ hready _ => hready) fun _ h => h

theorem conditionCall_steady (hphase : s.phase = .condition) (called : Method) :
    Steady N (ReadyFor N s) Always fun v : t₀.Variant =>
      (v.context kind).conditionCall called ((v.context kind).operands args) (.call method args)
        s := by
  have operand (i : Nat) :=
    operandStep_steady h ih called i (fun _ _ => Scope.keeps_of_not_orders
      (Scope.not_orders hphase (by decide)) _ _) none
  have hfold : Steady N (ReadyFor N s) Always fun v : t₀.Variant =>
      (v.context kind).fold (.call method args) s := fold_steady h
  have compare {text : String} (ht : Plain text) := steady_seq (operand 0)
    (steady_write_seq (s := s) ht (operand 1))
  have enclose {text : String} (ht : Plain text) := steady_write_seq (P := ReadyFor N s) (s := s) ht
    (steady_seq (operand 0) (steady_write s (t := ")") (by decide)).anyway)
  unfold conditionCall
  cases called with
  | contains => exact containsStep_steady h ih hphase
  | containsKey => exact containsKeyStep_steady h ih hphase
  | startsWith => exact startsWithStep_steady h hphase
  | compareTo =>
      cases htag : s.comparison.bind BinaryOp.cql? with
      | none => exact hfold
      | some tag =>
          obtain ⟨op, -, hop⟩ := Option.bind_eq_some_iff.mp htag
          exact compare (plain_of_mem (tag_mem_conditionTexts hop))
  | equals => exact compare (by decide)
  | token =>
      exact steady_seq (steady_write s (by decide))
        (steady_seq (tokenSteps_steady h ih hphase) (steady_write s (by decide)).anyway)
  | maxTimeUuid => exact enclose (by decide)
  | minTimeUuid => exact enclose (by decide)
  | _ => exact hfold

omit ih in
theorem bindingCall_steady (called : Method) :
    Steady N (ReadyFor N s) Always fun v : t₀.Variant =>
      (v.context kind).bindingCall called ((v.context kind).operands args) (.call method args)
        s := by
  unfold bindingCall
  cases combiningKind? called with
  | none => exact fold_steady h
  | some k =>
      cases s.member with
      | none => exact steady_fail _
      | some member => exact operandAt_steady fun e _ => assignOperand_steady e member k

omit h ih in
/-- The fields with the last of them in an aggregate, in all variants or in none. -/
theorem aggregated_uniform {function : String} (hfunction : Plain (function ++ "("))
    (before : Nat) {fields : t₀.Variant → List Field} (h : Listed N Field.fragment fields) :
    (∀ v, aggregated before function (fields v) = none) ∨
      ∃ result : t₀.Variant → List Field, Listed N Field.fragment result ∧
        ∀ v, aggregated before function (fields v) = some (result v) := by
  obtain ⟨l, hl, hfields⟩ := h
  unfold aggregated
  simp only [hfields, ← List.map_drop, ← List.map_take]
  have hmem := fun x hx => hl x (List.mem_of_mem_drop (i := before) hx)
  cases hdrop : l.drop before with
  | nil => exact Or.inl fun _ => rfl
  | cons field rest =>
      cases rest with
      | cons _ _ => exact Or.inl fun _ => rfl
      | nil =>
          have hfield := hmem field (hdrop ▸ List.mem_singleton_self field)
          have hclosed := hfield.append_leading (.text_leading (t := ")") (by decide))
          have haggregate : Templated N Anywhere fun v =>
              (Field.aggregate function (field v)).fragment :=
            (hclosed.text_cons hfunction).anywhere
          have hbefore : Listed N Field.fragment fun v => (l.take before).map (· v) :=
            ⟨l.take before, fun x hx => hl x (List.mem_of_mem_take hx), fun _ => rfl⟩
          exact Or.inr ⟨_, hbefore.append (.one haggregate), fun _ => rfl⟩

omit h ih in
theorem aggregate_plain {function : String} (h : method.aggregate? = some function) :
    Plain (function ++ "(") := by
  cases method <;> simp only [Method.aggregate?, Option.some.injEq, reduceCtorEq] at h <;>
    subst h <;> decide

theorem aggregateStep_steady {function : String} (hm : method.aggregate? = some function) :
    Steady N (ReadyFor N s) Always fun v : t₀.Variant =>
      (v.context kind).aggregateStep method function ((v.context kind).operands args)
        (.call method args) s := by
  unfold aggregateStep
  have hkind : ∀ v : t₀.Variant, (v.context kind).kind = kind := fun _ => rfl
  simp only [hkind]
  by_cases hplace : s.phase = .binding ∧ kind = .select
  · simp only [if_pos hplace, operands_eq_map, List.getElem?_map]
    cases hselector : args[1]? with
    | none =>
        cases method with
        | count => exact fields_steady (f := fun _ => .countAll) (.text (by decide) trivial)
        | _ => exact steady_fail _
    | some selector =>
        have hmem : selector ∈ args := List.mem_of_getElem? hselector
        have hallows : Allows N selector (s.enter .binding) :=
          .elsewhere h.constants (Expr.subset_of_operand (e := .call method args) hmem)
            (Scope.not_orders (p := .binding) rfl (by decide))
        intro p hp hready
        simp only [Option.map_some, Traced.outcome_bind]
        refine (ih selector hmem _ hallows p hp nofun).bind fun q hq => ?_
        obtain ⟨before, hbefore⟩ := hp.fields.length
        simp only [hbefore]
        rcases aggregated_uniform (aggregate_plain hm) before hq.1.fields with
          hnone | ⟨fields, hfields, hsome⟩
        · have hfail : ∀ v, aggregated before function (q v).fields = none := hnone
          simp only [hfail]
          exact .error _
        · have hfound : ∀ v, aggregated before function (q v).fields = some (fields v) := hsome
          simp only [hfound]
          exact .ok ⟨{ hq.1 with fields := hfields }, trivial⟩
  · simp only [if_neg hplace]
    exact steady_fail _

/-- A predicate is joined to the conditions first, so that it can begin with a name. -/
theorem predicateStep_steady (t : ConditionTarget)
    (hphase : method.argumentPhase? = some .condition) :
    Steady N P Always fun v : t₀.Variant =>
      predicateStep method ((v.context kind).operands args) t s :=
  steady_seq (steady_openCondition t)
    ((argumentStep_steady h ih method (s.condition t) hphase).imp
      (fun _ hready _ => hready) fun _ h => h)

/-- The query before an operator, and what the operator adds. -/
theorem operator_steady (hoperator : method.isOperator = true) :
    Steady N (ReadyFor N s) Always fun v : t₀.Variant =>
      (v.context kind).callStep method ((v.context kind).operands args) (.call method args) s := by
  have hquery : Steady N (ReadyFor N s) Always fun v : t₀.Variant =>
      operandStep method ((v.context kind).operands args) 0 s := by
    refine operandStep_steady h ih method 0 (fun e he _ x hx => ?_) s.comparison
    cases args with
    | nil => exact nomatch he
    | cons source rest =>
        rw [List.getElem?_cons_zero, Option.some_inj] at he
        exact .source hoperator (he ▸ hx)
  have argument {phase : Phase} (hphase : method.argumentPhase? = some phase)
      (hne : phase ≠ .condition) :
      Steady N Always Always fun v : t₀.Variant =>
        operandStep method ((v.context kind).operands args) 1 (s.enter phase) :=
    (argumentStep_steady h ih method (s.enter phase) hphase).imp
      (fun _ _ hcondition => absurd hcondition hne) fun _ h => h
  have hlimit : Steady N Always Always fun _ : t₀.Variant =>
      Step.modify fun p => { p with limit := some 1 } :=
    steady_modify fun p hp _ => ⟨{ hp with limit := ⟨some 1, fun _ => rfl⟩ }, trivial⟩
  have hfirst (hphase : method.argumentPhase? = some .condition) :
      Steady N (ReadyFor N s) Always fun v : t₀.Variant =>
        firstStep method ((v.context kind).operands args) s := by
    unfold firstStep
    refine steady_seq hquery (steady_seq ?_ hlimit)
    simp only [operands_eq_map, List.length_map]
    by_cases hpredicate : args.length > 1
    · simp only [if_pos hpredicate]
      simp only [← operands_eq_map]
      exact predicateStep_steady h ih .rows hphase
    · simp only [if_neg hpredicate]
      exact steady_pure
  cases method with
  | filter | updateIf | deleteIf => exact steady_seq hquery (predicateStep_steady h ih _ rfl)
  | select | take | orderBy | thenBy | orderByDescending | thenByDescending | groupBy =>
      exact steady_seq hquery (argument rfl (by decide))
  | allowFiltering =>
      refine steady_seq hquery (steady_modify fun p hp _ => ⟨?_, trivial⟩)
      exact { hp with allowFiltering := ⟨true, fun _ => rfl⟩ }
  | first | firstOrDefault => exact hfirst rfl
  | _ => exact absurd hoperator Bool.false_ne_true

theorem callStep_steady :
    Steady N (ReadyFor N s) Always fun v : t₀.Variant =>
      (v.context kind).callStep method ((v.context kind).operands args) (.call method args) s := by
  cases hoperator : method.isOperator with
  | true => exact operator_steady h ih hoperator
  | false =>
      simp only [callStep_of_not_isOperator s hoperator]
      cases hm : method.aggregate? with
      | some function => exact aggregateStep_steady h ih hm
      | none =>
          cases hphase : s.phase with
          | condition => exact conditionCall_steady h ih hphase method
          | binding => exact bindingCall_steady h method
          | _ => exact steady_fail _

end Calls

/-! ## The walk -/

theorem bindingSteps_steady {e : Expr} {s : Scope} (h : Allows N e s) (hphase : s.phase = .binding)
    (ih : ∀ b ∈ e.bindings, SteadyVisits t₀ N kind b.2) :
    Steady N Always Always fun v : t₀.Variant =>
      Step.sequence ((v.context kind).bindingSteps e.bindings s) := by
  have hsteps : ∀ v : t₀.Variant, (v.context kind).bindingSteps e.bindings s =
      (e.bindings.map fun b (v : t₀.Variant) =>
        (v.context kind).step b.2 (s.assigning b.1)).map (· v) := by
    intro v
    rw [bindingSteps_eq_map, List.map_map]
    rfl
  simp only [hsteps]
  refine steady_sequence fun st hst => ?_
  obtain ⟨b, hb, rfl⟩ := List.mem_map.mp hst
  have hallows : Allows N b.2 (s.assigning b.1) :=
    .elsewhere h.constants (Expr.subset_of_binding hb) (Scope.not_orders hphase (by decide))
  refine (ih b hb _ hallows).imp (fun _ _ hcondition => ?_) fun _ h => h
  exact absurd (hphase.symm.trans hcondition) (by decide)

theorem groupKey_steady (s : Scope) :
    Steady N P Always fun v : t₀.Variant => (v.context kind).step .groupKey s := by
  simp only [step]
  by_cases hphase : s.phase = .binding
  · simp only [if_pos hphase]
    refine steady_modify fun p hp _ => ⟨?_, trivial⟩
    obtain ⟨keys, hkeys, hgroupBy⟩ := hp.groupBy
    have hcolumns : Listed N Field.fragment fun v => (p v).groupBy.map Field.column := by
      refine ⟨keys.map fun key v => .column (key v), fun x hx => ?_, fun v => ?_⟩
      · obtain ⟨key, hkey, rfl⟩ := List.mem_map.mp hx
        exact hkeys key hkey
      · have hkeysAt : (p v).groupBy = keys.map (· v) := hgroupBy v
        show (p v).groupBy.map Field.column = _
        rw [hkeysAt, List.map_map, List.map_map]
        rfl
    exact { hp with fields := hp.fields.append hcolumns }
  · simp only [if_neg hphase]
    exact steady_fail _

mutual

/-- **Visits under other names.** -/
theorem step_steady : ∀ e : Expr, SteadyVisits t₀ N kind e
  | .root, _, _ => steady_pure.anyway
  | .parameter, s, _ => by
      simp only [step]
      by_cases hplace : s.phase = .binding ∧ s.member.isNone = true
      · simp only [if_pos hplace]
        exact steady_pure.anyway
      · simp only [if_neg hplace]
        exact steady_fail _
  | .groupKey, s, _ => groupKey_steady s
  | .member target name, s, h => memberStep_steady h
  | .constant value, s, h =>
      bindValue_steady fun horders name hname =>
        h.keys horders _ (.self _) name (congrArg Except.ok hname)
  | .binary op l r, s, h => binaryStep_steady op h (step_steady l) (step_steady r)
  | .unary op e, s, h => unaryStep_steady op h (step_steady e)
  | .call method args, s, h => callStep_steady h (arguments_steady args)
  | .lambda body, s, h =>
      (step_steady body _ h.body).imp (fun _ hready => hready.body) fun _ h => h
  | .record bs, s, h => by
      simp only [step]
      by_cases hphase : s.phase = .binding
      · simp only [if_pos hphase]
        exact (bindingSteps_steady h hphase (bindings_steady bs)).imp (fun _ _ => trivial)
          fun _ h => h
      · simp only [if_neg hphase]
        exact steady_fail _
  | .entity bs, s, h => by
      simp only [step]
      by_cases hphase : s.phase = .binding
      · simp only [if_pos hphase]
        exact (bindingSteps_steady h hphase (bindings_steady bs)).imp (fun _ _ => trivial)
          fun _ h => h
      · simp only [if_neg hphase]
        exact steady_fail _

theorem arguments_steady : ∀ (args : List Expr), ∀ e ∈ args, SteadyVisits t₀ N kind e
  | [] => List.forall_mem_nil _
  | e :: rest => List.forall_mem_cons.mpr ⟨step_steady e, arguments_steady rest⟩

theorem bindings_steady : ∀ (bs : List (String × Expr)), ∀ b ∈ bs, SteadyVisits t₀ N kind b.2
  | [] => List.forall_mem_nil _
  | (_, e) :: rest => List.forall_mem_cons.mpr ⟨step_steady e, bindings_steady rest⟩

end

/-- A query compiles in all variants of its table or in none, to parts of the same templates. -/
theorem compile_templated (kind : StatementKind) {e : Expr}
    (h : ∀ name, e.OrderConstant name → N name) :
    Uniformly (PartsTemplated N) fun v : t₀.Variant => ((v.context kind).compile e).outcome := by
  have hallows : Allows N e {} := ⟨fun horders => horders.elim nofun nofun, h⟩
  have hready : ReadyFor N {} fun _ : t₀.Variant => {} := nofun
  rcases step_steady e {} hallows _ partsTemplated_empty hready with hfail | ⟨q, ⟨hq, -⟩, hcompile⟩
  · exact Or.inl hfail
  · exact Or.inr ⟨q, hq, hcompile⟩

end Context

end TypedCql
