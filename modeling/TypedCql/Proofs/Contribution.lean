import TypedCql.Proofs.Mapping
import TypedCql.Proofs.Rendering
import TypedCql.Proofs.Subexpressions

/-!
# What compiling can contribute

`c.Adds e s p q` lists, once and for all, the ways in which a visit of the expression `e` in the
scope `s` can take the parts `p` of a statement to `q`: pieces at the end of some conditions, a
field, a key, a limit, the permission to filter, an assignment that passed its checks, an aggregate
around the one field that a selector contributed, and what the parts of `e` add in their places.
`step_adds` says that there is no other way. What holds of every compiled statement is then proved
by induction on `Adds`, one case for each contribution, and never by going through the compiler
again.
-/

namespace TypedCql

/-- The fixed texts of conditions. -/
def conditionTexts : List String :=
  [" AND ", " = ", " <> ", " > ", " >= ", " < ", " <= ", "NOT (", "token(", "maxtimeuuid(",
    "mintimeuuid(", ")", ", ", " CONTAINS ", " CONTAINS KEY ", " IN ("]

/-- What a condition is made of: fixed texts, the names of mapped columns, and values. -/
inductive ConditionPiece (m : Mapping) : Piece → Prop
  | text {t : String} (h : t ∈ conditionTexts) : ConditionPiece m (.verbatim t)
  | name {col : Column} (h : col ∈ m.columns) : ConditionPiece m (.name (m.identifier col.name))
  | value (v : Value) : ConditionPiece m (.value v)

namespace Context

/-- `c.Adds e s p q`: a visit of `e` in the scope `s` can take `p` to `q`. -/
inductive Adds (c : Context) : Expr → Scope → Parts → Parts → Prop
  | refl (e : Expr) (s : Scope) (p : Parts) : Adds c e s p p
  | trans {e : Expr} {s : Scope} {p q r : Parts} :
      Adds c e s p q → Adds c e s q r → Adds c e s p r
  | within {e e' : Expr} {s s' : Scope} {p q : Parts} (place : Places e s e' s') :
      Adds c e' s' p q → Adds c e s p q
  | condition {e : Expr} {s : Scope} (p : Parts) (t : ConditionTarget) {f : Fragment}
      (h : ∀ piece ∈ f, ConditionPiece c.mapping piece) : Adds c e s p (p.addCondition t f)
  | column {s : Scope} (p : Parts) {name : String} {col : Column} (hphase : s.phase = .binding)
      (h : c.mapping.column? name = some col) :
      Adds c (.column name) s p
        { p with fields := p.fields ++ [.column (c.mapping.identifier col.name)] }
  | countAll {s : Scope} (p : Parts) {args : List Expr} (hphase : s.phase = .binding)
      (hkind : c.kind = .select) :
      Adds c (.call .count args) s p { p with fields := p.fields ++ [.countAll] }
  | groupKeys {s : Scope} (p : Parts) (hphase : s.phase = .binding) :
      Adds c .groupKey s p { p with fields := p.fields ++ p.groupBy.map .column }
  | orderKey {e : Expr} {s : Scope} (p : Parts) (name : String) (ascending : Bool) :
      Adds c e s p
        { p with orderBy := p.orderBy ++ [⟨c.mapping.identifier name, ascending⟩] }
  | groupKey {s : Scope} (p : Parts) {name : String} {col : Column} (hphase : s.phase = .groupBy)
      (h : c.mapping.column? name = some col) :
      Adds c (.column name) s p
        { p with groupBy := p.groupBy ++ [c.mapping.identifier col.name] }
  | limit {e : Expr} {s : Scope} (p : Parts) (n : Int32) : Adds c e s p { p with limit := some n }
  | filtering {e : Expr} {s : Scope} (p : Parts) : Adds c e s p { p with allowFiltering := true }
  | assignment {e : Expr} {s : Scope} (p : Parts) {member : String} {v : Value}
      {kind : AssignmentKind} {a : Assignment} (hphase : s.phase = .binding)
      (hmember : s.member = some member) (h : c.assignment member v kind = .ok a) :
      Adds c e s p { p with assignments := p.assignments ++ [a] }
  -- The selector is a premise: the field that the aggregate takes in is one of the selector's own.
  | aggregate {s : Scope} {p q : Parts} {method : Method} {args : List Expr} {selector : Expr}
      {function : String} {fields : List Field} (hphase : s.phase = .binding)
      (hkind : c.kind = .select) (hsel : args[1]? = some selector)
      (h : Adds c selector (s.enter .binding) p q) (hm : method.aggregate? = some function)
      (hf : aggregated p.fields.length function q.fields = some fields) :
      Adds c (.call method args) s p { q with fields := fields }

/-- Whatever the step leaves, a visit of `e` can leave it. -/
def Adding (c : Context) (e : Expr) (s : Scope) (st : Step) : Prop :=
  ∀ p q, st.Yields p q → c.Adds e s p q

section Combinators

variable {c : Context} {e : Expr} {s : Scope} {st first next : Step}

theorem adding_pure : c.Adding e s Traced.pure := by
  intro p q h
  rw [Step.yields_pure] at h
  exact h ▸ .refl e s p

theorem adding_fail (err : Error) : c.Adding e s (Step.fail err) :=
  fun _ _ h => (Step.yields_fail.mp h).elim

theorem adding_unsupported (node : Expr) (s' : Scope) : c.Adding e s (Step.unsupported node s') :=
  adding_fail _

theorem adding_modify {f : Parts → Parts} (h : ∀ p, c.Adds e s p (f p)) :
    c.Adding e s (Step.modify f) := by
  intro p q hq
  rw [Step.yields_modify] at hq
  exact hq ▸ h p

theorem adding_given {α : Type} {o : Outcome α} {k : α → Step}
    (h : ∀ a, o = .ok a → c.Adding e s (k a)) : c.Adding e s (Step.given o k) := by
  intro p q hq
  obtain ⟨a, ha, hk⟩ := Step.yields_given.mp hq
  exact h a ha p q hk

theorem adding_seq (hf : c.Adding e s first) (hn : c.Adding e s next) :
    c.Adding e s (first >=> next) := by
  intro p r h
  obtain ⟨q, hpq, hqr⟩ := Step.yields_seq.mp h
  exact .trans (hf p q hpq) (hn q r hqr)

theorem adding_sequence {steps : List Step} (h : ∀ st ∈ steps, c.Adding e s st) :
    c.Adding e s (Step.sequence steps) :=
  Step.sequence_relates (.refl e s) .trans h

/-- What a part of the node adds, the node adds. -/
theorem adding_within {e' : Expr} {s' : Scope} (place : Places e s e' s')
    (h : c.Adding e' s' st) : c.Adding e s st :=
  fun p q hq => .within place (h p q hq)

theorem adding_writeFragment (s' : Scope) {f : Fragment}
    (h : ∀ piece ∈ f, ConditionPiece c.mapping piece) :
    c.Adding e s (Step.writeFragment s' f) :=
  adding_modify fun p => .condition p s'.target h

theorem adding_write (s' : Scope) {text : String} (h : text ∈ conditionTexts) :
    c.Adding e s (Step.write s' text) := by
  refine adding_writeFragment s' fun piece hp => ?_
  rw [List.mem_singleton] at hp
  exact hp ▸ .text h

theorem adding_separated (s' : Scope) {separator : String} (hsep : separator ∈ conditionTexts) :
    ∀ {steps : List Step}, (∀ st ∈ steps, c.Adding e s st) →
      c.Adding e s (Step.separated s' separator steps)
  | [], _ => adding_pure
  | [st], h => h st (List.mem_cons_self ..)
  | st :: _ :: _, h =>
      adding_seq (h st (List.mem_cons_self ..)) (adding_seq (adding_write s' hsep)
        (adding_separated s' hsep fun st' hst' => h st' (List.mem_cons_of_mem _ hst')))

theorem adding_openCondition (t : ConditionTarget) : c.Adding e s (Step.openCondition t) := by
  refine adding_modify fun p => ?_
  split
  · exact .refl e s p
  · refine .condition p t fun piece hp => ?_
    rw [List.mem_singleton] at hp
    exact hp ▸ .text (by decide)

end Combinators

/-! ## The pieces that a value becomes -/

theorem valueList_pieces (m : Mapping) (items : List Value) :
    ∀ piece ∈ Fragment.valueList items, ConditionPiece m piece := by
  intro piece hp
  rcases Fragment.mem_joined hp with rfl | ⟨f, hf, hpf⟩
  · exact .text (by decide)
  · obtain ⟨v, -, rfl⟩ := List.mem_map.mp hf
    rw [List.mem_singleton] at hpf
    exact hpf ▸ .value v

/-- A list of values between two texts. -/
theorem enclosedList_pieces (m : Mapping) (items : List Value) {start : String}
    (h : start ∈ conditionTexts) :
    ∀ piece ∈ Piece.verbatim start :: (Fragment.valueList items ++ [.verbatim ")"]),
      ConditionPiece m piece := by
  intro piece hp
  rw [List.mem_cons, List.mem_append, List.mem_singleton] at hp
  rcases hp with rfl | hp | rfl
  · exact .text h
  · exact valueList_pieces m items piece hp
  · exact .text (by decide)

theorem valueFragment_pieces (m : Mapping) (v : Value) :
    ∀ piece ∈ valueFragment v, ConditionPiece m piece := by
  cases v with
  | token items => exact enclosedList_pieces m items (by decide)
  | _ =>
      intro piece hp
      rw [valueFragment, List.mem_singleton] at hp
      · exact hp ▸ .value _
      · simp

theorem startsWithFragment_pieces {m : Mapping} {col : Column} (h : col ∈ m.columns)
    (start : String) :
    ∀ piece ∈ startsWithFragment (m.identifier col.name) start, ConditionPiece m piece := by
  intro piece hp
  simp only [startsWithFragment, List.mem_cons, List.not_mem_nil, or_false] at hp
  rcases hp with rfl | rfl | rfl | rfl | rfl | rfl | rfl
  · exact .name h
  · exact .text (by decide)
  · exact .value _
  · exact .text (by decide)
  · exact .name h
  · exact .text (by decide)
  · exact .value _

theorem tag_mem_conditionTexts {op : BinaryOp} {tag : String} (h : op.cql? = some tag) :
    " " ++ tag ++ " " ∈ conditionTexts := by
  cases op <;> simp only [BinaryOp.cql?, Option.some.injEq, reduceCtorEq] at h <;> subst h <;>
    decide

/-! ## Columns and values -/

variable (c : Context)

theorem mappedColumn_eq_ok {member : String} {s : Scope} {col : Column}
    (h : c.mappedColumn member s = .ok col) : c.mapping.column? member = some col := by
  unfold mappedColumn at h
  split at h
  · next hc => exact Except.ok.inj h ▸ hc
  · exact nomatch h

theorem mappedColumn_mem {member : String} {s : Scope} {col : Column}
    (h : c.mappedColumn member s = .ok col) : col ∈ c.mapping.columns :=
  Mapping.column?_mem (c.mappedColumn_eq_ok h)

/-- An assignment that is made has passed every check: the statement is a change, the member is
mapped, the column can be combined with the value, and a counter counts by an integer. -/
theorem assignment_eq_ok {c : Context} {member : String} {v : Value} {kind : AssignmentKind}
    {a : Assignment} (h : c.assignment member v kind = .ok a) :
    ¬(c.kind = .select ∨ c.kind = .count) ∧
      ∃ col kind', c.mapping.column? member = some col ∧ checkedKind col kind = .ok kind' ∧
        ¬(col.counter = true ∧ v.integer?.isNone = true) ∧
        a = ⟨c.mapping.identifier col.name, v, kind'⟩ := by
  unfold assignment at h
  dsimp only at h
  split at h
  · exact nomatch h
  · next hkind =>
      refine ⟨hkind, ?_⟩
      cases hcol : c.mapping.column? member with
      | none =>
          rw [hcol] at h
          exact nomatch h
      | some col =>
          simp only [hcol] at h
          obtain ⟨kind', hchecked, h⟩ := Outcome.bind_eq_ok.mp h
          split at h
          · exact nomatch h
          · next hcounter =>
              exact ⟨col, kind', rfl, hchecked, hcounter, (Except.ok.inj h).symm⟩

theorem assign_adding {e : Expr} {s : Scope} {member : String} (hphase : s.phase = .binding)
    (hmember : s.member = some member) (v : Value) (kind : AssignmentKind) :
    c.Adding e s (c.assign member v kind) :=
  adding_given fun _ ha => adding_modify fun p => .assignment p hphase hmember ha

theorem bindValue_adding (v : Value) (node e : Expr) (s : Scope) :
    c.Adding e s (c.bindValue v node s) := by
  -- A condition, a limit, keys of either order, an assignment; elsewhere a value means nothing.
  unfold bindValue
  split
  · exact adding_writeFragment s (valueFragment_pieces _ v)
  · exact adding_given fun n _ => adding_modify fun p => .limit p n
  · split
    · exact adding_modify fun p => .orderKey p _ _
    · exact adding_unsupported node s
  · split
    · exact adding_modify fun p => .orderKey p _ _
    · exact adding_unsupported node s
  · next hphase =>
      split
      · next hmember => exact c.assign_adding hphase hmember v _
      · exact adding_unsupported node s
  · exact adding_unsupported node s

theorem fold_adding (node e : Expr) (s : Scope) : c.Adding e s (c.fold node s) := by
  unfold fold
  split
  · exact adding_unsupported node s
  · exact adding_given fun v _ => c.bindValue_adding v node e s

theorem memberStep_adding (target : Expr) (member : String) (s : Scope) :
    c.Adding (.member target member) s (c.memberStep member (.member target member) s) := by
  unfold memberStep
  split
  · exact c.fold_adding _ _ s
  · next hrow =>
      obtain rfl : target = .parameter := by
        cases target <;> first | rfl | exact absurd rfl hrow
      -- A condition, a projection, keys of either order, a grouping.
      split
      · refine adding_given fun col hcol => adding_writeFragment s fun piece hp => ?_
        rw [List.mem_singleton] at hp
        exact hp ▸ .name (c.mappedColumn_mem hcol)
      · next hphase =>
          split
          · next hcol => exact adding_modify fun p => .column p hphase hcol
          · -- A skipped member is reported, and adds nothing.
            intro p q h
            obtain ⟨_, _, hq⟩ := Traced.bind_eq_ok.mp h
            exact Except.ok.inj hq ▸ .refl _ s p
      · exact adding_given fun col _ => adding_modify fun p => .orderKey p _ _
      · exact adding_given fun col _ => adding_modify fun p => .orderKey p _ _
      · next hphase =>
          exact adding_given fun col hcol =>
            adding_modify fun p => .groupKey p hphase (c.mappedColumn_eq_ok hcol)
      · exact adding_unsupported _ s

/-! ## Operators -/

/-- The step of an expression adds what a visit of the expression can add. -/
def AddingAnywhere (e : Expr) : Prop := ∀ s, c.Adding e s (c.step e s)

variable {c}

/-- An operand adds on behalf of its node, whatever comparison is around it. -/
theorem operand_adding {e e' : Expr} (h : e' ∈ e.operands) (ih : c.AddingAnywhere e') (s : Scope)
    (comparison : Option BinaryOp) :
    c.Adding e s (c.step e' { s with comparison := comparison }) :=
  adding_within (.operand s comparison h) (ih _)

/-- The member whose counter changes is the one that the scope assigns to. -/
theorem counterMember?_eq_some {s : Scope} {member : String}
    (h : c.counterMember? s = some member) : s.member = some member :=
  (Option.filter_eq_some_iff.mp h).1

theorem unaryStep_adding (op : UnaryOp) {e : Expr} (he : c.AddingAnywhere e) (s : Scope) :
    c.Adding (.unary op e) s (c.unaryStep op ⟨e, c.step e⟩ (.unary op e) s) := by
  have operand := operand_adding (e := .unary op e) (List.mem_singleton_self e) he s
  -- A conversion, a negation in a condition, and the two signs, which can count.
  unfold unaryStep
  split
  · exact operand s.comparison
  · split
    · exact adding_seq (adding_write s (by decide))
        (adding_seq (operand none) (adding_write s (by decide)))
    · exact c.fold_adding _ _ s
  · next hphase =>
      split
      · next hcounter =>
          exact adding_given fun v _ =>
            c.assign_adding hphase (counterMember?_eq_some hcounter) v _
      · exact c.fold_adding _ _ s
  · next hphase =>
      split
      · next hcounter =>
          exact adding_given fun v _ =>
            c.assign_adding hphase (counterMember?_eq_some hcounter) v _
      · exact c.fold_adding _ _ s
  · exact c.fold_adding _ _ s

section Binary

variable (op : BinaryOp) {l r : Expr} (hl : c.AddingAnywhere l) (hr : c.AddingAnywhere r)
  (s : Scope)
include hl hr

theorem relation_adding {tag : String} (htag : op.cql? = some tag) :
    c.Adding (.binary op l r) s (relation tag ⟨l, c.step l⟩ ⟨r, c.step r⟩ s) :=
  adding_seq (operand_adding (List.mem_cons_self ..) hl s none)
    (adding_seq (adding_write s (tag_mem_conditionTexts htag))
      (operand_adding (List.mem_cons_of_mem _ (List.mem_singleton_self r)) hr s none))

theorem conditionBinary_adding :
    c.Adding (.binary op l r) s
      (c.conditionBinary op ⟨l, c.step l⟩ ⟨r, c.step r⟩ (.binary op l r) s) := by
  unfold conditionBinary
  split
  · split
    · exact adding_unsupported _ s
    · exact c.fold_adding _ _ s
  · next htag =>
      split
      · exact relation_adding op hl hr s htag
      · split
        · exact adding_given fun _ _ => operand_adding (List.mem_cons_self ..) hl s _
        · split
          · exact adding_given fun _ _ =>
              operand_adding (List.mem_cons_of_mem _ (List.mem_singleton_self r)) hr s _
          · exact relation_adding op hl hr s htag

omit hl hr in
theorem bindingBinary_adding (hphase : s.phase = .binding) :
    c.Adding (.binary op l r) s
      (c.bindingBinary op ⟨l, c.step l⟩ ⟨r, c.step r⟩ (.binary op l r) s) := by
  unfold bindingBinary
  split
  · next hcounter _ =>
      split
      · exact adding_given fun v _ =>
          c.assign_adding hphase (counterMember?_eq_some hcounter) v _
      · exact c.fold_adding _ _ s
  · exact c.fold_adding _ _ s

theorem binaryStep_adding :
    c.Adding (.binary op l r) s
      (c.binaryStep op ⟨l, c.step l⟩ ⟨r, c.step r⟩ (.binary op l r) s) := by
  unfold binaryStep
  split
  · exact conditionBinary_adding op hl hr s
  · next hphase => exact bindingBinary_adding op s hphase
  · exact c.fold_adding _ _ s

end Binary

/-! ## Calls -/

section Calls

theorem operands_eq_map (c : Context) :
    ∀ args : List Expr, c.operands args = args.map fun e => ⟨e, c.step e⟩
  | [] => rfl
  | e :: rest => by rw [operands, operands_eq_map c rest, List.map_cons]

theorem operand_eq_ok {method : Method} {args : List Expr} {i : Nat} {o : Operand}
    (h : operand method (c.operands args) i = .ok o) :
    ∃ e, args[i]? = some e ∧ o = ⟨e, c.step e⟩ := by
  unfold operand at h
  rw [operands_eq_map, List.getElem?_map] at h
  cases he : args[i]? with
  | none =>
      rw [he] at h
      exact nomatch h
  | some e =>
      rw [he] at h
      exact ⟨e, rfl, (Except.ok.inj h).symm⟩

variable {method : Method} {args : List Expr} (h : ∀ e ∈ args, c.AddingAnywhere e) (s : Scope)
include h

/-- An operand of a call that keeps the phase of the call. -/
theorem operandAt_adding {called : Method} {i : Nat} {o : Operand} (comparison : Option BinaryOp)
    (ho : operand called (c.operands args) i = .ok o) :
    c.Adding (.call method args) s (o.step { s with comparison := comparison }) := by
  obtain ⟨e, he, rfl⟩ := operand_eq_ok ho
  have hmem : e ∈ args := List.mem_of_getElem? he
  exact operand_adding (e := .call method args) hmem (h e hmem) s comparison

theorem operandStep_adding (called : Method) (i : Nat) (comparison : Option BinaryOp) :
    c.Adding (.call method args) s
      (operandStep called (c.operands args) i { s with comparison := comparison }) :=
  adding_given fun _ ho => operandAt_adding h s comparison ho

/-- The argument of a query operator, in the phase that the operator gives it. -/
theorem argumentStep_adding (called : Method) {s' : Scope}
    (hphase : method.argumentPhase? = some s'.phase) (hmember : s'.member = none) :
    c.Adding (.call method args) s (operandStep called (c.operands args) 1 s') := by
  refine adding_given fun o ho => ?_
  obtain ⟨e, he, rfl⟩ := operand_eq_ok ho
  exact adding_within (.argument he hphase hmember) (h e (List.mem_of_getElem? he) s')

theorem containsStep_adding :
    c.Adding (.call method args) s (containsStep (c.operands args) s) := by
  refine adding_given fun collection hc => adding_given fun item hi => ?_
  split
  · exact adding_seq (operandAt_adding h s none hc)
      (adding_seq (adding_write s (by decide)) (operandAt_adding h s none hi))
  · refine adding_given fun v _ => ?_
    split
    · exact adding_fail _
    · exact adding_seq (operandAt_adding h s none hi)
        (adding_writeFragment s (enclosedList_pieces _ _ (by decide)))

theorem containsKeyStep_adding (node : Expr) :
    c.Adding (.call method args) s (c.containsKeyStep (c.operands args) node s) := by
  refine adding_given fun entries he => ?_
  split
  · exact adding_seq (operandAt_adding h s none he)
      (adding_seq (adding_write s (by decide)) (operandStep_adding h s _ 1 none))
  · exact c.fold_adding node _ s

omit h in
theorem startsWithStep_adding (e : Expr) (operands : List Operand) (node : Expr) :
    c.Adding e s (c.startsWithStep operands node s) := by
  refine adding_given fun subject _ => ?_
  split
  · exact c.fold_adding node e s
  · refine adding_given fun start _ => adding_given fun v _ => ?_
    split
    · exact adding_given fun col hcol =>
        adding_writeFragment s (startsWithFragment_pieces (c.mappedColumn_mem hcol) _)
    · exact adding_fail _

theorem conditionCall_adding (called : Method) (node : Expr) :
    c.Adding (.call method args) s (c.conditionCall called (c.operands args) node s) := by
  unfold conditionCall
  split
  · exact containsStep_adding h s
  · exact containsKeyStep_adding h s node
  · exact startsWithStep_adding s _ _ node
  · split
    · exact c.fold_adding node _ s
    · next htag =>
        obtain ⟨op, -, hop⟩ := Option.bind_eq_some_iff.mp htag
        exact adding_seq (operandStep_adding h s _ 0 none)
          (adding_seq (adding_write s (tag_mem_conditionTexts hop))
            (operandStep_adding h s _ 1 none))
  · exact adding_seq (operandStep_adding h s _ 0 none)
      (adding_seq (adding_write s (by decide)) (operandStep_adding h s _ 1 none))
  · -- A token lists the columns it is made of.
    refine adding_seq (adding_write s (by decide))
      (adding_seq (adding_separated s (by decide) fun st hst => ?_) (adding_write s (by decide)))
    rw [operands_eq_map, List.map_map] at hst
    obtain ⟨e, he, rfl⟩ := List.mem_map.mp hst
    exact operand_adding (e := .call method args) he (h e he) s none
  · exact adding_seq (adding_write s (by decide))
      (adding_seq (operandStep_adding h s _ 0 none) (adding_write s (by decide)))
  · exact adding_seq (adding_write s (by decide))
      (adding_seq (operandStep_adding h s _ 0 none) (adding_write s (by decide)))
  · exact c.fold_adding node _ s

omit h in
theorem bindingCall_adding (e : Expr) (called : Method) (operands : List Operand) (node : Expr)
    (hphase : s.phase = .binding) : c.Adding e s (c.bindingCall called operands node s) := by
  unfold bindingCall
  split
  · exact c.fold_adding node e s
  · split
    · exact adding_unsupported node s
    · next hmember =>
        exact adding_given fun o _ => adding_given fun v _ => c.assign_adding hphase hmember v _

theorem aggregateStep_adding {function : String} (hm : method.aggregate? = some function)
    (node : Expr) :
    c.Adding (.call method args) s
      (c.aggregateStep method function (c.operands args) node s) := by
  unfold aggregateStep
  split
  · next hplace =>
      rw [operands_eq_map, List.getElem?_map]
      cases hsel : args[1]? with
      | none =>
          simp only [Option.map_none]
          split
          · exact adding_modify fun p => .countAll p hplace.1 hplace.2
          · exact adding_unsupported node s
      | some selector =>
          intro p r hr
          obtain ⟨q, hq, hrest⟩ := Traced.bind_eq_ok.mp hr
          have hpq : c.Adds selector (s.enter .binding) p q :=
            h selector (List.mem_of_getElem? hsel) _ p q hq
          split at hrest
          · next hfields =>
              exact Except.ok.inj hrest ▸ .aggregate hplace.1 hplace.2 hsel hpq hm hfields
          · exact nomatch hrest
  · exact adding_unsupported node s

/-- A query operator visits the query that it continues, and then adds its own. -/
theorem operator_adding (hoperator : method.isOperator = true) (node : Expr) :
    ∃ next, c.callStep method (c.operands args) node s =
        (operandStep method (c.operands args) 0 s >=> next) ∧
      c.Adding (.call method args) s next := by
  have predicate (t : ConditionTarget) (hphase : method.argumentPhase? = some .condition) :
      c.Adding (.call method args) s (predicateStep method (c.operands args) t s) :=
    adding_seq (adding_openCondition t) (argumentStep_adding h s method hphase rfl)
  have argument {phase : Phase} (hphase : method.argumentPhase? = some phase) :
      c.Adding (.call method args) s (operandStep method (c.operands args) 1 (s.enter phase)) :=
    argumentStep_adding h s method hphase rfl
  cases method with
  | filter | updateIf | deleteIf => exact ⟨_, rfl, predicate _ rfl⟩
  | select | take | orderBy | thenBy | orderByDescending | thenByDescending | groupBy =>
      exact ⟨_, rfl, argument rfl⟩
  | allowFiltering => exact ⟨_, rfl, adding_modify fun p => .filtering p⟩
  | first | firstOrDefault =>
      refine ⟨_, rfl, adding_seq ?_ (adding_modify fun p => .limit p 1)⟩
      split
      · exact predicate _ rfl
      · exact adding_pure
  | _ => exact absurd hoperator Bool.false_ne_true

omit h in
/-- A method that continues no query is an aggregate, or means something to its phase. -/
theorem callStep_of_not_isOperator {operands : List Operand} (h : method.isOperator = false)
    (node : Expr) :
    c.callStep method operands node s =
      match method.aggregate? with
      | some function => c.aggregateStep method function operands node s
      | none =>
        match s.phase with
        | .condition => c.conditionCall method operands node s
        | .binding => c.bindingCall method operands node s
        | _ => Step.unsupported node s := by
  cases method <;> first | rfl | exact absurd h.symm Bool.false_ne_true

theorem callStep_adding (node : Expr) :
    c.Adding (.call method args) s (c.callStep method (c.operands args) node s) := by
  cases hoperator : method.isOperator with
  | true =>
      obtain ⟨next, hstep, hnext⟩ := operator_adding h s hoperator node
      rw [hstep]
      exact adding_seq (operandStep_adding h s method 0 s.comparison) hnext
  | false =>
      rw [callStep_of_not_isOperator s hoperator]
      split
      · next hm => exact aggregateStep_adding h s hm node
      · split
        · exact conditionCall_adding h s _ node
        · next hphase => exact bindingCall_adding s _ _ _ node hphase
        · exact adding_unsupported node s

end Calls

/-! ## The walk -/

variable (c)

theorem bindingSteps_eq_map (c : Context) (s : Scope) :
    ∀ bs : List (String × Expr),
      c.bindingSteps bs s = bs.map fun b => c.step b.2 (s.assigning b.1)
  | [] => rfl
  | (_, _) :: rest => by rw [bindingSteps, bindingSteps_eq_map c s rest, List.map_cons]

/-- Bindings add on behalf of the projection that they are part of. -/
theorem bindingSteps_adding {e : Expr} {s : Scope} (hphase : s.phase = .binding)
    (h : ∀ b ∈ e.bindings, c.AddingAnywhere b.2) :
    c.Adding e s (Step.sequence (c.bindingSteps e.bindings s)) := by
  refine adding_sequence fun st hst => ?_
  rw [bindingSteps_eq_map] at hst
  obtain ⟨b, hb, rfl⟩ := List.mem_map.mp hst
  exact adding_within (.binding hphase hb) (h b hb _)

mutual

/-- **Contribution.** Every visit that goes through takes the parts it found to the parts it leaves
by contributions alone. -/
theorem step_adds : ∀ e : Expr, c.AddingAnywhere e
  | .root, _ => adding_pure
  | .parameter, s => by
      rw [step]
      split
      · exact adding_pure
      · exact adding_unsupported _ s
  | .groupKey, s => by
      rw [step]
      split
      · next hphase => exact adding_modify fun p => .groupKeys p hphase
      · exact adding_unsupported _ s
  | .member target name, s => c.memberStep_adding target name s
  | .constant v, s => c.bindValue_adding v _ _ s
  | .binary op l r, s => binaryStep_adding op (step_adds l) (step_adds r) s
  | .unary op e, s => unaryStep_adding op (step_adds e) s
  | .call method args, s => callStep_adding (arguments_add args) s (.call method args)
  | .lambda body, s => adding_within (.body body s) (step_adds body (bodyScope s))
  | .record bs, s => by
      rw [step]
      split
      · next hphase => exact bindingSteps_adding c (e := .record bs) hphase (bindings_add bs)
      · exact adding_unsupported _ s
  | .entity bs, s => by
      rw [step]
      split
      · next hphase => exact bindingSteps_adding c (e := .entity bs) hphase (bindings_add bs)
      · exact adding_unsupported _ s

theorem arguments_add : ∀ (args : List Expr), ∀ e ∈ args, c.AddingAnywhere e
  | [] => List.forall_mem_nil _
  | e :: rest => List.forall_mem_cons.mpr ⟨step_adds e, arguments_add rest⟩

theorem bindings_add : ∀ (bs : List (String × Expr)), ∀ b ∈ bs, c.AddingAnywhere b.2
  | [] => List.forall_mem_nil _
  | (_, e) :: rest => List.forall_mem_cons.mpr ⟨step_adds e, bindings_add rest⟩

end

theorem compile_adds {e : Expr} {p : Parts} (h : (c.compile e).outcome = .ok p) :
    c.Adds e {} {} p :=
  c.step_adds e {} {} p h

end Context

end TypedCql
