import TypedCql.Drafting.Compile
import TypedCql.Proofs.Contribution

/-!
# The walk on drafts

Parts are rendered in a mode part by part: conditions to drafts, and everything else to its text.
The walk that writes text at once is then the walk on fragments, rendered: a step on drafts
`Renders` a step on fragments if from rendered parts it comes to rendered parts, to the same error
where there is one, and reports the same events. There is one lemma for each way in which steps are
put together, and `step_renders` is the induction over the expression.
-/

namespace TypedCql

/-! ## Drafts -/

namespace Draft

theorem bindList_eq (d : Draft) (items : List Value) :
    d.bindList items = d.extend (Fragment.valueList items) := by
  cases items with
  | nil => rfl
  | cons v rest =>
      induction rest generalizing d v with
      | nil => rfl
      | cons w rest ih => exact ih ((d.bind v).append ", ") w

theorem bindOperand_eq (d : Draft) (v : Value) :
    d.bindOperand v = d.extend (Context.valueFragment v) := by
  cases v with
  | token items =>
      show ((d.append "token(").bindList items).append ")" =
        (d.append "token(").extend (Fragment.valueList items ++ [.verbatim ")"])
      rw [extend_append, bindList_eq]
      rfl
  | _ => rfl

theorem append_append (d : Draft) (t t' : String) :
    (d.append t).append t' = d.append (t ++ t') := by
  unfold append
  rw [String.append_assoc]

theorem appendRange_eq (d : Draft) (column : Identifier) (start : String) :
    d.appendRange column.text start = d.extend (Context.startsWithFragment column start) := by
  have hlower : (d.append column.text).append " >= " = d.append (column.text ++ " >= ") :=
    append_append d _ _
  have hupper : ∀ d : Draft, ((d.append " AND ").append column.text).append " < " =
      d.append (" AND " ++ column.text ++ " < ") := by
    intro d
    rw [append_append, append_append, String.append_assoc]
  unfold appendRange
  rw [← hlower, ← hupper]
  rfl

theorem isEmpty_ofFragment (mode : BindMode) (f : Fragment) :
    (ofFragment mode f).isEmpty = f.isBlank :=
  (Fragment.isBlank_eq_isEmpty mode f).symm

end Draft

namespace Field

theorem text_countAll : Field.countAll.text = "COUNT(*)" := by
  simp [text, fragment, Piece.text]

theorem text_aggregate (function : String) (f : Field) :
    (Field.aggregate function f).text = function ++ "(" ++ f.text ++ ")" := by
  simp [text, fragment, Piece.text, String.append_assoc]

end Field

/-! ## Parts -/

def Assignment.drafted (a : Assignment) : DraftAssignment := ⟨a.column.text, a.value, a.kind⟩

/-- The parts as the mode renders them. -/
def Parts.drafted (mode : BindMode) (p : Parts) : DraftParts where
  mode := mode
  rowConditions := .ofFragment mode p.rowConditions
  changeConditions := .ofFragment mode p.changeConditions
  fields := p.fields.map Field.text
  orderBy := p.orderBy.map fun k => (k.column.text, k.ascending)
  groupBy := p.groupBy.map Identifier.text
  limit := p.limit
  allowFiltering := p.allowFiltering
  assignments := p.assignments.map Assignment.drafted

namespace Parts

variable {mode : BindMode}

theorem drafted_empty : Parts.drafted mode {} = .empty mode := by
  cases mode <;> rfl

theorem drafted_conditions (p : Parts) (t : ConditionTarget) :
    (p.drafted mode).conditions t = .ofFragment mode (p.conditions t) := by
  cases t <;> rfl

theorem drafted_onConditions (p : Parts) (t : ConditionTarget) {write : Draft → Draft}
    {f : Fragment} (h : ∀ d, write d = d.extend f) :
    (p.drafted mode).onConditions t write = (p.addCondition t f).drafted mode := by
  cases t with
  | rows =>
      show { p.drafted mode with rowConditions := write (.ofFragment mode p.rowConditions) } = _
      rw [h, Draft.extend_ofFragment]
      rfl
  | change =>
      show { p.drafted mode with
        changeConditions := write (.ofFragment mode p.changeConditions) } = _
      rw [h, Draft.extend_ofFragment]
      rfl

end Parts

/-! ## Steps -/

namespace DraftStep

/-- A step on drafts does what a step on fragments does, in the rendering of the mode. -/
def Renders (mode : BindMode) (d : DraftStep) (st : Step) : Prop :=
  ∀ p : Parts, d (p.drafted mode) = Parts.drafted mode <$> st p

section Combinators

variable {mode : BindMode} {d d' : DraftStep} {st st' : Step}

theorem renders_pure : Renders mode Traced.pure Traced.pure := fun _ => rfl

theorem renders_fail (e : Error) : Renders mode (fail e) (Step.fail e) := fun _ => rfl

theorem renders_unsupported (node : Expr) (s : Scope) :
    Renders mode (unsupported node s) (Step.unsupported node s) :=
  renders_fail _

theorem renders_modify {g : DraftParts → DraftParts} {f : Parts → Parts}
    (h : ∀ p : Parts, g (p.drafted mode) = (f p).drafted mode) :
    Renders mode (modify g) (Step.modify f) :=
  fun p => congrArg Traced.pure (h p)

theorem renders_given {α : Type} {o : Outcome α} {k : α → DraftStep} {k' : α → Step}
    (h : ∀ a, o = .ok a → Renders mode (k a) (k' a)) :
    Renders mode (given o k) (Step.given o k') := by
  cases o with
  | error e => exact renders_fail e
  | ok a =>
      intro p
      show pure a >>= (fun a => k a (p.drafted mode)) =
        Parts.drafted mode <$> (pure a >>= fun a => k' a p)
      rw [pure_bind, pure_bind]
      exact h a rfl p

theorem renders_seq (h : Renders mode d st) (h' : Renders mode d' st') :
    Renders mode (d >=> d') (st >=> st') := by
  intro p
  show d (p.drafted mode) >>= d' = Parts.drafted mode <$> (st p >>= st')
  rw [h p, map_bind, bind_map_left]
  exact congrArg (st p >>= ·) (funext h')

theorem renders_onConditions (s : Scope) {write : Draft → Draft} {f : Fragment}
    (h : ∀ d, write d = d.extend f) :
    Renders mode (onConditions s write) (Step.writeFragment s f) :=
  renders_modify fun p => p.drafted_onConditions s.target h

theorem renders_write (s : Scope) (text : String) :
    Renders mode (write s text) (Step.write s text) :=
  renders_onConditions s fun _ => rfl

theorem renders_openCondition (t : ConditionTarget) :
    Renders mode (openCondition t) (Step.openCondition t) := by
  refine renders_modify fun p => ?_
  rw [Parts.drafted_conditions, Draft.isEmpty_ofFragment]
  split
  · rfl
  · exact p.drafted_onConditions t fun _ => rfl

/-- Steps made of the same things, one rendering the other for each of them. -/
theorem renders_sequence {α : Type} {make : α → DraftStep} {make' : α → Step} :
    ∀ {xs : List α}, (∀ x ∈ xs, Renders mode (make x) (make' x)) →
      Renders mode (sequence (xs.map make)) (Step.sequence (xs.map make'))
  | [], _ => renders_pure
  | x :: _, h =>
      renders_seq (h x (List.mem_cons_self ..))
        (renders_sequence fun y hy => h y (List.mem_cons_of_mem _ hy))

theorem renders_separated (s : Scope) (separator : String) {α : Type} {make : α → DraftStep}
    {make' : α → Step} :
    ∀ {xs : List α}, (∀ x ∈ xs, Renders mode (make x) (make' x)) →
      Renders mode (separated s separator (xs.map make))
        (Step.separated s separator (xs.map make'))
  | [], _ => renders_pure
  | [x], h => h x (List.mem_cons_self ..)
  | x :: _ :: _, h =>
      renders_seq (h x (List.mem_cons_self ..)) (renders_seq (renders_write s separator)
        (renders_separated s separator fun y hy => h y (List.mem_cons_of_mem _ hy)))

end Combinators

end DraftStep

namespace Drafting

open DraftStep

variable {mode : BindMode} {c : Context}

/-- In every scope, the step of the expression on drafts renders its step on fragments. -/
def Rendered (mode : BindMode) (c : Context) (e : Expr) : Prop :=
  ∀ s, Renders mode (step c e s) (c.step e s)

theorem assign_renders (member : String) (v : Value) (kind : AssignmentKind) :
    Renders mode (assign c member v kind) (c.assign member v kind) := by
  refine renders_given fun a _ => renders_modify fun p => ?_
  simp [Parts.drafted, Assignment.drafted]

theorem bindValue_renders (v : Value) (node : Expr) (s : Scope) :
    Renders mode (bindValue c v node s) (c.bindValue v node s) := by
  obtain ⟨phase, target, comparison, member⟩ := s
  cases phase with
  | condition => exact renders_onConditions _ fun d => d.bindOperand_eq v
  | take => exact renders_given fun n _ => renders_modify fun p => rfl
  | orderBy | orderByDescending =>
      cases v with
      | text name =>
          refine renders_modify fun p => ?_
          simp [Parts.drafted]
      | _ => exact renders_unsupported node _
  | binding =>
      cases member with
      | some member => exact assign_renders member v .assign
      | none => exact renders_unsupported node _
  | _ => exact renders_unsupported node _

theorem fold_renders (node : Expr) (s : Scope) :
    Renders mode (fold c node s) (c.fold node s) := by
  unfold fold Context.fold
  split
  · exact renders_unsupported node s
  · exact renders_given fun v _ => bindValue_renders v node s

theorem memberStep_renders (member : String) (node : Expr) (s : Scope) :
    Renders mode (memberStep c member node s) (c.memberStep member node s) := by
  unfold memberStep Context.memberStep
  split
  · exact fold_renders node s
  · obtain ⟨phase, target, comparison, assigned⟩ := s
    cases phase with
    | condition =>
        refine renders_given fun col _ => ?_
        exact renders_onConditions _ fun _ => rfl
    | binding =>
        dsimp only
        cases c.mapping.column? member with
        | some col =>
            refine renders_modify fun p => ?_
            simp [Parts.drafted, columnText, Field.text, Field.fragment, Piece.text]
        | none => exact fun _ => rfl
    | orderBy | orderByDescending =>
        refine renders_given fun col _ => renders_modify fun p => ?_
        simp [Parts.drafted, columnText]
    | groupBy =>
        refine renders_given fun col _ => renders_modify fun p => ?_
        simp [Parts.drafted, columnText]
    | _ => exact renders_unsupported node _

/-! ## Operators -/

theorem unaryStep_renders (op : UnaryOp) {e : Expr} (h : Rendered mode c e) (node : Expr)
    (s : Scope) :
    Renders mode (unaryStep c op ⟨e, step c e⟩ node s)
      (c.unaryStep op ⟨e, c.step e⟩ node s) := by
  obtain ⟨phase, target, comparison, assigned⟩ := s
  cases op with
  | convert => exact h _
  | not =>
      cases phase with
      | condition =>
          unfold unaryStep Context.unaryStep
          dsimp only
          split
          · exact renders_seq (renders_write _ _) (renders_seq (h _) (renders_write _ _))
          · exact fold_renders node _
      | _ => exact fold_renders node _
  | negate | plus =>
      cases phase with
      | binding =>
          unfold unaryStep Context.unaryStep
          dsimp only
          cases c.counterMember? _ with
          | some member => exact renders_given fun v _ => assign_renders member v _
          | none => exact fold_renders node _
      | _ => exact fold_renders node _

section Binary

variable (op : BinaryOp) {l r : Expr} (hl : Rendered mode c l) (hr : Rendered mode c r)
  (node : Expr) (s : Scope)
include hl hr

omit hl hr in
theorem bindingBinary_renders :
    Renders mode (bindingBinary c op ⟨l, step c l⟩ ⟨r, step c r⟩ node s)
      (c.bindingBinary op ⟨l, c.step l⟩ ⟨r, c.step r⟩ node s) := by
  unfold bindingBinary Context.bindingBinary
  cases c.counterMember? s with
  | none => exact fold_renders node s
  | some member =>
      cases Context.countingKind? op with
      | none => exact fold_renders node s
      | some kind =>
          dsimp only
          split
          · exact renders_given fun v _ => assign_renders member v kind
          · exact fold_renders node s

theorem relation_renders (tag : String) :
    Renders mode (relation tag ⟨l, step c l⟩ ⟨r, step c r⟩ s)
      (Context.relation tag ⟨l, c.step l⟩ ⟨r, c.step r⟩ s) :=
  renders_seq (hl _) (renders_seq (renders_write s _) (hr _))

theorem conditionBinary_renders :
    Renders mode (conditionBinary c op ⟨l, step c l⟩ ⟨r, step c r⟩ node s)
      (c.conditionBinary op ⟨l, c.step l⟩ ⟨r, c.step r⟩ node s) := by
  unfold conditionBinary Context.conditionBinary
  cases op.cql? with
  | none =>
      dsimp only
      split
      · exact renders_unsupported node s
      · exact fold_renders node s
  | some tag =>
      cases op.inverse? with
      | none => exact relation_renders hl hr s tag
      | some inverse =>
          dsimp only
          split
          · exact renders_given fun _ _ => hl _
          · split
            · exact renders_given fun _ _ => hr _
            · exact relation_renders hl hr s tag

theorem binaryStep_renders :
    Renders mode (binaryStep c op ⟨l, step c l⟩ ⟨r, step c r⟩ node s)
      (c.binaryStep op ⟨l, c.step l⟩ ⟨r, c.step r⟩ node s) := by
  obtain ⟨phase, target, comparison, assigned⟩ := s
  cases phase with
  | condition => exact conditionBinary_renders op hl hr node _
  | binding => exact bindingBinary_renders op node _
  | _ => exact fold_renders node _

end Binary

/-! ## Calls -/

section Calls

theorem operands_eq_map (c : Context) (args : List Expr) :
    operands c args = args.map fun e => ⟨e, step c e⟩ := by
  induction args with
  | nil => rfl
  | cons e rest ih => rw [operands, ih, List.map_cons]

variable {args : List Expr} (h : ∀ e ∈ args, Rendered mode c e) (method : Method) (node : Expr)
  (s : Scope)

/-- Both walks have an operand at an index, of the same expression, or neither has. -/
theorem renders_operand {i : Nat} {k : DraftOperand → DraftStep} {k' : Operand → Step}
    (hk : ∀ e ∈ args, Renders mode (k ⟨e, step c e⟩) (k' ⟨e, c.step e⟩)) :
    Renders mode (given (operand method (operands c args) i) k)
      (Step.given (Context.operand method (c.operands args) i) k') := by
  rw [operands_eq_map, Context.operands_eq_map]
  unfold operand Context.operand
  rw [List.getElem?_map, List.getElem?_map, List.length_map, List.length_map]
  cases he : args[i]? with
  | none => exact renders_fail _
  | some e => exact hk e (List.mem_of_getElem? he)

include h

theorem operandStep_renders (i : Nat) :
    Renders mode (operandStep method (operands c args) i s)
      (Context.operandStep method (c.operands args) i s) :=
  renders_operand method fun e he => h e he s

theorem containsStep_renders :
    Renders mode (containsStep (operands c args) s)
      (Context.containsStep (c.operands args) s) := by
  refine renders_operand _ fun collection hc => renders_operand _ fun item hi => ?_
  dsimp only
  split
  · exact renders_seq (h _ hc _) (renders_seq (renders_write s _) (h _ hi _))
  · refine renders_given fun v _ => ?_
    cases v.elements? with
    | none => exact renders_fail _
    | some items =>
        refine renders_seq (h _ hi _) (renders_onConditions s fun d => ?_)
        rw [Draft.bindList_eq]
        exact (Draft.extend_append _ _ [.verbatim ")"]).symm

theorem containsKeyStep_renders :
    Renders mode (containsKeyStep c (operands c args) node s)
      (c.containsKeyStep (c.operands args) node s) := by
  refine renders_operand _ fun entries he => ?_
  dsimp only
  split
  · exact renders_seq (h _ he _) (renders_seq (renders_write s _) (operandStep_renders h _ _ 1))
  · exact fold_renders node s

omit h in
theorem startsWithStep_renders :
    Renders mode (startsWithStep c (operands c args) node s)
      (c.startsWithStep (c.operands args) node s) := by
  refine renders_operand _ fun subject _ => ?_
  dsimp only
  cases subject.withoutConvert.rowMember? with
  | none => exact fold_renders node s
  | some member =>
      refine renders_operand _ fun start _ => renders_given fun v _ => ?_
      cases v with
      | text start =>
          refine renders_given fun col _ => renders_onConditions s fun d => ?_
          exact d.appendRange_eq (c.mapping.identifier col.name) start
      | _ => exact renders_fail _

theorem conditionCall_renders :
    Renders mode (conditionCall c method (operands c args) node s)
      (c.conditionCall method (c.operands args) node s) := by
  cases method with
  | contains => exact containsStep_renders h s
  | containsKey => exact containsKeyStep_renders h node s
  | startsWith => exact startsWithStep_renders node s
  | compareTo =>
      unfold conditionCall Context.conditionCall
      dsimp only
      cases s.comparison.bind BinaryOp.cql? with
      | none => exact fold_renders node s
      | some tag =>
          exact renders_seq (operandStep_renders h _ _ 0)
            (renders_seq (renders_write s _) (operandStep_renders h _ _ 1))
  | equals =>
      exact renders_seq (operandStep_renders h _ _ 0)
        (renders_seq (renders_write s _) (operandStep_renders h _ _ 1))
  | token =>
      refine renders_seq (renders_write s _) (renders_seq ?_ (renders_write s _))
      rw [operands_eq_map, Context.operands_eq_map, List.map_map, List.map_map]
      exact renders_separated s _ fun e he => h e he _
  | maxTimeUuid | minTimeUuid =>
      exact renders_seq (renders_write s _)
        (renders_seq (operandStep_renders h _ _ 0) (renders_write s _))
  | _ => exact fold_renders node s

omit h in
theorem bindingCall_renders :
    Renders mode (bindingCall c method (operands c args) node s)
      (c.bindingCall method (c.operands args) node s) := by
  unfold bindingCall Context.bindingCall
  cases Context.combiningKind? method with
  | none => exact fold_renders node s
  | some kind =>
      cases s.member with
      | none => exact renders_unsupported node s
      | some member =>
          exact renders_operand _ fun e _ => renders_given fun v _ => assign_renders member v kind

omit h in
/-- The field that is taken off the end is the only one after the first `before`. -/
theorem aggregated_map (before : Nat) (function : String) (fields : List Field) :
    aggregated before function (fields.map Field.text) =
      (Context.aggregated before function fields).map (List.map Field.text) := by
  -- One side looks at the end of the list and the other cuts it at `before`.
  rcases List.eq_nil_or_concat fields with rfl | ⟨init, last, rfl⟩
  · simp [aggregated, Context.aggregated]
  · unfold aggregated Context.aggregated
    simp only [List.concat_eq_append, List.map_append, List.map_cons, List.map_nil,
      List.getLast?_concat, List.dropLast_concat, List.length_map]
    split
    · next hlength =>
        subst hlength
        rw [List.drop_left, List.take_left]
        simp [Field.text_aggregate]
    · next hlength =>
        split
        · next hdrop =>
            have hone := congrArg List.length hdrop
            rw [List.length_drop, List.length_append, List.length_singleton,
              List.length_singleton] at hone
            exact absurd (by omega) hlength
        · rfl

theorem aggregateStep_renders (function : String) :
    Renders mode (aggregateStep c method function (operands c args) node s)
      (c.aggregateStep method function (c.operands args) node s) := by
  unfold aggregateStep Context.aggregateStep
  split
  · rw [operands_eq_map, Context.operands_eq_map, List.getElem?_map, List.getElem?_map]
    cases hsel : args[1]? with
    | none =>
        cases method with
        | count =>
            refine renders_modify fun p => ?_
            simp [Parts.drafted, Field.text_countAll]
        | _ => exact renders_unsupported node s
    | some selector =>
        intro p
        -- The fields before the selector are counted in the parts from which it starts.
        have hselector := h selector (List.mem_of_getElem? hsel) (s.enter .binding) p
        show step c selector (s.enter .binding) (p.drafted mode) >>= _ =
          Parts.drafted mode <$> (c.step selector (s.enter .binding) p >>= _)
        rw [hselector, map_bind, bind_map_left]
        refine congrArg (c.step selector (s.enter .binding) p >>= ·) (funext fun q => ?_)
        have hfields : aggregated (p.drafted mode).fields.length function (q.drafted mode).fields =
            (Context.aggregated p.fields.length function q.fields).map (List.map Field.text) := by
          have hlength : (p.drafted mode).fields.length = p.fields.length := List.length_map ..
          rw [hlength]
          exact aggregated_map _ _ _
        rw [hfields]
        cases Context.aggregated p.fields.length function q.fields <;> rfl
  · exact renders_unsupported node s

theorem predicateStep_renders (t : ConditionTarget) :
    Renders mode (predicateStep method (operands c args) t s)
      (Context.predicateStep method (c.operands args) t s) :=
  renders_seq (renders_openCondition t) (operandStep_renders h method _ 1)

theorem chainStep_renders (phase : Phase) :
    Renders mode (chainStep method (operands c args) phase s)
      (Context.chainStep method (c.operands args) phase s) :=
  renders_seq (operandStep_renders h method s 0) (operandStep_renders h method _ 1)

theorem firstStep_renders :
    Renders mode (firstStep method (operands c args) s)
      (Context.firstStep method (c.operands args) s) := by
  refine renders_seq (operandStep_renders h method s 0)
    (renders_seq ?_ (renders_modify fun _ => rfl))
  rw [operands_eq_map, Context.operands_eq_map, List.length_map, List.length_map,
    ← operands_eq_map, ← Context.operands_eq_map]
  split
  · exact predicateStep_renders h method s .rows
  · exact renders_pure

/-- A query operator continues the query before it. -/
theorem operator_renders (hoperator : method.isOperator = true) :
    Renders mode (callStep c method (operands c args) node s)
      (c.callStep method (c.operands args) node s) := by
  cases method with
  | filter =>
      exact renders_seq (operandStep_renders h _ s 0) (predicateStep_renders h _ s .rows)
  | updateIf | deleteIf =>
      exact renders_seq (operandStep_renders h _ s 0) (predicateStep_renders h _ s .change)
  | select => exact chainStep_renders h _ s .select
  | take => exact chainStep_renders h _ s .take
  | orderBy | thenBy => exact chainStep_renders h _ s .orderBy
  | orderByDescending | thenByDescending => exact chainStep_renders h _ s .orderByDescending
  | groupBy => exact chainStep_renders h _ s .groupBy
  | allowFiltering =>
      exact renders_seq (operandStep_renders h _ s 0) (renders_modify fun _ => rfl)
  | first | firstOrDefault => exact firstStep_renders h _ s
  | _ => exact absurd hoperator Bool.false_ne_true

omit h in
theorem callStep_of_not_isOperator {operands : List DraftOperand}
    (hoperator : method.isOperator = false) :
    callStep c method operands node s =
      match method.aggregate? with
      | some function => aggregateStep c method function operands node s
      | none =>
        match s.phase with
        | .condition => conditionCall c method operands node s
        | .binding => bindingCall c method operands node s
        | _ => unsupported node s := by
  cases method <;> first | rfl | exact absurd hoperator.symm Bool.false_ne_true

theorem callStep_renders :
    Renders mode (callStep c method (operands c args) node s)
      (c.callStep method (c.operands args) node s) := by
  cases hoperator : method.isOperator with
  | true => exact operator_renders h method node s hoperator
  | false =>
      rw [callStep_of_not_isOperator method node s hoperator,
        Context.callStep_of_not_isOperator s hoperator]
      cases method.aggregate? with
      | some function => exact aggregateStep_renders h method node s function
      | none =>
          obtain ⟨phase, target, comparison, assigned⟩ := s
          cases phase with
          | condition => exact conditionCall_renders h method node _
          | binding => exact bindingCall_renders method node _
          | _ => exact renders_unsupported node _

end Calls

/-! ## The walk -/

theorem bindingSteps_eq_map (c : Context) (s : Scope) (bs : List (String × Expr)) :
    bindingSteps c bs s = bs.map fun b => step c b.2 (s.assigning b.1) := by
  induction bs with
  | nil => rfl
  | cons b rest ih =>
      obtain ⟨name, e⟩ := b
      rw [bindingSteps, ih, List.map_cons]

theorem bindingSteps_renders {bs : List (String × Expr)} (h : ∀ b ∈ bs, Rendered mode c b.2)
    (s : Scope) :
    Renders mode (sequence (bindingSteps c bs s)) (Step.sequence (c.bindingSteps bs s)) := by
  rw [bindingSteps_eq_map, Context.bindingSteps_eq_map]
  exact renders_sequence fun b hb => h b hb _

mutual

/-- **One walk.** Whatever the scope, the step of an expression on drafts renders its step on
fragments. -/
theorem step_renders : ∀ e : Expr, Rendered mode c e
  | .root, _ => renders_pure
  | .parameter, s => by
      rw [step, Context.step]
      split
      · exact renders_pure
      · exact renders_unsupported _ s
  | .groupKey, s => by
      rw [step, Context.step]
      split
      · refine renders_modify fun p => ?_
        simp [Parts.drafted, Field.text, Field.fragment, Piece.text]
      · exact renders_unsupported _ s
  | .member target name, s => memberStep_renders name (.member target name) s
  | .constant v, s => bindValue_renders v (.constant v) s
  | .binary op l r, s =>
      binaryStep_renders op (step_renders l) (step_renders r) (.binary op l r) s
  | .unary op e, s => unaryStep_renders op (step_renders e) (.unary op e) s
  | .call method args, s => callStep_renders (arguments_render args) method (.call method args) s
  | .lambda body, s => step_renders body (Context.bodyScope s)
  | .record bs, s => by
      rw [step, Context.step]
      split
      · exact bindingSteps_renders (bindings_render bs) s
      · exact renders_unsupported _ s
  | .entity bs, s => by
      rw [step, Context.step]
      split
      · exact bindingSteps_renders (bindings_render bs) s
      · exact renders_unsupported _ s

theorem arguments_render : ∀ (args : List Expr), ∀ e ∈ args, Rendered mode c e
  | [] => List.forall_mem_nil _
  | e :: rest => List.forall_mem_cons.mpr ⟨step_renders e, arguments_render rest⟩

theorem bindings_render : ∀ (bs : List (String × Expr)), ∀ b ∈ bs, Rendered mode c b.2
  | [] => List.forall_mem_nil _
  | (_, e) :: rest => List.forall_mem_cons.mpr ⟨step_renders e, bindings_render rest⟩

end

end Drafting

/-- What an expression comes to on drafts is what it comes to on fragments, rendered. -/
theorem Context.draft_eq (c : Context) (mode : BindMode) (e : Expr) :
    c.draft mode e = Parts.drafted mode <$> c.compile e := by
  have hstep : Drafting.step c e {} (Parts.drafted mode {}) =
      Parts.drafted mode <$> c.step e {} {} :=
    Drafting.step_renders e {} {}
  rw [Parts.drafted_empty] at hstep
  exact hstep

end TypedCql
