import TypedCql.Proofs.Mapping
import TypedCql.Proofs.Predicates
import TypedCql.Proofs.Rendering

/-!
# Conjunctions of relations

The predicates that CQL was made for are conjunctions: of comparisons of a member with a value, of
memberships in a list, of texts with a given start. Each of these atoms is written as one relation,
or as two where a start becomes a range, and the relations hold of a row exactly when the program's
own evaluation of the predicate says so.

The range is the one place where the two can part. A text that starts with the given one lies
between it and itself followed by the last code point, unless it goes on with that very code point.
-/

namespace TypedCql

/-! ## Texts with a given start -/

/-- No character comes after the last code point. -/
theorem lt_lastCodePoint_iff (c : Char) :
    c < Context.lastCodePoint ↔ Context.lastCodePoint ≠ c := by
  have hlast : Context.lastCodePoint.toNat = 0x10FFFF := by decide
  constructor
  · rintro h rfl
    exact Char.lt_irrefl _ h
  · intro h
    have hvalid : c.toNat < 0x110000 := by
      rcases c.valid with hlow | hhigh
      · exact Nat.lt_trans hlow (by decide)
      · exact hhigh.2
    have hne : c.toNat ≠ 0x10FFFF := fun hc =>
      h (Char.ext (UInt32.toNat.inj (hlast.trans hc.symm)))
    show c.toNat < Context.lastCodePoint.toNat
    omega

/-- What lies between a start and the start followed by the last code point begins with the start,
and does not reach that code point. -/
theorem between_iff_prefix (start chars : List Char) :
    (¬chars < start ∧ chars < start ++ [Context.lastCodePoint]) ↔
      start <+: chars ∧ ¬(start ++ [Context.lastCodePoint]) <+: chars := by
  induction start generalizing chars with
  | nil =>
      cases chars with
      | nil => simp
      | cons c rest => simp [List.cons_lt_cons_iff, List.cons_prefix_cons, lt_lastCodePoint_iff]
  | cons a start ih =>
      cases chars with
      | nil => simp
      | cons c rest =>
          simp only [List.cons_append, List.cons_lt_cons_iff, List.cons_prefix_cons]
          by_cases hc : a = c
          · subst hc
            simpa using ih rest
          · -- The first characters differ, and nothing after them counts.
            constructor
            · rintro ⟨hnot, hlt | ⟨heq, -⟩⟩
              · exact absurd (Or.inl hlt) hnot
              · exact absurd heq.symm hc
            · rintro ⟨⟨heq, -⟩, -⟩
              exact absurd heq hc

theorem compare_text_eq_lt (s t : String) :
    (Ord.compare s t == .lt) = decide (s.toList < t.toList) := by
  show (compareOfLessAndEq s t == .lt) = _
  rw [Bool.eq_iff_iff, beq_iff_eq, compareOfLessAndEq_eq_lt, decide_eq_true_iff]
  exact String.lt_iff

theorem startsWith_eq_range {s start : String}
    (h : ¬(start.push Context.lastCodePoint).toList <+: s.toList) :
    start.toList.isPrefixOf s.toList =
      (Ord.compare s start != .lt && Ord.compare s (start.push Context.lastCodePoint) == .lt) := by
  rw [String.toList_push] at h
  rw [bne, compare_text_eq_lt, compare_text_eq_lt, String.toList_push, Bool.eq_iff_iff]
  simp only [List.isPrefixOf_iff_prefix, Bool.and_eq_true, Bool.not_eq_true',
    decide_eq_false_iff_not, decide_eq_true_iff, between_iff_prefix]
  exact ⟨fun hp => ⟨hp, h⟩, And.left⟩

/-! ## Relations -/

/-- What stands on one side of a comparison. -/
inductive Term
  | column (member : String)
  | value (v : Value)

/-- What a condition holds between two conjunctions. -/
inductive Relation
  | compare (left : Term) (op : BinaryOp) (right : Term)
  | among (member : String) (items : List Value)

def Term.fragment (m : Mapping) : Term → Fragment
  | .column member => m.columnFragment member
  | .value v => [.value v]

/-- The value of a side on a row. -/
def Term.onRow (row : String → Value) : Term → Value
  | .column member => row member
  | .value v => v

namespace Relation

def fragment (m : Mapping) : Relation → Fragment
  | .compare l op r =>
    l.fragment m ++ .verbatim (" " ++ op.cql?.getD "" ++ " ") :: r.fragment m
  | .among member items =>
    m.columnFragment member ++ .verbatim " IN (" :: (Fragment.valueList items ++ [.verbatim ")"])

/-- What the relation says about a row, with the program's own comparison of values. -/
def outcome (row : String → Value) : Relation → Outcome Value
  | .compare l op r => Value.binary op (l.onRow row) (r.onRow row)
  | .among member items => .ok (.boolean (items.any (·.equal (row member))))

/-- Whether the relation is true of a row. -/
def holds (row : String → Value) (r : Relation) : Bool :=
  match r.outcome row with
  | .ok (.boolean b) => b
  | _ => false

/-- The relation is true or false of the row, and not an error. -/
def Decided (row : String → Value) (r : Relation) : Prop :=
  r.outcome row = .ok (.boolean (r.holds row))

theorem holds_of_outcome {row : String → Value} {r : Relation} {b : Bool}
    (h : r.outcome row = .ok (.boolean b)) : r.holds row = b := by
  unfold holds
  rw [h]

theorem decided_of_outcome {row : String → Value} {r : Relation} {b : Bool}
    (h : r.outcome row = .ok (.boolean b)) : r.Decided row := by
  unfold Decided
  rw [holds_of_outcome h, h]

end Relation

/-! ## Atoms -/

/-- What a conjunction is made of. -/
inductive Atom
  | compare (left : Term) (op : BinaryOp) (right : Term)
  | among (member : String) (items : List Value)
  | startsWith (member : String) (start : String)

namespace Atom

/-- The relations that an atom is written as. -/
def relations : Atom → List Relation
  | .compare l op r => [.compare l op r]
  | .among member items => [.among member items]
  | .startsWith member start =>
    [.compare (.column member) .gte (.value (.text start)),
      .compare (.column member) .lt (.value (.text (start.push Context.lastCodePoint)))]

/-- The rows that a range misses: those where the text goes on with the last code point. -/
def Excluded (row : String → Value) : Atom → Prop
  | .startsWith member start =>
    ∃ s, row member = .text s ∧ (start.push Context.lastCodePoint).toList <+: s.toList
  | _ => False

theorem relations_ne_nil (a : Atom) : a.relations ≠ [] := by
  cases a <;> exact List.cons_ne_nil _ _

end Atom

/-- The expression is a member of the row, up to conversions, and the member has a column. -/
def Mapping.Reads (m : Mapping) (e : Expr) (member : String) : Prop :=
  e.withoutConvert = .column member ∧ (m.column? member).isSome

/-- The expression is a constant, up to conversions, and binds as one value. -/
def Expr.Binds (e : Expr) (v : Value) : Prop :=
  e.withoutConvert = .constant v ∧ ∀ items, v ≠ .token items

/-- The expression is a three-way comparison of two others, up to conversions. -/
def Expr.Orders (e l r : Expr) : Prop := e.withoutConvert = .call .compareTo [l, r]

/-- The expression is the number zero, up to conversions. -/
def Expr.Zero (e : Expr) : Prop :=
  ∃ zero, e.withoutConvert = .constant zero ∧ zero.integer? = some 0

/-- The expressions that are atoms, and which atoms they are. -/
inductive Mapping.AtomOf (m : Mapping) : Expr → Atom → Prop
  | compare {op l r member v} (hop : op.isComparison = true) (hl : m.Reads l member)
      (hr : r.Binds v) : m.AtomOf (.binary op l r) (.compare (.column member) op (.value v))
  | compareSwapped {op l r member v} (hop : op.isComparison = true) (hl : l.Binds v)
      (hr : m.Reads r member) : m.AtomOf (.binary op l r) (.compare (.value v) op (.column member))
  | equals {l r member v} (hl : m.Reads l member) (hr : r.Binds v) :
      m.AtomOf (.call .equals [l, r]) (.compare (.column member) .eq (.value v))
  | compareTo {op order zero l r member v} (hop : op.isComparison = true)
      (horder : order.Orders l r) (hzero : zero.Zero) (hl : m.Reads l member) (hr : r.Binds v) :
      m.AtomOf (.binary op order zero) (.compare (.column member) op (.value v))
  | compareToSwapped {op inverse order zero l r member v} (hop : op.inverse? = some inverse)
      (horder : order.Orders l r) (hzero : zero.Zero) (hl : m.Reads l member) (hr : r.Binds v) :
      m.AtomOf (.binary op zero order) (.compare (.column member) inverse (.value v))
  | contains {l r member collection items} (hl : l.withoutConvert = .constant collection)
      (hitems : collection.elements? = some items) (hr : m.Reads r member) :
      m.AtomOf (.call .contains [l, r]) (.among member items)
  | startsWith {l r member start} (hl : m.Reads l member)
      (hr : r.withoutConvert = .constant (.text start)) :
      m.AtomOf (.call .startsWith [l, r]) (.startsWith member start)

/-- The expressions that are conjunctions of atoms, and of which atoms, from left to right. -/
inductive Mapping.ConjunctionOf (m : Mapping) : Expr → List Atom → Prop
  | atom {e a} (h : m.AtomOf e a) : m.ConjunctionOf e [a]
  | and {op l r as bs} (hop : op = .and ∨ op = .andAlso) (hl : m.ConjunctionOf l as)
      (hr : m.ConjunctionOf r bs) : m.ConjunctionOf (.binary op l r) (as ++ bs)
  | convert {e as} (h : m.ConjunctionOf e as) : m.ConjunctionOf (.unary .convert e) as

/-! ## How atoms are written -/

theorem BinaryOp.inverse_comparison {op inverse : BinaryOp} (h : op.inverse? = some inverse) :
    op.isComparison = true ∧ inverse.isComparison = true := by
  cases op <;> first | exact ⟨rfl, Option.some.inj h ▸ rfl⟩ | exact nomatch h

namespace Context

variable {c : Context} {s : Scope}

theorem not_isThreeWay_of_reads {e : Expr} {member : String} (h : c.mapping.Reads e member) :
    isThreeWay e = false := by
  unfold isThreeWay
  rw [h.1]

theorem not_isThreeWay_of_constant {e : Expr} {v : Value} (h : e.withoutConvert = .constant v) :
    isThreeWay e = false := by
  unfold isThreeWay
  rw [h]

/-- A comparison of two things that are no three-way comparisons writes both as they stand. -/
theorem writes_comparison {op : BinaryOp} {l r : Expr} {f g : Fragment}
    (hs : s.phase = .condition) (hop : op.isComparison = true) (hl : isThreeWay l = false)
    (hr : isThreeWay r = false) (hf : Step.Writes (c.step l s.uncompared) s.target (.ok f))
    (hg : Step.Writes (c.step r s.uncompared) s.target (.ok g)) :
    Step.Writes (c.step (.binary op l r) s) s.target
      (.ok (f ++ .verbatim (" " ++ op.cql?.getD "" ++ " ") :: g)) := by
  rw [step_comparison hs hop hl hr]
  exact writes_relation (l := ⟨l, c.step l⟩) (r := ⟨r, c.step r⟩) hf hg

/-- The calls that atoms are made of mean something to a condition. -/
theorem step_call {method : Method} (hs : s.phase = .condition)
    (h : method = .contains ∨ method = .startsWith ∨ method = .compareTo ∨ method = .equals)
    (args : List Expr) :
    c.step (.call method args) s =
      c.conditionCall method (c.operands args) (.call method args) s := by
  rcases h with rfl | rfl | rfl | rfl <;> simp only [step, callStep, Method.aggregate?, hs]

theorem writes_operand {method : Method} {operands : List Operand} {i : Nat} {x : Operand}
    {t : ConditionTarget} {o : Outcome Fragment} (hx : operands[i]? = some x)
    (h : Step.Writes (x.step s) t o) : Step.Writes (operandStep method operands i s) t o := by
  refine Step.writes_given_ok ?_ h
  unfold operand
  rw [hx]

/-- The two arguments of a call with a text between them. -/
theorem writes_infix {method : Method} {l r : Expr} {f g : Fragment} (text : String)
    (hf : Step.Writes (c.step l s.uncompared) s.target (.ok f))
    (hg : Step.Writes (c.step r s.uncompared) s.target (.ok g)) :
    Step.Writes
      (operandStep method (c.operands [l, r]) 0 s.uncompared >=> Step.write s text >=>
        operandStep method (c.operands [l, r]) 1 s.uncompared) s.target
      (.ok (f ++ .verbatim text :: g)) := by
  have hleft : Step.Writes (operandStep method (c.operands [l, r]) 0 s.uncompared) s.target
      (.ok f) := writes_operand (x := ⟨l, c.step l⟩) rfl hf
  have hright : Step.Writes (operandStep method (c.operands [l, r]) 1 s.uncompared) s.target
      (.ok g) := writes_operand (x := ⟨r, c.step r⟩) rfl hg
  exact Step.writes_seq hleft (Step.writes_seq (Step.writes_write s text) hright)

/-- A three-way comparison is visited as the comparison around it, between its own sides. -/
theorem step_order {op : BinaryOp} {order l r : Expr} (hs : s.phase = .condition)
    (hop : op.isComparison = true) (horder : order.Orders l r) :
    c.step order (s.compared op) =
      relation (op.cql?.getD "") ⟨l, c.step l⟩ ⟨r, c.step r⟩ s := by
  obtain ⟨tag, inverse, htag, -⟩ := BinaryOp.comparison_cql hop
  have hcompared : (s.compared op).phase = .condition := hs
  rw [← step_withoutConvert, horder, step_call hcompared (by simp)]
  simp only [conditionCall, Scope.compared, Option.bind_some, htag, Option.getD_some]
  rfl

/-- So it writes that comparison. -/
theorem writes_order {op : BinaryOp} {order l r : Expr} {f g : Fragment}
    (hs : s.phase = .condition) (hop : op.isComparison = true) (horder : order.Orders l r)
    (hf : Step.Writes (c.step l s.uncompared) s.target (.ok f))
    (hg : Step.Writes (c.step r s.uncompared) s.target (.ok g)) :
    Step.Writes (c.step order (s.compared op)) s.target
      (.ok (f ++ .verbatim (" " ++ op.cql?.getD "" ++ " ") :: g)) := by
  rw [step_order hs hop horder]
  exact writes_relation (l := ⟨l, c.step l⟩) (r := ⟨r, c.step r⟩) hf hg

theorem expectZero_ok {zero : Expr} {v : Value} (h : zero.evaluate = .ok v)
    (hzero : v.integer? = some 0) (node : Expr) (s : Scope) : expectZero zero node s = .ok () := by
  unfold expectZero
  rw [h]
  simp only [hzero, if_true]

theorem isThreeWay_of_orders {e l r : Expr} (h : e.Orders l r) : isThreeWay e = true := by
  unfold isThreeWay
  rw [h]

/-- A three-way comparison compared with zero is written with the comparison between its sides. -/
theorem step_order_zero {op : BinaryOp} {order zero l r : Expr} (hs : s.phase = .condition)
    (hop : op.isComparison = true) (horder : order.Orders l r) :
    c.step (.binary op order zero) s =
      Step.given (expectZero zero (.binary op order zero) s) fun _ =>
        c.step order (s.compared op) := by
  obtain ⟨tag, inverse, htag, hinverse⟩ := BinaryOp.comparison_cql hop
  show c.binaryStep op ⟨order, c.step order⟩ ⟨zero, c.step zero⟩ (.binary op order zero) s = _
  simp only [binaryStep, hs, conditionBinary, htag, hinverse, isThreeWay_of_orders horder, if_true]

/-- With the zero on the left it is the inverse that is written. -/
theorem step_zero_order {op inverse : BinaryOp} {order zero l r : Expr}
    (hs : s.phase = .condition) (hop : op.inverse? = some inverse) (horder : order.Orders l r)
    (hzero : isThreeWay zero = false) :
    c.step (.binary op zero order) s =
      Step.given (expectZero zero (.binary op zero order) s) fun _ =>
        c.step order (s.compared inverse) := by
  obtain ⟨tag, -, htag, -⟩ := BinaryOp.comparison_cql (BinaryOp.inverse_comparison hop).1
  show c.binaryStep op ⟨zero, c.step zero⟩ ⟨order, c.step order⟩ (.binary op zero order) s = _
  simp only [binaryStep, hs, conditionBinary, htag, hop, isThreeWay_of_orders horder, hzero,
    if_true, Bool.false_eq_true, if_false]

/-- The relations of an atom, joined. -/
def atomFragment (m : Mapping) (a : Atom) : Fragment :=
  Fragment.joined " AND " (a.relations.map (Relation.fragment m))

/-- **Atoms.** An atom is written as its relations. -/
theorem writes_atom {e : Expr} {a : Atom} (hs : s.phase = .condition)
    (h : c.mapping.AtomOf e a) :
    Step.Writes (c.step e s) s.target (.ok (atomFragment c.mapping a)) := by
  have hunder : s.uncompared.phase = .condition := hs
  cases h with
  | compare hop hl hr =>
      exact writes_comparison hs hop (not_isThreeWay_of_reads hl) (not_isThreeWay_of_constant hr.1)
        (writes_column hunder hl.1 hl.2) (writes_value hunder hr.1 hr.2)
  | compareSwapped hop hl hr =>
      exact writes_comparison hs hop (not_isThreeWay_of_constant hl.1) (not_isThreeWay_of_reads hr)
        (writes_value hunder hl.1 hl.2) (writes_column hunder hr.1 hr.2)
  | equals hl hr =>
      rw [step_call hs (by simp)]
      exact writes_infix " = " (writes_column hunder hl.1 hl.2) (writes_value hunder hr.1 hr.2)
  | @compareTo op order zero l r member v hop horder hzero hl hr =>
      have hcolumn := writes_column (s := s.uncompared) hunder hl.1 hl.2
      have hvalue := writes_value (c := c) (s := s.uncompared) hunder hr.1 hr.2
      obtain ⟨number, hnumber, hnull⟩ := hzero
      rw [step_order_zero hs hop horder]
      exact Step.writes_given_ok (expectZero_ok (Expr.evaluate_constant hnumber) hnull _ s)
        (writes_order hs hop horder hcolumn hvalue)
  | @compareToSwapped op inverse order zero l r member v hop horder hzero hl hr =>
      have hcolumn := writes_column (s := s.uncompared) hunder hl.1 hl.2
      have hvalue := writes_value (c := c) (s := s.uncompared) hunder hr.1 hr.2
      obtain ⟨number, hnumber, hnull⟩ := hzero
      rw [step_zero_order hs hop horder (not_isThreeWay_of_constant hnumber)]
      exact Step.writes_given_ok (expectZero_ok (Expr.evaluate_constant hnumber) hnull _ s)
        (writes_order hs (BinaryOp.inverse_comparison hop).2 horder hcolumn hvalue)
  | @contains l r member collection items hl hitems hr =>
      have hmember : l.withoutConvert.rowMember? = none := by
        rw [hl]
        rfl
      rw [step_call hs (by simp)]
      refine Step.writes_given_ok (x := ⟨l, c.step l⟩) rfl
        (Step.writes_given_ok (x := ⟨r, c.step r⟩) rfl ?_)
      simp only [hmember, Option.isSome_none, Bool.false_eq_true, if_false]
      refine Step.writes_given_ok (Expr.evaluate_constant hl) ?_
      simp only [hitems]
      exact Step.writes_seq (writes_column hunder hr.1 hr.2) (Step.writes_writeFragment s _)
  | @startsWith l r member start hl hr =>
      obtain ⟨col, hcol⟩ := Option.isSome_iff_exists.mp hl.2
      have hmember : l.withoutConvert.rowMember? = some member := by
        rw [hl.1]
        rfl
      have hcolumn : c.mappedColumn member s = .ok col := by
        unfold mappedColumn
        rw [hcol]
      rw [step_call hs (by simp)]
      refine Step.writes_given_ok (x := ⟨l, c.step l⟩) rfl ?_
      simp only [hmember]
      refine Step.writes_given_ok (x := ⟨r, c.step r⟩) rfl
        (Step.writes_given_ok (Expr.evaluate_constant hr) ?_)
      refine Step.writes_given_ok hcolumn ?_
      have hfragment : atomFragment c.mapping (.startsWith member start) =
          startsWithFragment (c.mapping.identifier col.name) start := by
        show Fragment.joined " AND " [c.mapping.columnFragment member ++ _,
          c.mapping.columnFragment member ++ _] = _
        rw [Mapping.columnFragment_eq hcol]
        rfl
      rw [hfragment]
      exact Step.writes_writeFragment s _

theorem conjunction_ne_nil (m : Mapping) {e : Expr} {atoms : List Atom}
    (h : m.ConjunctionOf e atoms) :
    (atoms.flatMap Atom.relations).map (Relation.fragment m) ≠ [] := by
  induction h with
  | @atom e a h =>
      rw [List.flatMap_singleton]
      exact fun hnil => a.relations_ne_nil (List.map_eq_nil_iff.mp hnil)
  | and hop hl hr ihl ihr =>
      rw [List.flatMap_append, List.map_append]
      exact List.append_ne_nil_of_left_ne_nil ihl _
  | convert h ih => exact ih

/-- **Conjunctions.** A conjunction is written as the relations of its atoms from left to right,
whatever its shape. -/
theorem writes_conjunction {e : Expr} {atoms : List Atom} (hs : s.phase = .condition)
    (h : c.mapping.ConjunctionOf e atoms) :
    Step.Writes (c.step e s) s.target
      (.ok (Fragment.joined " AND "
        ((atoms.flatMap Atom.relations).map (Relation.fragment c.mapping)))) := by
  induction h generalizing s with
  | @atom e a h =>
      rw [List.flatMap_singleton]
      exact writes_atom hs h
  | @and op l r as bs hop hl hr ihl ihr =>
      have hrelation : Step.Writes (relation "AND" ⟨l, c.step l⟩ ⟨r, c.step r⟩ s) s.target _ :=
        writes_relation (ihl (s := s.uncompared) hs) (ihr (s := s.uncompared) hs)
      have hjoined := Fragment.joined_append " AND " (conjunction_ne_nil c.mapping hl)
        (conjunction_ne_nil c.mapping hr)
      rw [List.flatMap_append, List.map_append, hjoined, step_and hs hop]
      exact hrelation
  | convert h ih => exact ih hs

end Context

/-! ## What atoms say -/

/-- Whether a comparison is true of values in that order. -/
def BinaryOp.accepts (op : BinaryOp) (o : Ordering) : Bool :=
  match op with
  | .eq => o == .eq
  | .ne => o != .eq
  | .gt => o == .gt
  | .gte => o != .lt
  | .lt => o == .lt
  | .lte => o != .gt
  | _ => false

theorem BinaryOp.accepts_swap {op inverse : BinaryOp} (h : op.inverse? = some inverse)
    (o : Ordering) : op.accepts o.swap = inverse.accepts o := by
  cases op <;> simp only [inverse?, Option.some.injEq, reduceCtorEq] at h <;> subst h <;>
    cases o <;> rfl

namespace Value

variable {op : BinaryOp} {a b v zero : Value}

theorem binary_of_compare {o : Ordering} (hop : op.isComparison = true)
    (h : a.compare? b = some o) : binary op a b = .ok (.boolean (op.accepts o)) := by
  have hequal : a.equal b = (o == .eq) := by
    unfold equal
    rw [h]
  have hcomparison : comparison a b = .ok o := by
    unfold comparison
    rw [h]
  cases op <;> first
    | exact absurd hop Bool.false_ne_true
    | (simp only [binary, hequal, hcomparison, BinaryOp.accepts, bne] <;> rfl)

/-- A comparison that has an outcome has a truth value. -/
theorem binary_boolean (hop : op.isComparison = true) (h : binary op a b = .ok v) :
    ∃ x, v = .boolean x := by
  cases op <;> first
    | exact absurd hop Bool.false_ne_true
    | exact ⟨_, (Except.ok.inj h).symm⟩
    | (obtain ⟨o, -, hv⟩ := Outcome.bind_eq_ok.mp h
       exact ⟨_, (Except.ok.inj hv).symm⟩)

theorem eq_zero_of_integer (h : zero.integer? = some 0) : zero = .int 0 ∨ zero = .bigint 0 := by
  cases zero with
  | int n => exact Or.inl (congrArg Value.int (Int32.toInt.inj (Option.some.inj h)))
  | bigint n => exact Or.inr (congrArg Value.bigint (Int64.toInt.inj (Option.some.inj h)))
  | _ => exact nomatch h

/-- Compared with zero, the number of an order gives the order back. -/
theorem compare_ofOrdering (o : Ordering) (h : zero.integer? = some 0) :
    (ofOrdering o).compare? zero = some o ∧ zero.compare? (ofOrdering o) = some o.swap := by
  rcases eq_zero_of_integer h with rfl | rfl <;> cases o <;> exact ⟨rfl, rfl⟩

/-- So a comparison with zero asks for the order, -/
theorem binary_ofOrdering (hop : op.isComparison = true) (o : Ordering)
    (h : zero.integer? = some 0) : binary op (ofOrdering o) zero = .ok (.boolean (op.accepts o)) :=
  binary_of_compare hop (compare_ofOrdering o h).1

/-- and with the zero first it is the inverse that does. -/
theorem binary_zero_ofOrdering {inverse : BinaryOp} (hop : op.inverse? = some inverse)
    (o : Ordering) (h : zero.integer? = some 0) :
    binary op zero (ofOrdering o) = .ok (.boolean (inverse.accepts o)) := by
  rw [binary_of_compare (BinaryOp.inverse_comparison hop).1 (compare_ofOrdering o h).2,
    BinaryOp.accepts_swap hop]

theorem compare_of_compareTo (h : ofCall .compareTo [a, b] = .ok v) :
    ∃ o, a.compare? b = some o ∧ v = ofOrdering o := by
  obtain ⟨o, ho, hv⟩ := Outcome.bind_eq_ok.mp h
  unfold comparison at ho
  split at ho
  · next o' hcompare => exact ⟨o', hcompare, Except.ok.inj ho ▸ (Except.ok.inj hv).symm⟩
  · exact nomatch ho

/-- The prefix test is about two texts. -/
theorem startsWith_eq_ok {start : String} (h : ofCall .startsWith [a, .text start] = .ok v) :
    ∃ s, a = .text s ∧ v = .boolean (start.toList.isPrefixOf s.toList) := by
  cases a with
  | text s => exact ⟨s, rfl, (Except.ok.inj h).symm⟩
  | _ => exact nomatch h

end Value

theorem Relation.all_singleton {row : String → Value} {r : Relation} {x : Bool}
    (h : r.outcome row = .ok (.boolean x)) :
    (∀ r' ∈ [r], r'.Decided row) ∧ Value.boolean x = .boolean ([r].all (·.holds row)) := by
  constructor
  · intro r' hr'
    rw [List.mem_singleton] at hr'
    exact hr' ▸ decided_of_outcome h
  · rw [List.all_cons, List.all_nil, Bool.and_true, holds_of_outcome h]

/-- **The range of a start.** -/
theorem holds_startsWith {row : String → Value} {member start s : String}
    (hrow : row member = .text s)
    (h : ¬(start.push Context.lastCodePoint).toList <+: s.toList) :
    (∀ r ∈ (Atom.startsWith member start).relations, r.Decided row) ∧
      start.toList.isPrefixOf s.toList =
        (Atom.startsWith member start).relations.all (·.holds row) := by
  have hcompare : ∀ op t, op.isComparison = true →
      (Relation.compare (.column member) op (.value (.text t))).outcome row =
        .ok (.boolean (op.accepts (Ord.compare s t))) := by
    intro op t hop
    refine Value.binary_of_compare hop ?_
    show (row member).compare? (.text t) = _
    rw [hrow]
    rfl
  have hfrom := hcompare .gte start rfl
  have hto := hcompare .lt (start.push Context.lastCodePoint) rfl
  constructor
  · intro r hr
    rcases List.mem_cons.mp hr with rfl | hr
    · exact Relation.decided_of_outcome hfrom
    · rw [List.mem_singleton] at hr
      exact hr ▸ Relation.decided_of_outcome hto
  · rw [startsWith_eq_range h]
    show _ = (Relation.holds row _ && (Relation.holds row _ && true))
    rw [Relation.holds_of_outcome hfrom, Relation.holds_of_outcome hto, Bool.and_true]
    rfl

/-- The value of a three-way comparison is the number of an order. -/
theorem evaluate_order {m : Mapping} {order l r : Expr} {member : String} {constant v : Value}
    {row : String → Value} (horder : order.Orders l r) (hl : m.Reads l member)
    (hr : r.Binds constant) (hv : (order.onRow row).evaluate = .ok v) :
    ∃ o, (row member).compare? constant = some o ∧ v = Value.ofOrdering o := by
  rw [← Expr.evaluate_onRow_withoutConvert, horder,
    Expr.evaluate_onRow_call (Expr.evaluate_onRow_column hl.1)
      (Expr.evaluate_onRow_constant hr.1)] at hv
  exact Value.compare_of_compareTo hv

/-- **What an atom says.** Where the atom has a value on a row, its relations have truth values
there, and together they say the same. -/
theorem holds_atom {m : Mapping} {e : Expr} {a : Atom} {row : String → Value} {v : Value}
    (h : m.AtomOf e a) (hrow : ¬a.Excluded row) (hv : (e.onRow row).evaluate = .ok v) :
    (∀ r ∈ a.relations, r.Decided row) ∧ v = .boolean (a.relations.all (·.holds row)) := by
  cases h with
  | @compare op l r member constant hop hl hr =>
      rw [Expr.evaluate_onRow_binary (Expr.evaluate_onRow_column hl.1)
        (Expr.evaluate_onRow_constant hr.1)] at hv
      obtain ⟨b, rfl⟩ := Value.binary_boolean hop hv
      exact Relation.all_singleton hv
  | @compareSwapped op l r member constant hop hl hr =>
      rw [Expr.evaluate_onRow_binary (Expr.evaluate_onRow_constant hl.1)
        (Expr.evaluate_onRow_column hr.1)] at hv
      obtain ⟨b, rfl⟩ := Value.binary_boolean hop hv
      exact Relation.all_singleton hv
  | @equals l r member constant hl hr =>
      rw [Expr.evaluate_onRow_call (Expr.evaluate_onRow_column hl.1)
        (Expr.evaluate_onRow_constant hr.1)] at hv
      rw [← Except.ok.inj hv]
      exact Relation.all_singleton rfl
  | @compareTo op order zero l r member constant hop horder hzero hl hr =>
      -- The zero gives the order back, and the relation goes by the same order.
      obtain ⟨x, y, hx, hy, hxy⟩ := Expr.evaluate_binary_eq_ok.mp hv
      obtain ⟨number, hnumber, hnull⟩ := hzero
      obtain ⟨o, ho, rfl⟩ := evaluate_order horder hl hr hx
      rw [Expr.evaluate_onRow_constant hnumber] at hy
      rw [← Except.ok.inj hy, Value.binary_ofOrdering hop o hnull] at hxy
      rw [← Except.ok.inj hxy]
      exact Relation.all_singleton (Value.binary_of_compare hop ho)
  | @compareToSwapped op inverse order zero l r member constant hop horder hzero hl hr =>
      -- With the zero first the order comes back swapped, which the inverse makes up for.
      obtain ⟨x, y, hx, hy, hxy⟩ := Expr.evaluate_binary_eq_ok.mp hv
      obtain ⟨number, hnumber, hnull⟩ := hzero
      obtain ⟨o, ho, rfl⟩ := evaluate_order horder hl hr hy
      rw [Expr.evaluate_onRow_constant hnumber] at hx
      rw [← Except.ok.inj hx, Value.binary_zero_ofOrdering hop o hnull] at hxy
      rw [← Except.ok.inj hxy]
      exact Relation.all_singleton
        (Value.binary_of_compare (BinaryOp.inverse_comparison hop).2 ho)
  | @contains l r member collection items hl hitems hr =>
      rw [Expr.evaluate_onRow_call (Expr.evaluate_onRow_constant hl)
        (Expr.evaluate_onRow_column hr.1)] at hv
      simp only [Value.ofCall, hitems] at hv
      rw [← Except.ok.inj hv]
      exact Relation.all_singleton rfl
  | @startsWith l r member start hl hr =>
      rw [Expr.evaluate_onRow_call (Expr.evaluate_onRow_column hl.1)
        (Expr.evaluate_onRow_constant hr)] at hv
      obtain ⟨s, hs, rfl⟩ := Value.startsWith_eq_ok hv
      obtain ⟨hdecided, hholds⟩ := holds_startsWith hs fun hprefix => hrow ⟨s, hs, hprefix⟩
      exact ⟨hdecided, congrArg Value.boolean hholds⟩

/-- **What a conjunction says.** It is true on a row exactly when all of its relations are. -/
theorem holds_conjunction {m : Mapping} {e : Expr} {atoms : List Atom} {row : String → Value}
    {v : Value} (h : m.ConjunctionOf e atoms) (hrow : ∀ a ∈ atoms, ¬a.Excluded row)
    (hv : (e.onRow row).evaluate = .ok v) :
    (∀ r ∈ atoms.flatMap Atom.relations, r.Decided row) ∧
      v = .boolean ((atoms.flatMap Atom.relations).all (·.holds row)) := by
  induction h generalizing v with
  | @atom e a h =>
      rw [List.flatMap_singleton]
      exact holds_atom h (hrow a (List.mem_singleton_self a)) hv
  | @and op l r as bs hop hl hr ihl ihr =>
      obtain ⟨x, y, hx, hy, hxy⟩ := Expr.evaluate_binary_eq_ok.mp hv
      obtain ⟨hleft, rfl⟩ := ihl (fun a ha => hrow a (List.mem_append_left _ ha)) hx
      obtain ⟨hright, rfl⟩ := ihr (fun a ha => hrow a (List.mem_append_right _ ha)) hy
      rw [List.flatMap_append, List.all_append]
      refine ⟨List.forall_mem_append.mpr ⟨hleft, hright⟩, ?_⟩
      rcases hop with rfl | rfl
      · exact (Except.ok.inj hxy).symm
      · exact (Except.ok.inj hxy).symm
  | convert h ih =>
      refine ih hrow ?_
      rw [← hv]
      exact (Expr.evaluate_convert _).symm

/-- **Conjunctions mean what they say.** A filter on a conjunction of atoms goes through. Its
condition is one relation for each atom, two for a start, from left to right with ` AND ` between
them, and the values are those of the relations in the same order. And on every row on which the
predicate has a value, that value is whether all of the relations hold, each of which is true or
false there; only rows that continue a start with the last code point are left out. -/
theorem filter_conjunction {t : Table} (kind : StatementKind) {e : Expr} {atoms : List Atom}
    (h : t.mapping.ConjunctionOf e atoms) :
    (∃ p, ((Query.ofOperators t [.filter e]).compile kind).outcome = .ok p ∧
        (∀ mode, p.rowConditions.text mode = " AND ".intercalate
          ((atoms.flatMap Atom.relations).map fun r => (r.fragment t.mapping).text mode)) ∧
        p.rowConditions.values =
          (atoms.flatMap Atom.relations).flatMap fun r => (r.fragment t.mapping).values) ∧
      ∀ row v, (∀ a ∈ atoms, ¬a.Excluded row) → (e.onRow row).evaluate = .ok v →
        (∀ r ∈ atoms.flatMap Atom.relations, r.Decided row) ∧
          v = .boolean ((atoms.flatMap Atom.relations).all (·.holds row)) := by
  have hlambda : e.asLambda = .lambda e := by
    cases h with
    | atom h => cases h <;> rfl
    | and => rfl
    | convert => rfl
  have hwrites := Context.writes_conjunction (c := ⟨t.mapping, kind⟩)
    (s := Scope.condition {} .rows) rfl h
  refine ⟨⟨_, Context.filter_outcome hlambda hwrites, fun mode => ?_, ?_⟩,
    fun row v hrow hv => holds_conjunction h hrow hv⟩
  · show Fragment.text mode (Fragment.joined " AND " _) = _
    rw [Fragment.text_joined, List.map_map]
    rfl
  · show Fragment.values (Fragment.joined " AND " _) = _
    rw [Fragment.values_joined, List.flatMap_map]

/-- The active people from a number on whose names have a given start. -/
def activePeople : Expr :=
  .binary .andAlso
    (.binary .and (.call .startsWith [.column "name", .constant (.text "j")])
      (.unary .convert (.binary .lte (.constant (.int 0))
        (.call .compareTo [.column "id", .constant (.bigint 7)]))))
    (.call .contains [.constant (.list [.boolean true]), .column "active"])

def activeAtoms : List Atom :=
  [.startsWith "name" "j", .compare (.column "id") .gte (.value (.bigint 7)),
    .among "active" [.boolean true]]

def joan : String → Value
  | "id" => .int 7
  | "name" => .text "joan"
  | _ => .boolean true

theorem filter_conjunction_activePeople :
    people.ConjunctionOf activePeople activeAtoms ∧
      (∃ p, ((Query.ofOperators { mapping := people } [.filter activePeople]).compile
          .select).outcome = .ok p ∧
        p.rowConditions.text .placeholder =
          "name >= ? AND name < ? AND id >= ? AND active IN (?)") ∧
      (∀ a ∈ activeAtoms, ¬a.Excluded joan) ∧
      (activePeople.onRow joan).evaluate = .ok (.boolean true) ∧
      (activeAtoms.flatMap Atom.relations).all (·.holds joan) = true := by
  have hatoms : people.ConjunctionOf activePeople activeAtoms := by
    have hname : people.AtomOf (.call .startsWith [.column "name", .constant (.text "j")])
        (.startsWith "name" "j") := .startsWith ⟨rfl, rfl⟩ rfl
    have hid : people.AtomOf
        (.binary .lte (.constant (.int 0)) (.call .compareTo [.column "id", .constant (.bigint 7)]))
        (.compare (.column "id") .gte (.value (.bigint 7))) :=
      .compareToSwapped rfl rfl ⟨.int 0, rfl, rfl⟩ ⟨rfl, rfl⟩ ⟨rfl, fun _ h => (nomatch h)⟩
    have hactive : people.AtomOf
        (.call .contains [.constant (.list [.boolean true]), .column "active"])
        (.among "active" [.boolean true]) := .contains rfl rfl ⟨rfl, rfl⟩
    exact .and (Or.inr rfl) (.and (Or.inl rfl) (.atom hname) (.convert (.atom hid))) (.atom hactive)
  have hstart : ¬("j".push Context.lastCodePoint).toList <+: "joan".toList := by decide
  have hrow : ∀ a ∈ activeAtoms, ¬a.Excluded joan := by
    simp only [activeAtoms, List.forall_mem_cons, List.not_mem_nil, false_imp_iff, implies_true]
    refine ⟨?_, id, id, trivial⟩
    rintro ⟨s, hs, hprefix⟩
    exact hstart (Value.text.inj hs ▸ hprefix)
  have hvalue : (activePeople.onRow joan).evaluate = .ok (.boolean true) := rfl
  obtain ⟨⟨p, hp, htext, -⟩, hholds⟩ :=
    filter_conjunction (t := { mapping := people }) .select hatoms
  refine ⟨hatoms, ⟨p, hp, (htext .placeholder).trans ?_⟩, hrow, hvalue, ?_⟩
  · rfl
  · exact (Value.boolean.inj (hholds joan _ hrow hvalue).2).symm

end TypedCql
