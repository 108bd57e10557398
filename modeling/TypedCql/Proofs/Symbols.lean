import TypedCql.Proofs.Predicates

/-!
# Conditions as sequences of symbols

A condition made of members, values, comparisons, conjunctions and negations is written without
marks of grouping, but for the brackets of a negation. What is left of the predicate is a sequence
of symbols: operands with operators between them. This module says which sequence a predicate
leaves, and that the sequence is all that is written.
-/

namespace TypedCql

inductive Symbol
  | column (member : String)
  | value (v : Value)
  /-- A comparison, or the one conjunction that conditions have. -/
  | operator (op : BinaryOp)
  | openNot
  | close

namespace Symbol

def fragment (m : Mapping) : Symbol → Fragment
  | .column member => m.columnFragment member
  | .value v => [.value v]
  | .operator op => [.verbatim (" " ++ op.cql?.getD "" ++ " ")]
  | .openNot => [.verbatim "NOT ("]
  | .close => [.verbatim ")"]

/-- The symbols one after the other. -/
def fragments (m : Mapping) (symbols : List Symbol) : Fragment := symbols.flatMap (fragment m)

/-- The symbol of an operator. Both forms of conjunction are written alike. -/
def ofOp (op : BinaryOp) : Symbol := .operator (if op.isComparison then op else .and)

end Symbol

/-- The predicates built of mapped members of the row, values that bind as a whole, comparisons,
conjunctions, negations and conversions, nested in any way. -/
inductive Mapping.PredicateOf (m : Mapping) : Expr → Prop
  | column {member} (h : (m.column? member).isSome = true) : m.PredicateOf (.column member)
  | value {v} (h : ∀ items, v ≠ .token items) : m.PredicateOf (.constant v)
  | compare {op l r} (hop : op.isComparison = true) (hl : m.PredicateOf l)
      (hr : m.PredicateOf r) : m.PredicateOf (.binary op l r)
  | and {op l r} (hop : op = .and ∨ op = .andAlso) (hl : m.PredicateOf l)
      (hr : m.PredicateOf r) : m.PredicateOf (.binary op l r)
  | not {e} (h : m.PredicateOf e) : m.PredicateOf (.unary .not e)
  | convert {e} (h : m.PredicateOf e) : m.PredicateOf (.unary .convert e)

/-- The symbols that a predicate leaves. A negation that does not depend on the row leaves its
value. -/
def Expr.symbols : Expr → Outcome (List Symbol)
  | .member _ name => .ok [.column name]
  | .constant v => .ok [.value v]
  | .binary op l r => l.symbols >>= fun left => r.symbols.map fun right =>
    left ++ .ofOp op :: right
  | .unary .not e =>
    if e.usesRow then e.symbols.map fun inner => .openNot :: (inner ++ [.close])
    else (Expr.unary .not e).evaluate.map fun v => [.value v]
  | .unary _ e => e.symbols
  | _ => .ok []

theorem Expr.symbols_binary_eq_ok {op : BinaryOp} {l r : Expr} {symbols : List Symbol} :
    (Expr.binary op l r).symbols = .ok symbols ↔
      ∃ left right, l.symbols = .ok left ∧ r.symbols = .ok right ∧
        symbols = left ++ .ofOp op :: right := by
  show (l.symbols >>= fun left => r.symbols.map fun right => left ++ .ofOp op :: right) = _ ↔ _
  rw [Outcome.bind_eq_ok]
  constructor
  · rintro ⟨left, hleft, h⟩
    obtain ⟨right, hright, rfl⟩ := Outcome.map_eq_ok.mp h
    exact ⟨left, right, hleft, hright, rfl⟩
  · rintro ⟨left, right, hleft, hright, rfl⟩
    exact ⟨left, hleft, Outcome.map_eq_ok.mpr ⟨right, hright, rfl⟩⟩

/-- A negation leaves brackets, or its value. -/
theorem Expr.symbols_not_cases {e : Expr} {symbols : List Symbol}
    (h : (Expr.unary .not e).symbols = .ok symbols) :
    (∃ inner, e.symbols = .ok inner ∧ symbols = .openNot :: (inner ++ [.close])) ∨
      (e.usesRow = false ∧
        ∃ v, (Expr.unary .not e).evaluate = .ok v ∧ symbols = [.value v]) := by
  by_cases hrow : e.usesRow = true
  · rw [show (Expr.unary .not e).symbols = _ from if_pos hrow] at h
    obtain ⟨inner, hinner, rfl⟩ := Outcome.map_eq_ok.mp h
    exact Or.inl ⟨inner, hinner, rfl⟩
  · rw [show (Expr.unary .not e).symbols = _ from if_neg hrow] at h
    obtain ⟨v, hv, rfl⟩ := Outcome.map_eq_ok.mp h
    exact Or.inr ⟨Bool.eq_false_iff.mpr hrow, v, hv, rfl⟩

/-! ## The symbols are what is written -/

/-- A negation is true or false, if it is anything. -/
theorem Expr.evaluate_not_boolean {e : Expr} {v : Value}
    (h : (Expr.unary .not e).evaluate = .ok v) : ∃ b, v = .boolean b := by
  obtain ⟨a, -, hv⟩ := Expr.evaluate_unary_eq_ok.mp h
  cases a with
  | boolean b => exact ⟨!b, (Except.ok.inj hv).symm⟩
  | _ => exact nomatch hv

namespace Context

variable {c : Context} {s : Scope}

theorem not_isThreeWay {m : Mapping} {e : Expr} (h : m.PredicateOf e) : isThreeWay e = false := by
  induction h with
  | convert h ih => exact ih
  | _ => rfl

/-- Two operands with an operator between them. -/
theorem writes_operator {op : BinaryOp} {tag : String} {l r : Expr}
    {left right : Outcome (List Symbol)}
    (htag : Symbol.fragment c.mapping (.ofOp op) = [.verbatim (" " ++ tag ++ " ")])
    (hl : Step.Writes (c.step l s.uncompared) s.target (left.map (Symbol.fragments c.mapping)))
    (hr : Step.Writes (c.step r s.uncompared) s.target (right.map (Symbol.fragments c.mapping))) :
    Step.Writes (relation tag ⟨l, c.step l⟩ ⟨r, c.step r⟩ s) s.target
      ((left >>= fun f => right.map fun g => f ++ Symbol.ofOp op :: g).map
        (Symbol.fragments c.mapping)) := by
  have hrelation : Step.Writes (relation tag ⟨l, c.step l⟩ ⟨r, c.step r⟩ s) s.target _ :=
    writes_relation hl hr
  intro p
  refine (hrelation p).trans (congrArg _ ?_)
  cases left with
  | error e => rfl
  | ok f =>
      cases right with
      | error e => rfl
      | ok g =>
          refine congrArg Except.ok ?_
          show _ = (f ++ Symbol.ofOp op :: g).flatMap _
          rw [List.flatMap_append, List.flatMap_cons, htag]
          rfl

theorem step_not_of_usesRow {e : Expr} (hs : s.phase = .condition) (hrow : e.usesRow = true) :
    c.step (.unary .not e) s =
      (Step.write s "NOT (" >=> c.step e s.uncompared >=> Step.write s ")") := by
  have hnode : (Expr.unary .not e).usesRow = true := hrow
  show c.unaryStep .not ⟨e, c.step e⟩ (.unary .not e) s = _
  simp only [unaryStep, hs, hnode, if_true]

/-- A negation that does not depend on the row is evaluated, and its value bound. -/
theorem step_not_of_rowless {e : Expr} (hs : s.phase = .condition) (hrow : ¬e.usesRow = true) :
    c.step (.unary .not e) s =
      Step.given (Expr.unary .not e).evaluate fun v => Step.writeFragment s (valueFragment v) := by
  have hnode : ¬(Expr.unary .not e).usesRow = true := hrow
  show c.unaryStep .not ⟨e, c.step e⟩ (.unary .not e) s = _
  simp only [unaryStep, hs, if_neg hnode, fold, bindValue, ne_eq, not_true_eq_false, false_and,
    if_false]

theorem writes_brackets {e : Expr} {inner : Outcome (List Symbol)}
    (h : Step.Writes (c.step e s.uncompared) s.target (inner.map (Symbol.fragments c.mapping))) :
    Step.Writes (Step.write s "NOT (" >=> c.step e s.uncompared >=> Step.write s ")") s.target
      ((inner.map fun symbols => Symbol.openNot :: (symbols ++ [.close])).map
        (Symbol.fragments c.mapping)) := by
  have hseq := Step.writes_seq (Step.writes_write s "NOT (")
    (Step.writes_seq h (Step.writes_write s ")"))
  intro p
  refine (hseq p).trans (congrArg _ ?_)
  cases inner with
  | error e => rfl
  | ok symbols =>
      refine congrArg Except.ok ?_
      show _ = (Symbol.openNot :: (symbols ++ [.close])).flatMap _
      rw [List.flatMap_cons, List.flatMap_append]
      rfl

/-- **Conditions are their symbols.** Nothing else of a predicate is written, and what keeps it
from being written is a negation that cannot be evaluated. -/
theorem writes_symbols {e : Expr} (hs : s.phase = .condition) (h : c.mapping.PredicateOf e) :
    Step.Writes (c.step e s) s.target (e.symbols.map (Symbol.fragments c.mapping)) := by
  induction h generalizing s with
  | @column member h =>
      show Step.Writes _ _ (.ok (Symbol.fragments c.mapping [.column member]))
      unfold Symbol.fragments
      rw [List.flatMap_singleton]
      exact writes_column hs rfl h
  | @value v h =>
      have hwrites := writes_value (c := c) (e := .constant v) hs rfl h
      exact hwrites
  | @compare op l r hop hl hr ihl ihr =>
      have hsymbol : Symbol.fragment c.mapping (.ofOp op) =
          [.verbatim (" " ++ op.cql?.getD "" ++ " ")] := by
        simp only [Symbol.ofOp, hop, if_true, Symbol.fragment]
      rw [step_comparison hs hop (not_isThreeWay hl) (not_isThreeWay hr)]
      exact writes_operator hsymbol (ihl (s := s.uncompared) hs) (ihr (s := s.uncompared) hs)
  | @and op l r hop hl hr ihl ihr =>
      have hsymbol : Symbol.fragment c.mapping (.ofOp op) = [.verbatim (" " ++ "AND" ++ " ")] := by
        rcases hop with rfl | rfl <;> rfl
      rw [step_and hs hop]
      exact writes_operator hsymbol (ihl (s := s.uncompared) hs) (ihr (s := s.uncompared) hs)
  | @not e h ih =>
      by_cases hrow : e.usesRow = true
      · have hsymbols : (Expr.unary .not e).symbols =
            e.symbols.map fun inner => .openNot :: (inner ++ [.close]) := if_pos hrow
        rw [step_not_of_usesRow hs hrow, hsymbols]
        refine writes_brackets ?_
        exact ih (s := s.uncompared) hs
      · have hsymbols : (Expr.unary .not e).symbols =
            (Expr.unary .not e).evaluate.map fun v => [.value v] := if_neg hrow
        rw [step_not_of_rowless hs hrow, hsymbols]
        intro p
        rw [Step.writes_given (fun v _ => Step.writes_writeFragment s (valueFragment v)) p]
        cases hv : (Expr.unary .not e).evaluate with
        | error e => rfl
        | ok v =>
            obtain ⟨b, rfl⟩ := Expr.evaluate_not_boolean hv
            rfl
  | convert h ih => exact ih hs

end Context

end TypedCql
