import TypedCql.Proofs.Legibility

/-!
# What a condition says

A reader of a condition goes by the symbols alone: comparisons are taken from the left, and
conjunctions after all comparisons. A predicate that is grouped this way is read as it is meant
(`Mapping.PredicateOf.readsAs`), so its condition tells it apart from every other such predicate.
Others are not told apart, since a condition has no marks of grouping: two predicates can leave the
same symbols and differ on a row.
-/

namespace TypedCql

/-! ## Grouping -/

namespace Expr

/-- The expression is a conjunction, up to conversions. -/
def isConjunction (e : Expr) : Bool :=
  match e.withoutConvert with
  | .binary op _ _ => op == .and || op == .andAlso
  | _ => false

/-- The expression is a comparison, up to conversions. -/
def isRelation (e : Expr) : Bool :=
  match e.withoutConvert with
  | .binary op _ _ => op.isComparison
  | _ => false

/-- The grouping is the one that the text suggests: no conjunction is compared with anything, and
no comparison is the right side of another one. -/
def groupsAsRead : Expr → Bool
  | .binary op l r =>
    (!op.isComparison || (!l.isConjunction && !r.isConjunction && !r.isRelation)) &&
      l.groupsAsRead && r.groupsAsRead
  | .unary _ e => e.groupsAsRead
  | _ => true

end Expr

/-! ## Reading -/

/-- What two values come to under an operator; of no interest where they do not. -/
def Value.joined (op : BinaryOp) (a b : Value) : Value :=
  match binary op a b with
  | .ok v => v
  | .error _ => .null

def Value.negated (a : Value) : Value :=
  match unary .not a with
  | .ok v => v
  | .error _ => .null

/-- A conjunction that has a value is one of two truth values. -/
theorem Value.and_eq_ok {op : BinaryOp} {a b v : Value} (hop : op = .and ∨ op = .andAlso)
    (h : binary op a b = .ok v) :
    ∃ x y, a = .boolean x ∧ b = .boolean y ∧ v = .boolean (x && y) := by
  have hlogical : logical op (· && ·) a b = .ok v := by
    rcases hop with rfl | rfl
    · exact h
    · exact h
  unfold logical at hlogical
  split at hlogical
  · next x y => exact ⟨x, y, rfl, rfl, (Except.ok.inj hlogical).symm⟩
  · exact nomatch hlogical

/-- What is known of the symbols between two brackets, as far as they have been read. -/
structure Frame where
  /-- The conjunction of what stands before the last `AND`. -/
  done : Option Value := none
  /-- What the next operand is compared with. -/
  left : Option (Value × BinaryOp) := none
  /-- The value of what follows the last `AND`. -/
  last : Value := .null

namespace Frame

def operand (f : Frame) (v : Value) : Frame where
  done := f.done
  left := none
  last :=
    match f.left with
    | some (a, op) => .joined op a v
    | none => v

def total (f : Frame) : Value :=
  match f.done with
  | some d => .joined .and d f.last
  | none => f.last

def operator (f : Frame) (op : BinaryOp) : Frame :=
  if op.isComparison then { f with left := some (f.last, op) } else { done := some f.total }

theorem operand_eq {f : Frame} (h : f.left = none) (v : Value) :
    f.operand v = { done := f.done, last := v } := by
  unfold operand
  rw [h]

theorem operator_comparison (f : Frame) {op : BinaryOp} (h : op.isComparison = true) :
    f.operator op = { f with left := some (f.last, op) } :=
  if_pos h

end Frame

namespace Symbol

/-- One symbol more is read. -/
def read (row : String → Value) : List Frame → Symbol → List Frame
  | f :: fs, .column member => f.operand (row member) :: fs
  | f :: fs, .value v => f.operand v :: fs
  | f :: fs, .operator op => f.operator op :: fs
  | fs, .openNot => {} :: fs
  | inner :: f :: fs, .close => f.operand inner.total.negated :: fs
  | fs, _ => fs

def readAll (row : String → Value) (fs : List Frame) (symbols : List Symbol) : List Frame :=
  symbols.foldl (read row) fs

theorem readAll_append (row : String → Value) (fs : List Frame) (as bs : List Symbol) :
    readAll row fs (as ++ bs) = readAll row (readAll row fs as) bs :=
  List.foldl_append

theorem readAll_cons (row : String → Value) (fs : List Frame) (a : Symbol) (bs : List Symbol) :
    readAll row fs (a :: bs) = readAll row (read row fs a) bs :=
  rfl

end Symbol

/-! ## Predicates are read as they are grouped -/

/-- How the value of an expression comes through to a reader of its symbols: as an operand
anywhere, unless it has operators outside of brackets; as the start of a comparison, unless it has
an `AND` there; and at the start or after an `AND` in any case. -/
structure ReadsAs (row : String → Value) (e : Expr) (symbols : List Symbol) (v : Value) : Prop where
  operand : e.isConjunction = false → e.isRelation = false → ∀ f fs,
    Symbol.readAll row (f :: fs) symbols = f.operand v :: fs
  chain : e.isConjunction = false → ∀ f fs, f.left = none →
    Symbol.readAll row (f :: fs) symbols = f.operand v :: fs
  conjunction : ∀ f fs, f.left = none → ∃ g,
    Symbol.readAll row (f :: fs) symbols = g :: fs ∧ g.left = none ∧
      g.total = (f.operand v).total

namespace ReadsAs

variable {row : String → Value} {e l r : Expr} {symbols left right : List Symbol} {a b v : Value}

theorem of_chain (hoperand : e.isConjunction = false → e.isRelation = false → ∀ f fs,
      Symbol.readAll row (f :: fs) symbols = f.operand v :: fs)
    (h : ∀ f fs, f.left = none → Symbol.readAll row (f :: fs) symbols = f.operand v :: fs) :
    ReadsAs row e symbols v where
  operand := hoperand
  chain _ := h
  conjunction f fs hf := ⟨f.operand v, h f fs hf, rfl, rfl⟩

theorem of_operand (h : ∀ f fs, Symbol.readAll row (f :: fs) symbols = f.operand v :: fs) :
    ReadsAs row e symbols v :=
  of_chain (fun _ _ => h) fun f fs _ => h f fs

/-- A conversion leaves neither a symbol nor a trace in the value. -/
theorem convert (h : ReadsAs row e symbols v) : ReadsAs row (.unary .convert e) symbols v where
  operand := h.operand
  chain := h.chain
  conjunction := h.conjunction

/-- A comparison whose left side can start one and whose right side is an operand. -/
theorem compare {op : BinaryOp} (hop : op.isComparison = true) (hl : ReadsAs row l left a)
    (hr : ReadsAs row r right b) (hleft : l.isConjunction = false)
    (hright : r.isConjunction = false) (hrelation : r.isRelation = false)
    (hv : Value.binary op a b = .ok v) :
    ReadsAs row (.binary op l r) (left ++ Symbol.ofOp op :: right) v := by
  have hjoined : Value.joined op a b = v := by
    unfold Value.joined
    rw [hv]
  refine of_chain (fun _ h => absurd (h.symm.trans hop) Bool.false_ne_true) fun f fs hf => ?_
  -- The left side leaves its value in `last`, and the operator keeps it there for the right side.
  have hsymbol : Symbol.ofOp op = .operator op := congrArg Symbol.operator (if_pos hop)
  rw [Symbol.readAll_append, hl.chain hleft f fs hf, Symbol.readAll_cons, hsymbol,
    Frame.operand_eq hf, Frame.operand_eq hf, ← hjoined]
  show Symbol.readAll row (Frame.operator _ op :: fs) right = _
  rw [Frame.operator_comparison _ hop, hr.operand hright hrelation]
  rfl

/-- A conjunction is associative where it has a value. -/
theorem joined_and_assoc (d : Value) (x y : Bool) :
    Value.joined .and (Value.joined .and d (.boolean x)) (.boolean y) =
      Value.joined .and d (.boolean (x && y)) := by
  cases d with
  | boolean z => exact congrArg Value.boolean (Bool.and_assoc z x y)
  | _ => rfl

theorem and {op : BinaryOp} (hop : op = .and ∨ op = .andAlso) (hl : ReadsAs row l left a)
    (hr : ReadsAs row r right b) (hv : Value.binary op a b = .ok v) :
    ReadsAs row (.binary op l r) (left ++ Symbol.ofOp op :: right) v := by
  have hsymbol : Symbol.ofOp op = .operator .and := by rcases hop with rfl | rfl <;> rfl
  have hconjunction : (Expr.binary op l r).isConjunction = true := by
    rcases hop with rfl | rfl <;> rfl
  obtain ⟨x, y, rfl, rfl, rfl⟩ := Value.and_eq_ok hop hv
  refine ⟨fun h => absurd (h.symm.trans hconjunction) Bool.false_ne_true,
    fun h => absurd (h.symm.trans hconjunction) Bool.false_ne_true, fun f fs hf => ?_⟩
  obtain ⟨g, hread, -, htotal⟩ := hl.conjunction f fs hf
  obtain ⟨g', hread', hfree, htotal'⟩ := hr.conjunction { done := some g.total } fs rfl
  refine ⟨g', ?_, hfree, ?_⟩
  · rw [Symbol.readAll_append, hread, Symbol.readAll_cons, hsymbol]
    exact hread'
  · -- What was done before meets the two sides one after the other, or both at once.
    rw [htotal', Frame.operand_eq rfl]
    show Value.joined .and g.total (.boolean y) = _
    rw [htotal, Frame.operand_eq hf, Frame.operand_eq hf]
    unfold Frame.total
    cases hdone : f.done with
    | none => rfl
    | some d => exact joined_and_assoc d x y

theorem not (h : ReadsAs row e symbols a) (hv : Value.unary .not a = .ok v) :
    ReadsAs row (.unary .not e) (.openNot :: (symbols ++ [.close])) v := by
  have hnegated : a.negated = v := by
    unfold Value.negated
    rw [hv]
  -- Between the brackets a new frame is read, whatever the one around it waits for.
  refine of_operand fun f fs => ?_
  obtain ⟨g, hread, -, htotal⟩ := h.conjunction {} (f :: fs) rfl
  have hvalue : g.total = a := htotal
  rw [Symbol.readAll_cons, Symbol.readAll_append]
  show Symbol.readAll row (Symbol.readAll row ({} :: f :: fs) symbols) [.close] = _
  rw [hread, ← hnegated, ← hvalue]
  rfl

end ReadsAs

/-- A predicate without the row is the same on every row. -/
theorem Mapping.PredicateOf.onRow_of_rowless {m : Mapping} {e : Expr} (h : m.PredicateOf e)
    (hrow : e.usesRow = false) (row : String → Value) : e.onRow row = e := by
  induction h with
  | column h => exact nomatch hrow
  | value h => rfl
  | compare hop hl hr ihl ihr =>
      obtain ⟨hleft, hright⟩ := Bool.or_eq_false_iff.mp hrow
      show Expr.binary _ _ _ = _
      rw [ihl hleft, ihr hright]
  | and hop hl hr ihl ihr =>
      obtain ⟨hleft, hright⟩ := Bool.or_eq_false_iff.mp hrow
      show Expr.binary _ _ _ = _
      rw [ihl hleft, ihr hright]
  | not h ih => exact congrArg (Expr.unary .not) (ih hrow)
  | convert h ih => exact congrArg (Expr.unary .convert) (ih hrow)

/-- **Predicates are read as they are grouped.** -/
theorem Mapping.PredicateOf.readsAs {m : Mapping} {e : Expr} (h : m.PredicateOf e)
    {row : String → Value} {symbols : List Symbol} {v : Value} (hgroups : e.groupsAsRead = true)
    (hsymbols : e.symbols = .ok symbols) (hv : (e.onRow row).evaluate = .ok v) :
    ReadsAs row e symbols v := by
  induction h generalizing symbols v with
  | column h =>
      rw [← Except.ok.inj hsymbols, ← Except.ok.inj hv]
      exact .of_operand fun _ _ => rfl
  | value h =>
      rw [← Except.ok.inj hsymbols, ← Except.ok.inj hv]
      exact .of_operand fun _ _ => rfl
  | @compare op l r hop hl hr ihl ihr =>
      obtain ⟨left, right, hleft, hright, rfl⟩ := Expr.symbols_binary_eq_ok.mp hsymbols
      obtain ⟨a, b, ha, hb, hab⟩ := Expr.evaluate_binary_eq_ok.mp hv
      simp only [Expr.groupsAsRead, hop, Bool.not_true, Bool.false_or, Bool.and_eq_true,
        Bool.not_eq_true'] at hgroups
      obtain ⟨⟨⟨⟨hlc, hrc⟩, hrr⟩, hgl⟩, hgr⟩ := hgroups
      exact .compare hop (ihl hgl hleft ha) (ihr hgr hright hb) hlc hrc hrr hab
  | @and op l r hop hl hr ihl ihr =>
      obtain ⟨left, right, hleft, hright, rfl⟩ := Expr.symbols_binary_eq_ok.mp hsymbols
      obtain ⟨a, b, ha, hb, hab⟩ := Expr.evaluate_binary_eq_ok.mp hv
      simp only [Expr.groupsAsRead, Bool.and_eq_true] at hgroups
      obtain ⟨⟨-, hgl⟩, hgr⟩ := hgroups
      exact .and hop (ihl hgl hleft ha) (ihr hgr hright hb) hab
  | @not e h ih =>
      rcases Expr.symbols_not_cases hsymbols with ⟨inner, hinner, rfl⟩ | ⟨hrow, w, hw, rfl⟩
      · obtain ⟨a, ha, hav⟩ := Expr.evaluate_unary_eq_ok.mp hv
        exact .not (ih hgroups hinner ha) hav
      · have hsame : (Expr.unary .not e).onRow row = .unary .not e :=
          congrArg (Expr.unary .not) (h.onRow_of_rowless hrow row)
        rw [hsame, hw] at hv
        rw [← Except.ok.inj hv]
        exact .of_operand fun _ _ => rfl
  | convert h ih =>
      refine (ih hgroups hsymbols ?_).convert
      rw [← hv]
      exact (Expr.evaluate_convert _).symm

/-! ## Telling predicates apart -/

/-- What a filter on a predicate comes to, if it goes through. -/
theorem filter_symbols {t : Table} {kind : StatementKind} {e : Expr} {p : Parts}
    (h : t.mapping.PredicateOf e)
    (hp : ((Query.ofOperators t [.filter e]).compile kind).outcome = .ok p) :
    ∃ symbols, e.symbols = .ok symbols ∧
      p.rowConditions = Symbol.fragments t.mapping symbols := by
  have hlambda : e.asLambda = .lambda e := by cases h <;> rfl
  have hwrites := Context.writes_symbols (c := ⟨t.mapping, kind⟩)
    (s := Scope.condition {} .rows) rfl h
  rw [Context.filter_outcome hlambda hwrites] at hp
  obtain ⟨f, hf, rfl⟩ := Outcome.map_eq_ok.mp hp
  obtain ⟨symbols, hsymbols, rfl⟩ := Outcome.map_eq_ok.mp hf
  exact ⟨symbols, hsymbols, rfl⟩

/-- **Conditions tell predicates apart.** Two predicates that are grouped as their texts suggest,
on a mapping with legible names: if a filter on the one and a filter on the other have the same
text and the same values, then wherever both have a value it is the same. -/
theorem filter_determines_value {t : Table} {entity : EntityType} {d : Definition}
    (kind : StatementKind) {e e' : Expr} {p p' : Parts}
    (hbuilt : (Mapping.build entity d).outcome = .ok t.mapping) (hlegible : t.mapping.Legible)
    (he : t.mapping.PredicateOf e) (he' : t.mapping.PredicateOf e')
    (hgroups : e.groupsAsRead = true) (hgroups' : e'.groupsAsRead = true)
    (hp : ((Query.ofOperators t [.filter e]).compile kind).outcome = .ok p)
    (hp' : ((Query.ofOperators t [.filter e']).compile kind).outcome = .ok p')
    (htext : p.rowConditions.text .placeholder = p'.rowConditions.text .placeholder)
    (hvalues : p.rowConditions.values = p'.rowConditions.values) (row : String → Value)
    {v v' : Value} (hv : (e.onRow row).evaluate = .ok v)
    (hv' : (e'.onRow row).evaluate = .ok v') : v = v' := by
  obtain ⟨symbols, hsymbols, hfragments⟩ := filter_symbols he hp
  obtain ⟨symbols', hsymbols', hfragments'⟩ := filter_symbols he' hp'
  rw [hfragments, hfragments'] at htext hvalues
  have hsentence : t.mapping.Sentence .operand symbols := by
    simpa using he.sentence hsymbols .nil
  have hsentence' : t.mapping.Sentence .operand symbols' := by
    simpa using he'.sentence hsymbols' .nil
  have hsame : symbols = symbols' := hsentence.unique hlegible
    (fun ha hb hname => Mapping.build_member_eq hbuilt ha hb hname) hsentence'
    (congrArg String.toList htext) hvalues
  subst hsame
  obtain ⟨g, hread, -, htotal⟩ := (he.readsAs hgroups hsymbols hv).conjunction {} [] rfl
  obtain ⟨g', hread', -, htotal'⟩ := (he'.readsAs hgroups' hsymbols' hv').conjunction {} [] rfl
  have hframe : g = g' := (List.cons.inj (hread.symm.trans hread')).1
  calc v = g.total := htotal.symm
    _ = g'.total := by rw [hframe]
    _ = v' := htotal'

/-- The people who are active and verified and are not the first one, grouped to the right. -/
def otherPeople : Expr :=
  .binary .andAlso (.binary .eq (.column "active") (.constant (.boolean true)))
    (.binary .and (.binary .eq (.column "verified") (.column "active"))
      (.unary .not (.binary .eq (.column "id") (.constant (.int 1)))))

/-- The same people, grouped to the left. -/
def otherPeople' : Expr :=
  .binary .and
    (.unary .convert (.binary .and
      (.binary .eq (.unary .convert (.column "active")) (.constant (.boolean true)))
      (.binary .eq (.column "verified") (.column "active"))))
    (.unary .not (.binary .eq (.column "id") (.constant (.int 1))))

/-- The second person, who is active and verified. -/
def secondPerson : String → Value
  | "id" => .int 2
  | _ => .boolean true

theorem filter_determines_value_otherPeople :
    people.Legible ∧ people.PredicateOf otherPeople ∧ people.PredicateOf otherPeople' ∧
      (∃ p p', ((Query.ofOperators { mapping := people } [.filter otherPeople]).compile
          .select).outcome = .ok p ∧
        ((Query.ofOperators { mapping := people } [.filter otherPeople']).compile
          .select).outcome = .ok p' ∧
        p.rowConditions.text .placeholder = p'.rowConditions.text .placeholder ∧
        p.rowConditions.values = p'.rowConditions.values) ∧
      ∃ v v', (otherPeople.onRow secondPerson).evaluate = .ok v ∧
        (otherPeople'.onRow secondPerson).evaluate = .ok v' ∧ v = v' := by
  have hlegible : people.Legible := Or.inr (by decide)
  have hnot : people.PredicateOf (.unary .not (.binary .eq (.column "id") (.constant (.int 1)))) :=
    .not (.compare rfl (.column rfl) (.value fun _ h => (nomatch h)))
  have hverified : people.PredicateOf (.binary .eq (.column "verified") (.column "active")) :=
    .compare rfl (.column rfl) (.column rfl)
  have htrue : people.PredicateOf (.constant (.boolean true)) := .value fun _ h => (nomatch h)
  have hright : people.PredicateOf otherPeople :=
    .and (Or.inr rfl) (.compare rfl (.column rfl) htrue) (.and (Or.inl rfl) hverified hnot)
  have hleft : people.PredicateOf otherPeople' :=
    .and (Or.inl rfl)
      (.convert (.and (Or.inl rfl) (.compare rfl (.convert (.column rfl)) htrue) hverified)) hnot
  refine ⟨hlegible, hright, hleft, ⟨_, _, rfl, rfl, rfl, rfl⟩, _, _, rfl, rfl, ?_⟩
  exact filter_determines_value (t := { mapping := people }) .select people_built hlegible hright
    hleft rfl rfl rfl rfl rfl rfl secondPerson rfl rfl

/-! ## Predicates that are confused -/

/-- Two predicates that a filter writes alike, although they differ on a row. -/
def Mapping.Confuses (m : Mapping) (e e' : Expr) (row : String → Value) : Prop :=
  m.PredicateOf e ∧ m.PredicateOf e' ∧
    (∃ p p', ((Query.ofOperators { mapping := m } [.filter e]).compile .select).outcome = .ok p ∧
      ((Query.ofOperators { mapping := m } [.filter e']).compile .select).outcome = .ok p' ∧
      p.rowConditions.text .placeholder = p'.rowConditions.text .placeholder ∧
      p.rowConditions.values = p'.rowConditions.values) ∧
    ∃ v v', (e.onRow row).evaluate = .ok v ∧ (e'.onRow row).evaluate = .ok v' ∧ v ≠ v'

/-- Unquoted columns with names that no table should have. -/
def oddType : EntityType where
  id := 1
  name := "Odd"
  members := ["a", "b", "a = b", "?", "x", "x)", "y)", "y))"].map (⟨·, .scalar .boolean⟩)

def oddNames : Mapping :=
  .ofColumns oddType .conventional (oddType.members.map (Column.ofMember · {}))

theorem oddNames_built : (Mapping.build oddType .conventional).outcome = .ok oddNames := rfl

/-- **Confused predicates.** A conjunction that is compared is written like a comparison in a
conjunction, and a comparison on the right of another like one on its left. Without quotes, a name
with a blank can look like a comparison, the name `?` like a value, and names with brackets like
the ends of negations. -/
theorem predicates_confused :
    (Mapping.build personType .conventional).outcome = .ok people ∧
    people.Confuses
      (.binary .eq (.column "active")
        (.binary .andAlso (.constant (.boolean true))
          (.binary .eq (.column "verified") (.constant (.boolean true)))))
      (.binary .andAlso (.binary .eq (.column "active") (.constant (.boolean true)))
        (.binary .eq (.column "verified") (.constant (.boolean true))))
      (fun _ => .boolean false) ∧
    people.Confuses
      (.binary .lt (.column "active")
        (.binary .lt (.column "verified") (.constant (.boolean true))))
      (.binary .lt (.binary .lt (.column "active") (.column "verified"))
        (.constant (.boolean true)))
      (fun name => .boolean (name == "active")) ∧
    (Mapping.build oddType .conventional).outcome = .ok oddNames ∧
    oddNames.Confuses (.column "a = b") (.binary .eq (.column "a") (.column "b"))
      (fun _ => .boolean false) ∧
    oddNames.Confuses (.binary .lt (.column "?") (.constant (.int 1)))
      (.binary .lt (.constant (.int 1)) (.column "?")) (fun _ => .int 0) ∧
    oddNames.Confuses
      (.binary .and (.unary .not (.unary .not (.column "x"))) (.column "y))"))
      (.unary .not (.binary .and (.unary .not (.column "x)")) (.column "y)")))
      (fun name => .boolean (name != "x)")) := by
  have htrue : people.PredicateOf (.constant (.boolean true)) := .value fun _ h => (nomatch h)
  have hone : oddNames.PredicateOf (.constant (.int 1)) := .value fun _ h => (nomatch h)
  have hverified : people.PredicateOf
      (.binary .eq (.column "verified") (.constant (.boolean true))) :=
    .compare rfl (.column rfl) htrue
  have hdiffer : Value.boolean true ≠ .boolean false := fun h => (nomatch h)
  refine ⟨people_built, ?_, ?_, oddNames_built, ?_, ?_, ?_⟩
  · exact ⟨.compare rfl (.column rfl) (.and (Or.inr rfl) htrue hverified),
      .and (Or.inr rfl) (.compare rfl (.column rfl) htrue) hverified,
      ⟨_, _, rfl, rfl, rfl, rfl⟩, .boolean true, .boolean false, rfl, rfl, hdiffer⟩
  · exact ⟨.compare rfl (.column rfl) (.compare rfl (.column rfl) htrue),
      .compare rfl (.compare rfl (.column rfl) (.column rfl)) htrue,
      ⟨_, _, rfl, rfl, rfl, rfl⟩, .boolean false, .boolean true, rfl, rfl, hdiffer.symm⟩
  · exact ⟨.column rfl, .compare rfl (.column rfl) (.column rfl),
      ⟨_, _, rfl, rfl, rfl, rfl⟩, .boolean false, .boolean true, rfl, rfl, hdiffer.symm⟩
  · exact ⟨.compare rfl (.column rfl) hone, .compare rfl hone (.column rfl),
      ⟨_, _, rfl, rfl, rfl, rfl⟩, .boolean true, .boolean false, rfl, rfl, hdiffer⟩
  · exact ⟨.and (Or.inl rfl) (.not (.not (.column rfl))) (.column rfl),
      .not (.and (Or.inl rfl) (.not (.column rfl)) (.column rfl)),
      ⟨_, _, rfl, rfl, rfl, rfl⟩, .boolean true, .boolean false, rfl, rfl, hdiffer⟩

end TypedCql
