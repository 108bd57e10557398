import TypedCql.Expr.Evaluate
import TypedCql.Mapping.Basic
import TypedCql.Query.Scope

/-!
# Compiling queries

A query expression is walked once, and each of its nodes adds to the parts of the statement
what it means in its scope. What CQL cannot express is evaluated, and its value bound in its
place. The walk is compositional: a node does its work with the steps of its operands.
-/

namespace TypedCql

/-- What an expression adds to the parts of a statement. -/
abbrev Step := Parts → Traced Parts

namespace Step

def fail (e : Error) : Step := fun _ => .fail e

def unsupported (node : Expr) (s : Scope) : Step := fail (.unsupported node.text s.phase)

def modify (f : Parts → Parts) : Step := fun p => .pure (f p)

/-- Goes on with a result, if there is one. -/
def given (o : Outcome α) (next : α → Step) : Step := fun p =>
  Traced.ofOutcome o >>= (next · p)

/-- Adds text to the conditions of the scope. -/
def write (s : Scope) (text : String) : Step :=
  modify (·.addCondition s.target [.verbatim text])

/-- Adds a fragment to the conditions of the scope. -/
def writeFragment (s : Scope) (f : Fragment) : Step := modify (·.addCondition s.target f)

/-- Joins the next predicate to the conditions that are there already. -/
def openCondition (target : ConditionTarget) : Step :=
  modify fun p =>
    if (p.conditions target).isBlank then p else p.addCondition target [.verbatim " AND "]

/-- Steps one after the other. -/
def sequence : List Step → Step
  | [] => .pure
  | first :: rest => first >=> sequence rest

/-- Steps with text written between each two of them. -/
def separated (s : Scope) (separator : String) : List Step → Step
  | [] => .pure
  | [step] => step
  | step :: rest => step >=> write s separator >=> separated s separator rest

end Step

/-- What a query is compiled against. -/
structure Context where
  mapping : Mapping
  kind : StatementKind

/-- An operand of a node, with the step it takes in a scope. -/
structure Operand where
  expr : Expr
  step : Scope → Step

namespace Context

/-- The column of a member, which the phase cannot do without. -/
def mappedColumn (c : Context) (member : String) (s : Scope) : Outcome Column :=
  match c.mapping.column? member with
  | some column => .ok column
  | none => .error (.mapping (.unmappedMember member c.mapping.entity.name s.phase))

/-! ## Assigning -/

/-- Which ways of combining a value with the old one the type of a column allows. -/
def checkedKind (column : Column) (kind : AssignmentKind) : Outcome AssignmentKind :=
  if column.counter then
    match kind with
    | .assign | .increment | .append => .ok .increment
    | .decrement | .remove => .ok .decrement
    | .prepend => .error (.mapping (.prependToCounter column.name))
  else
    match kind with
    | .assign => .ok kind
    | .prepend =>
      if column.type.isList then .ok kind
      else .error (.mapping (.prependToOther column.name column.type))
    | .append | .remove =>
      if column.type.isCollection then .ok kind
      else .error (.mapping (.appendToOther column.name column.type))
    | .increment | .decrement => .error (.mapping (.countOther column.name column.type))

/-- The assignment of a value to a member. Counters only count, by integers. -/
def assignment (c : Context) (member : String) (v : Value) (kind : AssignmentKind) :
    Outcome Assignment := do
  if c.kind = .select ∨ c.kind = .count then
    throw (.conflict (.assignmentInQuery c.kind member))
  match c.mapping.column? member with
  | none => throw (.mapping (.unassignableMember member c.mapping.entity.name))
  | some column =>
    let kind ← checkedKind column kind
    if column.counter ∧ v.integer?.isNone then
      throw (.argument (.counterValueNotInteger column.name v.kind))
    return ⟨c.mapping.identifier column.name, v, kind⟩

def assign (c : Context) (member : String) (v : Value) (kind : AssignmentKind) : Step :=
  Step.given (c.assignment member v kind) fun a =>
    Step.modify fun p => { p with assignments := p.assignments ++ [a] }

/-! ## Values -/

/-- The limit that a value sets. -/
def limitOf (v : Value) : Outcome Int32 :=
  match v.integer? with
  | some n =>
    if Int32.minValue.toInt ≤ n ∧ n ≤ Int32.maxValue.toInt then .ok (Int32.ofInt n)
    else .error (.argument (.limitNotInt v.kind))
  | none => .error (.argument (.limitNotInt v.kind))

/-- A value in a condition. The components of a token bind one by one. -/
def valueFragment : Value → Fragment
  | .token items => .verbatim "token(" :: (Fragment.valueList items ++ [.verbatim ")"])
  | v => [.value v]

/-- Puts a value where its node stands. -/
def bindValue (c : Context) (v : Value) (node : Expr) (s : Scope) : Step :=
  match s.phase with
  | .condition => Step.writeFragment s (valueFragment v)
  | .take => Step.given (limitOf v) fun n => Step.modify fun p => { p with limit := some n }
  | .orderBy | .orderByDescending =>
    match v with
    | .text name =>
      Step.modify fun p =>
        { p with orderBy := p.orderBy ++ [⟨c.mapping.identifier name, s.phase = .orderBy⟩] }
    | _ => Step.unsupported node s
  | .binding =>
    match s.member with
    | some member => c.assign member v .assign
    | none => Step.unsupported node s
  | _ => Step.unsupported node s

/-- Evaluates a node and puts its value in its place. A condition reports the row as unbound;
elsewhere the node as a whole is refused. -/
def fold (c : Context) (node : Expr) (s : Scope) : Step :=
  if s.phase ≠ .condition ∧ node.usesRow then Step.unsupported node s
  else Step.given node.evaluate fun v => c.bindValue v node s

/-! ## Members and unary operators -/

def memberStep (c : Context) (member : String) (node : Expr) (s : Scope) : Step :=
  if node.rowMember?.isNone then c.fold node s
  else
    match s.phase with
    | .condition =>
      Step.given (c.mappedColumn member s) fun column =>
        Step.writeFragment s [.name (c.mapping.identifier column.name)]
    | .binding =>
      match c.mapping.column? member with
      | some column =>
        Step.modify fun p =>
          { p with fields := p.fields ++ [.column (c.mapping.identifier column.name)] }
      | none => fun p => do
        .report (.skippedMember member c.mapping.entity.name)
        return p
    | .orderBy | .orderByDescending =>
      Step.given (c.mappedColumn member s) fun column =>
        Step.modify fun p =>
          { p with
            orderBy := p.orderBy ++
              [⟨c.mapping.identifier column.name, s.phase = .orderBy⟩] }
    | .groupBy =>
      Step.given (c.mappedColumn member s) fun column =>
        Step.modify fun p => { p with groupBy := p.groupBy ++ [c.mapping.identifier column.name] }
    | _ => Step.unsupported node s

/-- The member that values are assigned to, if its column is a counter. -/
def counterMember? (c : Context) (s : Scope) : Option String :=
  s.member.filter c.mapping.isCounter

def unaryStep (c : Context) (op : UnaryOp) (e : Operand) (node : Expr) (s : Scope) : Step :=
  match op, s.phase with
  | .convert, _ => e.step s
  | .not, .condition =>
    if node.usesRow then
      Step.write s "NOT (" >=> e.step s.uncompared >=> Step.write s ")"
    else c.fold node s
  | .negate, .binding =>
    match c.counterMember? s with
    | some member => Step.given e.expr.evaluate fun v => c.assign member v .decrement
    | none => c.fold node s
  | .plus, .binding =>
    match c.counterMember? s with
    | some member => Step.given e.expr.evaluate fun v => c.assign member v .increment
    | none => c.fold node s
  | _, _ => c.fold node s

/-! ## Binary operators -/

/-- Whether the expression is a three-way comparison. -/
def isThreeWay (e : Expr) : Bool :=
  match e.withoutConvert with
  | .call .compareTo _ => true
  | _ => false

/-- A three-way comparison can only be compared with zero. -/
def expectZero (other node : Expr) (s : Scope) : Outcome Unit :=
  match other.evaluate with
  | .ok v => if v.integer? = some 0 then .ok () else .error (.unsupported node.text s.phase)
  | .error _ => .error (.unsupported node.text s.phase)

/-- A relation or conjunction, both operands as they stand. -/
def relation (tag : String) (l r : Operand) (s : Scope) : Step :=
  l.step s.uncompared >=> Step.write s (" " ++ tag ++ " ") >=> r.step s.uncompared

def conditionBinary (c : Context) (op : BinaryOp) (l r : Operand) (node : Expr) (s : Scope) :
    Step :=
  match op.cql? with
  | none => if node.usesRow then Step.unsupported node s else c.fold node s
  | some tag =>
    match op.inverse? with
    | none => relation tag l r s
    | some inverse =>
      if isThreeWay l.expr then
        Step.given (expectZero r.expr node s) fun _ => l.step (s.compared op)
      else if isThreeWay r.expr then
        Step.given (expectZero l.expr node s) fun _ => r.step (s.compared inverse)
      else relation tag l r s

/-- The way a counter changes by adding to itself or subtracting from itself. -/
def countingKind? : BinaryOp → Option AssignmentKind
  | .add => some .increment
  | .sub => some .decrement
  | _ => none

def bindingBinary (c : Context) (op : BinaryOp) (l r : Operand) (node : Expr) (s : Scope) :
    Step :=
  match c.counterMember? s, countingKind? op with
  | some member, some kind =>
    if l.expr.withoutConvert.rowMember? = some member then
      Step.given r.expr.evaluate fun v => c.assign member v kind
    else c.fold node s
  | _, _ => c.fold node s

def binaryStep (c : Context) (op : BinaryOp) (l r : Operand) (node : Expr) (s : Scope) : Step :=
  match s.phase with
  | .condition => c.conditionBinary op l r node s
  | .binding => c.bindingBinary op l r node s
  | _ => c.fold node s

/-! ## Calls -/

/-- The operand of a call at an index. -/
def operand (method : Method) (operands : List Operand) (i : Nat) : Outcome Operand :=
  match operands[i]? with
  | some o => .ok o
  | none => .error (.argument (.tooFewArguments method.text (i + 1) operands.length))

/-- The step of the operand at an index. -/
def operandStep (method : Method) (operands : List Operand) (i : Nat) (s : Scope) : Step :=
  Step.given (operand method operands i) fun o => o.step s

/-- Membership: of a value in a column that is a collection, or of a column in a collection
that the program knows. -/
def containsStep (operands : List Operand) (s : Scope) : Step :=
  Step.given (operand .contains operands 0) fun collection =>
    Step.given (operand .contains operands 1) fun item =>
      if collection.expr.withoutConvert.rowMember?.isSome then
        collection.step s.uncompared >=> Step.write s " CONTAINS " >=> item.step s.uncompared
      else
        Step.given collection.expr.evaluate fun v =>
          match v.elements? with
          | none => Step.fail (.evaluation (.notACollection v.kind))
          | some items =>
            item.step s.uncompared >=>
              Step.writeFragment s
                (.verbatim " IN (" :: (Fragment.valueList items ++ [.verbatim ")"]))

def containsKeyStep (c : Context) (operands : List Operand) (node : Expr) (s : Scope) : Step :=
  Step.given (operand .containsKey operands 0) fun entries =>
    if entries.expr.withoutConvert.rowMember?.isSome then
      entries.step s.uncompared >=> Step.write s " CONTAINS KEY " >=>
        operandStep .containsKey operands 1 s.uncompared
    else c.fold node s

def lastCodePoint : Char := Char.ofNat 0x10FFFF

/-- The texts that start with a given one lie between it and itself followed by the last code
point. -/
def startsWithFragment (column : Identifier) (start : String) : Fragment :=
  [.name column, .verbatim " >= ", .value (.text start), .verbatim " AND ", .name column,
    .verbatim " < ", .value (.text (start.push lastCodePoint))]

def startsWithStep (c : Context) (operands : List Operand) (node : Expr) (s : Scope) : Step :=
  Step.given (operand .startsWith operands 0) fun subject =>
    match subject.expr.withoutConvert.rowMember? with
    | none => c.fold node s
    | some member =>
      Step.given (operand .startsWith operands 1) fun start =>
        Step.given start.expr.evaluate fun v =>
          match v with
          | .text start =>
            Step.given (c.mappedColumn member s) fun column =>
              Step.writeFragment s (startsWithFragment (c.mapping.identifier column.name) start)
          | v => Step.fail (.argument (.startNotText v.kind))

/-- A call in a condition. -/
def conditionCall (c : Context) (method : Method) (operands : List Operand) (node : Expr)
    (s : Scope) : Step :=
  match method with
  | .contains => containsStep operands s
  | .containsKey => c.containsKeyStep operands node s
  | .startsWith => c.startsWithStep operands node s
  | .compareTo =>
    match s.comparison.bind BinaryOp.cql? with
    | none => c.fold node s
    | some tag =>
      operandStep method operands 0 s.uncompared >=> Step.write s (" " ++ tag ++ " ") >=>
        operandStep method operands 1 s.uncompared
  | .equals =>
    operandStep method operands 0 s.uncompared >=> Step.write s " = " >=>
      operandStep method operands 1 s.uncompared
  | .token =>
    Step.write s "token(" >=>
      Step.separated s ", " (operands.map fun o => o.step s.uncompared) >=> Step.write s ")"
  | .maxTimeUuid =>
    Step.write s "maxtimeuuid(" >=> operandStep method operands 0 s.uncompared >=> Step.write s ")"
  | .minTimeUuid =>
    Step.write s "mintimeuuid(" >=> operandStep method operands 0 s.uncompared >=> Step.write s ")"
  | _ => c.fold node s

/-- How a call combines its value with the column it is assigned to. -/
def combiningKind? : Method → Option AssignmentKind
  | .append => some .append
  | .prepend => some .prepend
  | .subtractAssign => some .remove
  | _ => none

/-- A call in a projection. -/
def bindingCall (c : Context) (method : Method) (operands : List Operand) (node : Expr)
    (s : Scope) : Step :=
  match combiningKind? method with
  | none => c.fold node s
  | some kind =>
    match s.member with
    | none => Step.unsupported node s
    | some member =>
      Step.given (operand method operands 0) fun o =>
        Step.given o.expr.evaluate fun v => c.assign member v kind

/-- The fields with the last of them inside an aggregate, if it is the only one that came after
the first `before` fields. -/
def aggregated (before : Nat) (function : String) (fields : List Field) : Option (List Field) :=
  match fields.drop before with
  | [field] => some (fields.take before ++ [.aggregate function field])
  | _ => none

/-- An aggregate of one column, or the count of all rows. Only a projection of a selection can
hold one. -/
def aggregateStep (c : Context) (method : Method) (function : String) (operands : List Operand)
    (node : Expr) (s : Scope) : Step :=
  if s.phase = .binding ∧ c.kind = .select then
    match operands[1]? with
    | none =>
      match method with
      | .count => Step.modify fun p => { p with fields := p.fields ++ [.countAll] }
      | _ => Step.unsupported node s
    | some selector => fun p => do
      let q ← selector.step (s.enter .binding) p
      match aggregated p.fields.length function q.fields with
      | some fields => return { q with fields := fields }
      | none => Traced.fail (.mapping (.notOneColumn method.text c.mapping.entity.name))
  else Step.unsupported node s

/-- A predicate joined to some conditions. -/
def predicateStep (method : Method) (operands : List Operand) (target : ConditionTarget)
    (s : Scope) : Step :=
  Step.openCondition target >=> operandStep method operands 1 (s.condition target)

/-- The single row that a query is cut to, chosen by a predicate if there is one. -/
def firstStep (method : Method) (operands : List Operand) (s : Scope) : Step :=
  operandStep method operands 0 s >=>
    (if operands.length > 1 then predicateStep method operands .rows s else .pure) >=>
    Step.modify fun p => { p with limit := some 1 }

/-- The chain before an operator, and then its argument in a phase. -/
def chainStep (method : Method) (operands : List Operand) (phase : Phase) (s : Scope) : Step :=
  operandStep method operands 0 s >=> operandStep method operands 1 (s.enter phase)

def callStep (c : Context) (method : Method) (operands : List Operand) (node : Expr)
    (s : Scope) : Step :=
  match method with
  | .filter => operandStep method operands 0 s >=> predicateStep method operands .rows s
  | .updateIf | .deleteIf =>
    operandStep method operands 0 s >=> predicateStep method operands .change s
  | .select => chainStep method operands .select s
  | .take => chainStep method operands .take s
  | .orderBy | .thenBy => chainStep method operands .orderBy s
  | .orderByDescending | .thenByDescending => chainStep method operands .orderByDescending s
  | .groupBy => chainStep method operands .groupBy s
  | .allowFiltering =>
    operandStep method operands 0 s >=> Step.modify fun p => { p with allowFiltering := true }
  | .first | .firstOrDefault => firstStep method operands s
  | method =>
    match method.aggregate? with
    | some function => c.aggregateStep method function operands node s
    | none =>
      match s.phase with
      | .condition => c.conditionCall method operands node s
      | .binding => c.bindingCall method operands node s
      | _ => Step.unsupported node s

/-! ## The walk -/

/-- The scope of the body of a lambda; the argument of a projection is a projector. -/
def bodyScope (s : Scope) : Scope := if s.phase = .select then s.enter .binding else s

mutual

/-- The step of an expression. -/
def step (c : Context) : Expr → Scope → Step
  | .root, _ => .pure
  | .parameter, s =>
    if s.phase = .binding ∧ s.member.isNone then .pure else Step.unsupported .parameter s
  | .groupKey, s =>
    if s.phase = .binding then
      Step.modify fun p => { p with fields := p.fields ++ p.groupBy.map .column }
    else Step.unsupported .groupKey s
  | .member target name, s => c.memberStep name (.member target name) s
  | .constant v, s => c.bindValue v (.constant v) s
  | .binary op l r, s =>
    c.binaryStep op ⟨l, step c l⟩ ⟨r, step c r⟩ (.binary op l r) s
  | .unary op e, s => c.unaryStep op ⟨e, step c e⟩ (.unary op e) s
  | .call method args, s => c.callStep method (operands c args) (.call method args) s
  | .lambda body, s => step c body (bodyScope s)
  | .record bs, s =>
    if s.phase = .binding then Step.sequence (bindingSteps c bs s)
    else Step.unsupported (.record bs) s
  | .entity bs, s =>
    if s.phase = .binding then Step.sequence (bindingSteps c bs s)
    else Step.unsupported (.entity bs) s

/-- The arguments of a call with their steps. -/
def operands (c : Context) : List Expr → List Operand
  | [] => []
  | e :: rest => ⟨e, step c e⟩ :: operands c rest

/-- The steps of bindings, each assigning to its own member. -/
def bindingSteps (c : Context) : List (String × Expr) → Scope → List Step
  | [], _ => []
  | (name, e) :: rest, s => step c e (s.assigning name) :: bindingSteps c rest s

end

/-- The parts of the statement that an expression describes. -/
def compile (c : Context) (e : Expr) : Traced Parts := c.step e {} {}

end Context

end TypedCql
