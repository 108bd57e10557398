import TypedCql.Drafting.Parts
import TypedCql.Query.Compile

/-!
# Compiling queries to drafts

The walk over a query that writes text at once: each node appends to the drafts of its conditions
what it means in its scope, text by text and value by value. What a node decides (whether a member
is mapped, what a value sets, which assignment is allowed) does not depend on how values are
written, and is decided as for fragments.
-/

namespace TypedCql

/-- What an expression does to the parts under construction. -/
abbrev DraftStep := DraftParts → Traced DraftParts

namespace Draft

/-- The draft with values at its end, commas between them. -/
def bindList (d : Draft) : List Value → Draft
  | [] => d
  | v :: rest => rest.foldl (fun d v => (d.append ", ").bind v) (d.bind v)

/-- The draft with a value of a condition at its end. The components of a token bind one by one. -/
def bindOperand (d : Draft) : Value → Draft
  | .token items => ((d.append "token(").bindList items).append ")"
  | v => d.bind v

/-- The draft with a column at its end that is to lie between a text and itself followed by the last
code point. -/
def appendRange (d : Draft) (column start : String) : Draft :=
  (((d.append (column ++ " >= ")).bind (.text start)).append (" AND " ++ column ++ " < ")).bind
    (.text (start.push Context.lastCodePoint))

end Draft

namespace DraftStep

def fail (e : Error) : DraftStep := fun _ => .fail e

def unsupported (node : Expr) (s : Scope) : DraftStep := fail (.unsupported node.text s.phase)

def modify (f : DraftParts → DraftParts) : DraftStep := fun p => .pure (f p)

/-- Goes on with a result, if there is one. -/
def given (o : Outcome α) (next : α → DraftStep) : DraftStep := fun p =>
  Traced.ofOutcome o >>= (next · p)

/-- Writes the conditions of the scope further. -/
def onConditions (s : Scope) (f : Draft → Draft) : DraftStep :=
  modify (·.onConditions s.target f)

def write (s : Scope) (text : String) : DraftStep := onConditions s (·.append text)

/-- Joins the next predicate to the conditions that are there already. -/
def openCondition (target : ConditionTarget) : DraftStep :=
  modify fun p =>
    if (p.conditions target).isEmpty then p else p.onConditions target (·.append " AND ")

/-- Steps one after the other. -/
def sequence : List DraftStep → DraftStep
  | [] => .pure
  | first :: rest => first >=> sequence rest

/-- Steps with text written between each two of them. -/
def separated (s : Scope) (separator : String) : List DraftStep → DraftStep
  | [] => .pure
  | [step] => step
  | step :: rest => step >=> write s separator >=> separated s separator rest

end DraftStep

/-- An operand of a node, with the step it takes on drafts in a scope. -/
structure DraftOperand where
  expr : Expr
  step : Scope → DraftStep

namespace Drafting

open Context (isThreeWay expectZero countingKind? combiningKind? limitOf bodyScope)

variable (c : Context)

/-! ## Values and members -/

def assign (member : String) (v : Value) (kind : AssignmentKind) : DraftStep :=
  DraftStep.given (c.assignment member v kind) fun a =>
    DraftStep.modify fun p =>
      { p with assignments := p.assignments ++ [⟨a.column.text, a.value, a.kind⟩] }

/-- Puts a value where its node stands. -/
def bindValue (v : Value) (node : Expr) (s : Scope) : DraftStep :=
  match s.phase with
  | .condition => DraftStep.onConditions s (·.bindOperand v)
  | .take =>
    DraftStep.given (limitOf v) fun n => DraftStep.modify fun p => { p with limit := some n }
  | .orderBy | .orderByDescending =>
    match v with
    | .text name =>
      DraftStep.modify fun p =>
        { p with
          orderBy := p.orderBy ++
            [((c.mapping.identifier name).text, decide (s.phase = .orderBy))] }
    | _ => DraftStep.unsupported node s
  | .binding =>
    match s.member with
    | some member => assign c member v .assign
    | none => DraftStep.unsupported node s
  | _ => DraftStep.unsupported node s

/-- Evaluates a node and puts its value in its place. -/
def fold (node : Expr) (s : Scope) : DraftStep :=
  if s.phase ≠ .condition ∧ node.usesRow then DraftStep.unsupported node s
  else DraftStep.given node.evaluate fun v => bindValue c v node s

/-- The text of a column. -/
def columnText (column : Column) : String := (c.mapping.identifier column.name).text

def memberStep (member : String) (node : Expr) (s : Scope) : DraftStep :=
  if node.rowMember?.isNone then fold c node s
  else
    match s.phase with
    | .condition =>
      DraftStep.given (c.mappedColumn member s) fun column =>
        DraftStep.write s (columnText c column)
    | .binding =>
      match c.mapping.column? member with
      | some column =>
        DraftStep.modify fun p => { p with fields := p.fields ++ [columnText c column] }
      | none => fun p => do
        .report (.skippedMember member c.mapping.entity.name)
        return p
    | .orderBy | .orderByDescending =>
      DraftStep.given (c.mappedColumn member s) fun column =>
        DraftStep.modify fun p =>
          { p with orderBy := p.orderBy ++ [(columnText c column, decide (s.phase = .orderBy))] }
    | .groupBy =>
      DraftStep.given (c.mappedColumn member s) fun column =>
        DraftStep.modify fun p => { p with groupBy := p.groupBy ++ [columnText c column] }
    | _ => DraftStep.unsupported node s

/-! ## Operators -/

def unaryStep (op : UnaryOp) (e : DraftOperand) (node : Expr) (s : Scope) : DraftStep :=
  match op, s.phase with
  | .convert, _ => e.step s
  | .not, .condition =>
    if node.usesRow then
      DraftStep.write s "NOT (" >=> e.step s.uncompared >=> DraftStep.write s ")"
    else fold c node s
  | .negate, .binding =>
    match c.counterMember? s with
    | some member => DraftStep.given e.expr.evaluate fun v => assign c member v .decrement
    | none => fold c node s
  | .plus, .binding =>
    match c.counterMember? s with
    | some member => DraftStep.given e.expr.evaluate fun v => assign c member v .increment
    | none => fold c node s
  | _, _ => fold c node s

/-- A relation or conjunction, both operands as they stand. -/
def relation (tag : String) (l r : DraftOperand) (s : Scope) : DraftStep :=
  l.step s.uncompared >=> DraftStep.write s (" " ++ tag ++ " ") >=> r.step s.uncompared

def conditionBinary (op : BinaryOp) (l r : DraftOperand) (node : Expr) (s : Scope) : DraftStep :=
  match op.cql? with
  | none => if node.usesRow then DraftStep.unsupported node s else fold c node s
  | some tag =>
    match op.inverse? with
    | none => relation tag l r s
    | some inverse =>
      if isThreeWay l.expr then
        DraftStep.given (expectZero r.expr node s) fun _ => l.step (s.compared op)
      else if isThreeWay r.expr then
        DraftStep.given (expectZero l.expr node s) fun _ => r.step (s.compared inverse)
      else relation tag l r s

def bindingBinary (op : BinaryOp) (l r : DraftOperand) (node : Expr) (s : Scope) : DraftStep :=
  match c.counterMember? s, countingKind? op with
  | some member, some kind =>
    if l.expr.withoutConvert.rowMember? = some member then
      DraftStep.given r.expr.evaluate fun v => assign c member v kind
    else fold c node s
  | _, _ => fold c node s

def binaryStep (op : BinaryOp) (l r : DraftOperand) (node : Expr) (s : Scope) : DraftStep :=
  match s.phase with
  | .condition => conditionBinary c op l r node s
  | .binding => bindingBinary c op l r node s
  | _ => fold c node s

/-! ## Calls -/

/-- The operand of a call at an index. -/
def operand (method : Method) (operands : List DraftOperand) (i : Nat) : Outcome DraftOperand :=
  match operands[i]? with
  | some o => .ok o
  | none => .error (.argument (.tooFewArguments method.text (i + 1) operands.length))

/-- The step of the operand at an index. -/
def operandStep (method : Method) (operands : List DraftOperand) (i : Nat) (s : Scope) :
    DraftStep :=
  DraftStep.given (operand method operands i) fun o => o.step s

def containsStep (operands : List DraftOperand) (s : Scope) : DraftStep :=
  DraftStep.given (operand .contains operands 0) fun collection =>
    DraftStep.given (operand .contains operands 1) fun item =>
      if collection.expr.withoutConvert.rowMember?.isSome then
        collection.step s.uncompared >=> DraftStep.write s " CONTAINS " >=> item.step s.uncompared
      else
        DraftStep.given collection.expr.evaluate fun v =>
          match v.elements? with
          | none => DraftStep.fail (.evaluation (.notACollection v.kind))
          | some items =>
            item.step s.uncompared >=>
              DraftStep.onConditions s fun d =>
                ((d.append " IN (").bindList items).append ")"

def containsKeyStep (operands : List DraftOperand) (node : Expr) (s : Scope) : DraftStep :=
  DraftStep.given (operand .containsKey operands 0) fun entries =>
    if entries.expr.withoutConvert.rowMember?.isSome then
      entries.step s.uncompared >=> DraftStep.write s " CONTAINS KEY " >=>
        operandStep .containsKey operands 1 s.uncompared
    else fold c node s

def startsWithStep (operands : List DraftOperand) (node : Expr) (s : Scope) : DraftStep :=
  DraftStep.given (operand .startsWith operands 0) fun subject =>
    match subject.expr.withoutConvert.rowMember? with
    | none => fold c node s
    | some member =>
      DraftStep.given (operand .startsWith operands 1) fun start =>
        DraftStep.given start.expr.evaluate fun v =>
          match v with
          | .text start =>
            DraftStep.given (c.mappedColumn member s) fun column =>
              DraftStep.onConditions s (·.appendRange (columnText c column) start)
          | v => DraftStep.fail (.argument (.startNotText v.kind))

/-- A call in a condition. -/
def conditionCall (method : Method) (operands : List DraftOperand) (node : Expr) (s : Scope) :
    DraftStep :=
  match method with
  | .contains => containsStep operands s
  | .containsKey => containsKeyStep c operands node s
  | .startsWith => startsWithStep c operands node s
  | .compareTo =>
    match s.comparison.bind BinaryOp.cql? with
    | none => fold c node s
    | some tag =>
      operandStep method operands 0 s.uncompared >=> DraftStep.write s (" " ++ tag ++ " ") >=>
        operandStep method operands 1 s.uncompared
  | .equals =>
    operandStep method operands 0 s.uncompared >=> DraftStep.write s " = " >=>
      operandStep method operands 1 s.uncompared
  | .token =>
    DraftStep.write s "token(" >=>
      DraftStep.separated s ", " (operands.map fun o => o.step s.uncompared) >=>
        DraftStep.write s ")"
  | .maxTimeUuid =>
    DraftStep.write s "maxtimeuuid(" >=> operandStep method operands 0 s.uncompared >=>
      DraftStep.write s ")"
  | .minTimeUuid =>
    DraftStep.write s "mintimeuuid(" >=> operandStep method operands 0 s.uncompared >=>
      DraftStep.write s ")"
  | _ => fold c node s

/-- A call in a projection. -/
def bindingCall (method : Method) (operands : List DraftOperand) (node : Expr) (s : Scope) :
    DraftStep :=
  match combiningKind? method with
  | none => fold c node s
  | some kind =>
    match s.member with
    | none => DraftStep.unsupported node s
    | some member =>
      DraftStep.given (operand method operands 0) fun o =>
        DraftStep.given o.expr.evaluate fun v => assign c member v kind

/-- The fields with the last of them taken off and put back inside an aggregate, if only the first
`before` of them are left without it. -/
def aggregated (before : Nat) (function : String) (fields : List String) : Option (List String) :=
  match fields.getLast? with
  | some field =>
    if fields.dropLast.length = before then
      some (fields.dropLast ++ [function ++ "(" ++ field ++ ")"])
    else none
  | none => none

/-- An aggregate of one column, or the count of all rows. -/
def aggregateStep (method : Method) (function : String) (operands : List DraftOperand)
    (node : Expr) (s : Scope) : DraftStep :=
  if s.phase = .binding ∧ c.kind = .select then
    match operands[1]? with
    | none =>
      match method with
      | .count => DraftStep.modify fun p => { p with fields := p.fields ++ ["COUNT(*)"] }
      | _ => DraftStep.unsupported node s
    | some selector => fun p => do
      let q ← selector.step (s.enter .binding) p
      match aggregated p.fields.length function q.fields with
      | some fields => return { q with fields := fields }
      | none => Traced.fail (.mapping (.notOneColumn method.text c.mapping.entity.name))
  else DraftStep.unsupported node s

/-- A predicate joined to some conditions. -/
def predicateStep (method : Method) (operands : List DraftOperand) (target : ConditionTarget)
    (s : Scope) : DraftStep :=
  DraftStep.openCondition target >=> operandStep method operands 1 (s.condition target)

/-- The single row that a query is cut to, chosen by a predicate if there is one. -/
def firstStep (method : Method) (operands : List DraftOperand) (s : Scope) : DraftStep :=
  operandStep method operands 0 s >=>
    (if operands.length > 1 then predicateStep method operands .rows s else .pure) >=>
    DraftStep.modify fun p => { p with limit := some 1 }

/-- The chain before an operator, and then its argument in a phase. -/
def chainStep (method : Method) (operands : List DraftOperand) (phase : Phase) (s : Scope) :
    DraftStep :=
  operandStep method operands 0 s >=> operandStep method operands 1 (s.enter phase)

def callStep (method : Method) (operands : List DraftOperand) (node : Expr) (s : Scope) :
    DraftStep :=
  match method with
  | .filter => operandStep method operands 0 s >=> predicateStep method operands .rows s
  | .updateIf | .deleteIf =>
    operandStep method operands 0 s >=> predicateStep method operands .change s
  | .select => chainStep method operands .select s
  | .take => chainStep method operands .take s
  | .orderBy | .thenBy => chainStep method operands .orderBy s
  | .orderByDescending | .thenByDescending => chainStep method operands .orderByDescending s
  | .groupBy => chainStep method operands .groupBy s
  | .allowFiltering =>
    operandStep method operands 0 s >=> DraftStep.modify fun p => { p with allowFiltering := true }
  | .first | .firstOrDefault => firstStep method operands s
  | method =>
    match method.aggregate? with
    | some function => aggregateStep c method function operands node s
    | none =>
      match s.phase with
      | .condition => conditionCall c method operands node s
      | .binding => bindingCall c method operands node s
      | _ => DraftStep.unsupported node s

/-! ## The walk -/

mutual

/-- The step of an expression on drafts. -/
def step (c : Context) : Expr → Scope → DraftStep
  | .root, _ => .pure
  | .parameter, s =>
    if s.phase = .binding ∧ s.member.isNone then .pure else DraftStep.unsupported .parameter s
  | .groupKey, s =>
    if s.phase = .binding then DraftStep.modify fun p => { p with fields := p.fields ++ p.groupBy }
    else DraftStep.unsupported .groupKey s
  | .member target name, s => memberStep c name (.member target name) s
  | .constant v, s => bindValue c v (.constant v) s
  | .binary op l r, s => binaryStep c op ⟨l, step c l⟩ ⟨r, step c r⟩ (.binary op l r) s
  | .unary op e, s => unaryStep c op ⟨e, step c e⟩ (.unary op e) s
  | .call method args, s => callStep c method (operands c args) (.call method args) s
  | .lambda body, s => step c body (bodyScope s)
  | .record bs, s =>
    if s.phase = .binding then DraftStep.sequence (bindingSteps c bs s)
    else DraftStep.unsupported (.record bs) s
  | .entity bs, s =>
    if s.phase = .binding then DraftStep.sequence (bindingSteps c bs s)
    else DraftStep.unsupported (.entity bs) s

/-- The arguments of a call with their steps. -/
def operands (c : Context) : List Expr → List DraftOperand
  | [] => []
  | e :: rest => ⟨e, step c e⟩ :: operands c rest

/-- The steps of bindings, each assigning to its own member. -/
def bindingSteps (c : Context) : List (String × Expr) → Scope → List DraftStep
  | [], _ => []
  | (name, e) :: rest, s => step c e (s.assigning name) :: bindingSteps c rest s

end

end Drafting

/-- The parts of the statement that an expression describes, written as the mode shows values. -/
def Context.draft (c : Context) (mode : BindMode) (e : Expr) : Traced DraftParts :=
  Drafting.step c e {} (.empty mode)

end TypedCql
