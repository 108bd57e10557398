import TypedCql.ColumnType.Parser
import TypedCql.Expr.Operator
import TypedCql.Query.Phase

/-!
# Errors

Every failure is a cause with the names it is about; one function words it. Each category can
also carry a cause of its own wording, for the code that calls the library: host functions and
sessions report their failures this way.
-/

namespace TypedCql

/-- The mapping does not allow what was asked for. -/
inductive MappingFault
  | duplicateColumn (column entity : String)
  | missingKeyColumns (entity : String) (columns : List String)
  | noPartitionKey (entity : String)
  | counterInKey (column : String)
  | staticInKey (column : String)
  | unmappedMember (member entity : String) (phase : Phase)
  | unassignableMember (member entity : String)
  /-- The argument of an aggregate is not one column. -/
  | notOneColumn (aggregate entity : String)
  | prependToCounter (column : String)
  | prependToOther (column : String) (type : ColumnType)
  | appendToOther (column : String) (type : ColumnType)
  | countOther (column : String) (type : ColumnType)
  | counterInserted (column : String)
  | reported (text : String)

/-- Parts of a statement exclude each other. -/
inductive ConflictFault
  | assignmentInQuery (kind : StatementKind) (member : String)
  | projectedDelete
  | existsWithConditions
  | nothingToUpdate
  | reported (text : String)

inductive ArgumentFault
  | tooFewArguments (method : String) (expected given : Nat)
  | startNotText (kind : String)
  | limitNotInt (kind : String)
  | counterValueNotInteger (column kind : String)
  | valueCount (expected : Nat) (entity : String) (given : Nat)
  | nothingToInsert (table : String)
  | emptyBatch
  | reported (text : String)

/-- An expression has no value. -/
inductive EvaluationFault
  | unboundParameter (node : String)
  | noSuchMember (kind member : String)
  | notAValue (node : String)
  | notOnHost (method : String) (arguments : Nat)
  | notACollection (kind : String)
  | notComparable (left right : String)
  | unaryMismatch (op : UnaryOp) (kind : String)
  | binaryMismatch (op : BinaryOp) (left right : String)
  | notBoolean (op : BinaryOp)
  | overflow
  | divisionByZero
  | reported (text : String)

/-- A column cannot have its type. -/
inductive TypeFault
  | counterType (column : String) (type : ColumnType)
  | reported (text : String)

inductive ParseFault
  | columnType (cause : ColumnType.ParseError)
  | reported (position : Nat) (text : String)

/-- A mapping file cannot be used. -/
inductive ConfigFault
  | duplicateEntity (entity : String)
  | duplicateMember (member entity : String)
  /-- The text is no TOML, or the document does not have the shape of a mapping. -/
  | malformed
  | reported (text : String)

inductive ExecutionFault
  | countWithoutInteger
  | reported (text : String)

inductive Error
  | unsupported (node : String) (phase : Phase)
  | mapping (fault : MappingFault)
  | conflict (fault : ConflictFault)
  | argument (fault : ArgumentFault)
  | evaluation (fault : EvaluationFault)
  | type (fault : TypeFault)
  | parse (fault : ParseFault)
  | config (fault : ConfigFault)
  | execution (fault : ExecutionFault)
  /-- A file could not be read as text. -/
  | io (text : String)

/-! ## Wording -/

def MappingFault.message : MappingFault → String
  | .duplicateColumn column entity =>
    "column '" ++ column ++ "' is mapped more than once on " ++ entity
  | .missingKeyColumns entity columns =>
    entity ++ " names primary key columns that are not mapped: " ++ ", ".intercalate columns
  | .noPartitionKey entity => entity ++ " has no partition key"
  | .counterInKey column => "counter column '" ++ column ++ "' cannot be part of the primary key"
  | .staticInKey column => "static column '" ++ column ++ "' cannot be part of the primary key"
  | .unmappedMember member entity phase =>
    "member '" ++ member ++ "' of " ++ entity ++ " is not mapped and cannot be used in the "
      ++ phase.name ++ " phase"
  | .unassignableMember member entity =>
    "cannot assign '" ++ member ++ "' of " ++ entity
      ++ ": the member is excluded from the mappings"
  | .notOneColumn aggregate entity =>
    aggregate ++ " must select exactly one mapped column of " ++ entity
  | .prependToCounter column => "cannot prepend to counter column '" ++ column ++ "'"
  | .prependToOther column type =>
    "prepend requires a list column: '" ++ column ++ "' is " ++ type.text
  | .appendToOther column type =>
    "append and remove require a collection or counter column: '" ++ column ++ "' is "
      ++ type.text
  | .countOther column type =>
    "increment and decrement require a counter column: '" ++ column ++ "' is " ++ type.text
  | .counterInserted column =>
    "counter column '" ++ column ++ "' cannot be inserted, update it instead"
  | .reported text => text

def ConflictFault.message : ConflictFault → String
  | .assignmentInQuery kind member =>
    "a " ++ kind.name ++ " query cannot assign a value to '" ++ member ++ "'"
  | .projectedDelete => "Delete removes whole rows; a column projection cannot be deleted"
  | .existsWithConditions => "IF EXISTS and IF conditions cannot be combined in one DELETE"
  | .nothingToUpdate => "Nothing to update"
  | .reported text => text

def ArgumentFault.message : ArgumentFault → String
  | .tooFewArguments method expected given =>
    method ++ " expects at least " ++ toString expected ++ " arguments, got " ++ toString given
  | .startNotText kind => "StartsWith expects a text prefix, got " ++ kind
  | .limitNotInt kind => "Take expects an int value, got " ++ kind
  | .counterValueNotInteger column kind =>
    "counter column '" ++ column ++ "' takes int or bigint values, got " ++ kind
  | .valueCount expected entity given =>
    "expected " ++ toString expected ++ " values for " ++ entity ++ ", got " ++ toString given
  | .nothingToInsert table => "no values to insert into " ++ table
  | .emptyBatch => "batch has no statements"
  | .reported text => text

def EvaluationFault.message : EvaluationFault → String
  | .unboundParameter node => "'" ++ node ++ "' references the unbound row parameter"
  | .noSuchMember kind member => kind ++ " value has no member '" ++ member ++ "'"
  | .notAValue node => "'" ++ node ++ "' cannot be evaluated to a value"
  | .notOnHost method arguments =>
    method ++ "(" ++ toString arguments ++ ") cannot be evaluated on the host"
  | .notACollection kind => kind ++ " value is not a collection"
  | .notComparable left right => "cannot compare " ++ left ++ " with " ++ right
  | .unaryMismatch op kind => "operator " ++ op.name ++ " does not apply to " ++ kind
  | .binaryMismatch op left right =>
    "operator " ++ op.text ++ " does not apply to " ++ left ++ " and " ++ right
  | .notBoolean op => "operator " ++ op.text ++ " requires boolean operands"
  | .overflow => "integer overflow"
  | .divisionByZero => "division by zero"
  | .reported text => text

def TypeFault.message : TypeFault → String
  | .counterType column type =>
    "counter column '" ++ column ++ "' must be bigint, found " ++ type.text
  | .reported text => text

def ParseFault.message : ParseFault → String
  | .columnType cause =>
    "Parse error at position " ++ toString cause.position ++ ": " ++ cause.message
  | .reported position text => "Parse error at position " ++ toString position ++ ": " ++ text

def ConfigFault.message : ConfigFault → String
  | .duplicateEntity entity => "entity '" ++ entity ++ "' is mapped more than once"
  | .duplicateMember member entity =>
    "member '" ++ member ++ "' of '" ++ entity ++ "' has more than one column entry"
  | .malformed => "the text is not a mapping"
  | .reported text => text

def ExecutionFault.message : ExecutionFault → String
  | .countWithoutInteger => "count returned no integer value"
  | .reported text => text

/-- The wording of an error, which names its category first. -/
def Error.message : Error → String
  | .unsupported node phase =>
    "Unsupported expression in " ++ phase.name ++ " phase: " ++ node
  | .mapping fault => "Mapping error: " ++ fault.message
  | .conflict fault => "Conflicting statement options: " ++ fault.message
  | .argument fault => "Invalid argument: " ++ fault.message
  | .evaluation fault => "Evaluation error: " ++ fault.message
  | .type fault => "Invalid type: " ++ fault.message
  | .parse fault => fault.message
  | .config fault => "Configuration error: " ++ fault.message
  | .execution fault => "Execution error: " ++ fault.message
  | .io text => "IO error: " ++ text

end TypedCql
