import TypedCql.Expr.Basic
import TypedCql.Value.Debug

/-!
# Expression trees shown in full

Every node appears with its name and the names of its parts, conversions included.
-/

namespace TypedCql

def Method.debug : Method → String
  | .host f => "Host(HostFn(" ++ Text.quoted f.name ++ "))"
  | m => m.text

namespace Expr

/-- A node with named parts between braces. -/
def nodeText (name : String) (parts : List (String × String)) : String :=
  name ++ " \x7b " ++ ", ".intercalate (parts.map fun (part, shown) => part ++ ": " ++ shown)
    ++ " \x7d"

mutual

def debug : Expr → String
  | .root => "Root"
  | .parameter => "Parameter"
  | .groupKey => "GroupKey"
  | .member target name =>
    nodeText "Member" [("target", debug target), ("member", Text.quoted name)]
  | .constant v => "Constant(" ++ v.debug ++ ")"
  | .binary op l r =>
    nodeText "Binary" [("op", op.name), ("left", debug l), ("right", debug r)]
  | .unary op e => nodeText "Unary" [("op", op.name), ("operand", debug e)]
  | .call method args =>
    nodeText "Call" [("method", method.debug), ("args", Value.bracketed (debugArguments args))]
  | .lambda body => "Lambda(" ++ debug body ++ ")"
  | .record bs => "New(" ++ Value.bracketed (debugBindings bs) ++ ")"
  | .entity bs => "MemberInit(" ++ Value.bracketed (debugBindings bs) ++ ")"

def debugArguments : List Expr → List String
  | [] => []
  | e :: rest => debug e :: debugArguments rest

def debugBindings : List (String × Expr) → List String
  | [] => []
  | (name, e) :: rest => ("(" ++ Text.quoted name ++ ", " ++ debug e ++ ")") :: debugBindings rest

end

end Expr

end TypedCql
