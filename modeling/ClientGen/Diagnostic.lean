import ClientGen.Document.Basic

namespace ClientGen

inductive Severity
  | info
  | warning
  | error
deriving DecidableEq, Repr

def Severity.label : Severity → String
  | info => "info"
  | warning => "warning"
  | error => "error"

inductive Diagnostic
  /-- The operation is left out: its id gives no controller and method. -/
  | invalidOperationId (path : String) (verb : Verb) (operationId : Option String)
  | unsupportedVerb (path verb : String)
  | methodRenamed (controller asked renamed path : String) (verb : Verb)
  /-- No model name follows from the reference; its place is untyped. -/
  | unresolvableReference (reference context : String)
  | unclassifiedModel (model context : String)
  | untypedBody (context : String)
  | undeclaredPathParam (path param : String)
  /-- The parameter has no place in the signature. -/
  | skippedParameter (context name : String) (location : Location)
deriving DecidableEq, Repr

namespace Diagnostic

def severity : Diagnostic → Severity
  | invalidOperationId .. => .error
  | methodRenamed .. => .info
  | _ => .warning

def message : Diagnostic → String
  | invalidOperationId path verb (some id) =>
    verb.name ++ " " ++ path ++ ": invalid operationId '" ++ id ++ "', operation skipped"
  | invalidOperationId path verb none =>
    verb.name ++ " " ++ path ++ ": missing operationId, operation skipped"
  | unsupportedVerb path verb =>
    verb ++ " " ++ path ++ ": unsupported verb, no method generated"
  | methodRenamed controller asked renamed path verb =>
    verb.name ++ " " ++ path ++ ": " ++ controller ++ "." ++ asked
      ++ " already exists, generated as " ++ controller ++ "." ++ renamed
  | unresolvableReference reference context =>
    context ++ ": cannot derive a model name from '" ++ reference ++ "', emitted untyped"
  | unclassifiedModel model context =>
    context ++ ": model '" ++ model ++ "' matches no module convention and is not imported"
  | untypedBody context =>
    context ++ ": request body is not a JSON schema reference, data is untyped"
  | undeclaredPathParam path param =>
    path ++ ": placeholder '\x7b" ++ param ++ "\x7d' has no declared parameter"
  | skippedParameter context name location =>
    context ++ ": " ++ location.label ++ " parameter '" ++ name
      ++ "' is not part of the generated signature"

def isInvalidOperationId : Diagnostic → Bool
  | invalidOperationId .. => true
  | _ => false

def count (severity : Severity) (ds : List Diagnostic) : Nat :=
  ds.countP (·.severity == severity)

end Diagnostic

end ClientGen
