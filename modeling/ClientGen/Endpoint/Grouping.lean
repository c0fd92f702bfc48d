import ClientGen.Document.Basic
import ClientGen.Text.Name
import ClientGen.Client.Scaffold
import ClientGen.Config
import ClientGen.Diagnostic
/-! Sorting the operations of a document into groups by their ids. An id is the name of a
controller, a separator and the name of a method. Controllers, and the methods of each, stand in
the order in which they were first seen; no method is ever lost to another of its name. -/
namespace ClientGen

structure Endpoint where
  verb : Verb
  path : String
  operation : Operation

namespace Endpoint

def place (e : Endpoint) : String := e.verb.name ++ " " ++ e.path

end Endpoint

/-- Method names to endpoints, by controller. -/
structure Groups where
  controllers : Table (Table Endpoint) := []
deriving Inhabited

namespace Groups

def methods (g : Groups) (controller : String) : Table Endpoint :=
  (g.controllers.get? controller).getD []

def storedName (g : Groups) (controller method : String) : String :=
  Text.freeName (g.methods controller).keys method

def insert (g : Groups) (controller method : String) (e : Endpoint) : Groups :=
  ⟨g.controllers.put controller
    ((g.methods controller).put (g.storedName controller method) e)⟩

def get? (g : Groups) (controller : String) : Option (Table Endpoint) :=
  g.controllers.get? controller

def controllerCount (g : Groups) : Nat := g.controllers.length

def methodCount (g : Groups) : Nat := (g.controllers.flatMap (·.2)).length

def isEmpty (g : Groups) : Bool := g.controllers.isEmpty

end Groups

/-- Cuts at the first separator; both halves must be identifiers. -/
def halvesOfId (separator id : String) : Option (String × String) := do
  let (controller, method) ← Text.cutFirst separator.toList id.toList
  let controller := String.ofList controller
  let method := String.ofList method
  if Text.isIdentifier controller && Text.isIdentifier method then some (controller, method)
  else none

def Operation.names? (separator : String) (op : Operation) : Option (String × String) := do
  let (controller, method) ← halvesOfId separator (← op.operationId)
  if controller ∈ Client.takenMembers then none else some (controller, method)

inductive Entry
  | unsupported (path verb : String)
  | operation (e : Endpoint)

def PathItem.entries (path : String) (item : PathItem) : List Entry :=
  item.unsupportedVerbs.map (.unsupported path)
    ++ item.operations.map fun p => .operation ⟨p.1, path, p.2⟩

def ApiDocument.entries (doc : ApiDocument) : List Entry :=
  doc.paths.flatMap fun p => p.2.entries p.1

structure Grouping where
  groups : Groups := {}
  diagnostics : List Diagnostic := []
deriving Inhabited

namespace Grouping

def report (g : Grouping) (d : Diagnostic) : Grouping :=
  { g with diagnostics := g.diagnostics ++ [d] }

def add (separator : String) (g : Grouping) : Entry → Grouping
  | .unsupported path verb => g.report (.unsupportedVerb path verb)
  | .operation e =>
    match e.operation.names? separator with
    | none => g.report (.invalidOperationId e.path e.verb e.operation.operationId)
    | some (controller, method) =>
      let stored := g.groups.storedName controller method
      let g := { g with groups := g.groups.insert controller method e }
      if stored = method then g
      else g.report (.methodRenamed controller method stored e.path e.verb)

end Grouping

/-- The whole document is looked at, whatever is wrong with it. -/
def ApiDocument.group (doc : ApiDocument) (config : Config) : Grouping :=
  doc.entries.foldl (Grouping.add config.operationIdSeparator) {}

end ClientGen
