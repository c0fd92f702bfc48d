import ClientGen.Client.Method
import ClientGen.Client.Scaffold
import ClientGen.Endpoint.Grouping
import ClientGen.Script.Balance
/-! From a document to the text of its client: imports, the fixed part, and the client class with
a read-only group of methods for each controller. -/
namespace ClientGen.Client

open Script

def notice : String :=
  "This code was automatically generated by nestsdk-gen. Do not edit manually."

def ownGroupName (controller : String) : String := "_" ++ controller

/-- The methods of a controller in a property of the client's own, and a property for
everyone that shows them. -/
def groupMembers (c : Controller) : List Member :=
  let own := "this." ++ ownGroupName c.name
  [.property {
      name := ownGroupName c.name
      visibility := .owner
      initializer := some (.object c.methods) },
    .property {
      name := c.name
      docs := c.docs
      readonly := true
      type := some (.generic "Readonly" [.typeOf own])
      initializer := some (.raw own) }]

def clientClass (config : Config) (controllers : List Controller) : ClassDeclaration where
  name := config.clientName
  docs := [
    "API client",
    "Each controller is exposed as a read-only group of request methods"]
  exported := true
  base := some config.baseClassName
  members :=
    .constructor { params := [optionsArgument], body := ["super(options);"] }
      :: controllers.flatMap groupMembers

def importDecls (imports : Imports) : List Import := imports.modules.map fun p => ⟨p.1, p.2⟩

def assemble (config : Config) (controllers : List Controller) (imports : Imports) : File where
  header := [notice]
  imports := importDecls imports
  interfaces := fixedInterfaces
  functions := fixedFunctions
  classes := [baseClass config.baseClassName, clientClass config controllers]

end ClientGen.Client

namespace ClientGen

open Client

structure ClientParts where
  groups : Groups
  controllers : List Controller
  imports : Imports
  diagnostics : List Diagnostic

structure GeneratedClient where
  code : String
  diagnostics : List Diagnostic
  controllerCount : Nat
  methodCount : Nat

inductive GenerateError
  | config (cause : ConfigError)
  /-- The first operation whose id gives no names, and all there is to report. -/
  | invalidOperationId (path : String) (verb : Verb) (operationId : Option String)
      (separator : String) (diagnostics : List Diagnostic)
  | unbalanced (cause : Script.Imbalance)
deriving DecidableEq, Repr

def GenerateError.message : GenerateError → String
  | .config cause => cause.message
  | .invalidOperationId path verb operationId separator _ =>
    "Invalid operationId " ++ (match operationId with
      | some id => "'" ++ id ++ "'"
      | none => "(missing)")
      ++ " on " ++ verb.name ++ " " ++ path
      ++ ": expected '<controller>" ++ separator ++ "<method>'"
  | .unbalanced cause => cause.message

def Groups.makeControllers (config : Config) (g : Groups) : List (Made Controller) :=
  g.controllers.map fun p => makeController config p.1 p.2

def ApiDocument.clientParts (doc : ApiDocument) (config : Config) : ClientParts :=
  let c := doc.group config
  let made := c.groups.makeControllers config
  { groups := c.groups
    controllers := made.map Made.value
    imports := Imports.insertAll {} (made.flatMap Made.imports)
    diagnostics := c.diagnostics ++ made.flatMap Made.diagnostics }

def Info.headerLines (i : Info) : List String :=
  if i.title.isEmpty then []
  else [String.ofList (Text.trimEnd ("Source: " ++ i.title ++ " " ++ i.version).toList)]

def ApiDocument.file (doc : ApiDocument) (config : Config) : Script.File :=
  let s := doc.clientParts config
  let file := assemble config s.controllers s.imports
  { file with header := file.header ++ (doc.info.map Info.headerLines).getD [] }

def strictFailure? (config : Config) (diagnostics : List Diagnostic) : Option GenerateError :=
  match config.onInvalidOperationId with
  | .skip => none
  | .abort => diagnostics.findSome? fun
    | .invalidOperationId path verb id =>
      some (.invalidOperationId path verb id config.operationIdSeparator diagnostics)
    | _ => none

/-- A strict run fails only after every report has been made. -/
def ApiDocument.generateClient (doc : ApiDocument) (config : Config) :
    Except GenerateError GeneratedClient := do
  config.validate.mapError .config
  let s := doc.clientParts config
  match strictFailure? config s.diagnostics with
  | some e => .error e
  | none =>
    let code := (doc.file config).text
    (Script.checkBalance code).mapError .unbalanced
    return ⟨code, s.diagnostics, s.groups.controllerCount, s.groups.methodCount⟩

end ClientGen
