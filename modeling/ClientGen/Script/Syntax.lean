import ClientGen.Document.Basic
/-! The declarations of a generated TypeScript file. Methods made from operations carry a
structured call; the fixed parts of the file carry their statements as lines. -/
namespace ClientGen.Script

mutual

inductive TypeTerm
  /-- A name: `string`, `OrderDto`, `T`. -/
  | named (name : String)
  | generic (name : String) (arguments : List TypeTerm)
  | array (item : TypeTerm)
  | union (members : List TypeTerm)
  | literal (value : String)
  | object (fields : List Field)
  | typeOf (expression : String)

structure Field where
  name : String
  type : TypeTerm
  optional : Bool := false
  docs : List String := []

end

namespace TypeTerm

def any : TypeTerm := .named "any"

instance : Inhabited TypeTerm := ⟨any⟩

def isUnion : TypeTerm → Bool
  | .union _ => true
  | _ => false

end TypeTerm

instance : Inhabited Field := ⟨{ name := "", type := .any }⟩

structure TypeParam where
  name : String
  defaultType : Option TypeTerm := none

/-- `[key: K]: V` -/
structure IndexSignature where
  keyName : String
  keyType : TypeTerm
  valueType : TypeTerm

structure Interface where
  name : String
  docs : List String := []
  typeParams : List TypeParam := []
  indexSignature : Option IndexSignature := none
  fields : List Field := []
  exported : Bool := false

structure Param where
  name : String
  type : Option TypeTerm := none
  optional : Bool := false
  /-- An expression; a caller may then leave the parameter out. -/
  defaultValue : Option String := none

/-- Returns early, without a request, when the flag is set and the payload is invalid. -/
structure Guard where
  flag : String
  validator : String
  payload : String
deriving DecidableEq, Repr

/-- A call of the shared request method. The path keeps its placeholders. -/
structure RequestCall where
  verb : Verb
  path : String
  result : Option TypeTerm := none
  passQuery : Bool := false
  passData : Bool := false
  guard : Option Guard := none

inductive Body
  | statements (lines : List String)
  | request (call : RequestCall)

structure Function where
  name : String
  docs : List String := []
  isAsync : Bool := false
  typeParams : List TypeParam := []
  params : List Param := []
  returnType : Option TypeTerm := none
  body : Body
  exported : Bool := false

inductive Visibility
  | everyone
  | heirs
  | owner
deriving DecidableEq, Repr

structure ArrowMethod where
  name : String
  docs : List String := []
  params : List Param := []
  body : Body

inductive Initializer
  | raw (expression : String)
  | object (methods : List ArrowMethod)

structure Property where
  name : String
  docs : List String := []
  visibility : Visibility := .everyone
  readonly : Bool := false
  optional : Bool := false
  type : Option TypeTerm := none
  initializer : Option Initializer := none

structure Method where
  name : String
  docs : List String := []
  visibility : Visibility := .everyone
  isAsync : Bool := false
  typeParams : List TypeParam := []
  params : List Param := []
  returnType : Option TypeTerm := none
  body : Body

structure Constructor where
  params : List Param := []
  body : List String := []

inductive Member
  | constructor (c : Constructor)
  | property (p : Property)
  | method (m : Method)

structure ClassDeclaration where
  name : String
  docs : List String := []
  exported : Bool := false
  base : Option String := none
  members : List Member := []

structure Import where
  module : String
  symbols : List String
deriving DecidableEq, Repr

structure File where
  header : List String := []
  imports : List Import := []
  interfaces : List Interface := []
  functions : List Function := []
  classes : List ClassDeclaration := []

namespace ClassDeclaration

def property? (c : ClassDeclaration) (name : String) : Option Property :=
  c.members.findSome? fun
    | .property p => if p.name = name then some p else none
    | _ => none

end ClassDeclaration

def File.class? (f : File) (name : String) : Option ClassDeclaration :=
  f.classes.find? (·.name == name)

end ClientGen.Script
