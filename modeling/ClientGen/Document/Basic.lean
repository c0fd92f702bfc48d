import ClientGen.Json.Basic
import ClientGen.Table
/-! Documents: paths in order, and on each path its operations in order. Bodies and responses may
be written in the style of OpenAPI 3 (`requestBody`, `content`) or of Swagger 2 (a body parameter,
a bare `schema`). Of a schema only that part is kept which decides a generated type: a reference
to a model, or the primitive type of a parameter. -/
namespace ClientGen

inductive Verb
  | get
  | post
  | put
  | delete
deriving DecidableEq, Repr

namespace Verb

def all : List Verb := [get, post, put, delete]

def name : Verb → String
  | get => "get"
  | post => "post"
  | put => "put"
  | delete => "delete"

def ofName? (s : String) : Option Verb := all.find? (·.name == s)

/-- Verbs a path may declare that no method is made for. -/
def unsupported : List String := ["patch", "head", "options", "trace"]

theorem ofName?_of_mem_unsupported {s : String} (h : s ∈ unsupported) : ofName? s = none := by
  simp only [unsupported, List.mem_cons, List.not_mem_nil, or_false] at h
  rcases h with rfl | rfl | rfl | rfl <;> decide

end Verb

inductive TypeNames
  | one (name : String)
  | many (names : List String)
deriving DecidableEq, Repr

def TypeNames.leading : TypeNames → Option String
  | .one name => some name
  | .many names => names.find? (· != "null")

structure Schema where
  reference : Option String := none
  type : Option TypeNames := none
  items : Option Schema := none
  enumeration : List Json := []
deriving Inhabited

inductive Primitive
  | string
  | number
  | boolean
  | array (item : Primitive)
  | unknown
deriving DecidableEq, Repr

namespace Schema

def textChoices (s : Schema) : Option (List String) :=
  if s.enumeration.isEmpty then none else s.enumeration.mapM Json.text?

/-- Objects, references and undeclared types are unknown; so are the items of an array that
declares none. -/
def primitive : Schema → Primitive
  | ⟨_, type, items, _⟩ =>
    match type.bind TypeNames.leading with
    | some "string" => .string
    | some "integer" => .number
    | some "number" => .number
    | some "boolean" => .boolean
    | some "array" =>
      .array (match items with
        | some item => item.primitive
        | none => .unknown)
    | _ => .unknown

end Schema

/-- Where a parameter is carried. `body` and `formData` belong to Swagger 2. -/
inductive Location
  | query
  | path
  | header
  | cookie
  | body
  | formData
deriving DecidableEq, Repr

namespace Location

def all : List Location := [query, path, header, cookie, body, formData]

def name : Location → String
  | query => "query"
  | path => "path"
  | header => "header"
  | cookie => "cookie"
  | body => "body"
  | formData => "formData"

def label : Location → String
  | query => "Query"
  | path => "Path"
  | header => "Header"
  | cookie => "Cookie"
  | body => "Body"
  | formData => "FormData"

def ofName? (s : String) : Option Location := all.find? (·.name == s)

end Location

structure Parameter where
  name : String
  location : Location := .query
  required : Bool := false
  description : Option String := none
  schema : Option Schema := none
  type : Option TypeNames := none
  items : Option Schema := none
deriving Inhabited

structure MediaType where
  schema : Option Schema := none
deriving Inhabited

structure RequestBody where
  required : Bool := false
  description : Option String := none
  content : Table MediaType := []
deriving Inhabited

structure Response where
  description : Option String := none
  content : Table MediaType := []
  schema : Option Schema := none
deriving Inhabited

structure Operation where
  operationId : Option String := none
  summary : Option String := none
  description : Option String := none
  deprecated : Bool := false
  parameters : List Parameter := []
  requestBody : Option RequestBody := none
  responses : Table Response := []
deriving Inhabited

def jsonContentType : String := "application/json"

def defaultResponse : String := "default"

/-- A schema decides the type where there is one, the inline `type` otherwise. -/
def Parameter.primitive (p : Parameter) : Primitive :=
  match p.schema with
  | some s => s.primitive
  | none => ({ type := p.type, items := p.items } : Schema).primitive

namespace RequestBody

def jsonContent (b : RequestBody) : Option Schema :=
  (b.content.get? jsonContentType).bind MediaType.schema

end RequestBody

namespace Response

def jsonContent (r : Response) : Option Schema :=
  (r.content.get? jsonContentType).bind MediaType.schema <|> r.schema

end Response

namespace Operation

def sendsBody (op : Operation) : Bool :=
  op.requestBody.isSome || op.parameters.any fun p => p.location == .body || p.location == .formData

/-- A request body hides the body parameters, even when it has no JSON schema. -/
def payloadSchema (op : Operation) : Option Schema :=
  match op.requestBody with
  | some body => body.jsonContent
  | none => (op.parameters.find? (·.location == .body)).bind Parameter.schema

def resultSchema (op : Operation) : Option Schema :=
  (op.responses.get? defaultResponse).bind Response.jsonContent

/-- Parameters that become fields of the query argument. Those of the path are among them,
because the client fills the placeholders from the same object. -/
def queryParameters (op : Operation) : List Parameter :=
  op.parameters.filter fun p => p.location == .query || p.location == .path

end Operation

structure PathItem where
  operations : List (Verb × Operation) := []
  unsupportedVerbs : List String := []
deriving Inhabited

structure Info where
  title : String := ""
  version : String := ""
deriving DecidableEq, Repr, Inhabited

structure ApiDocument where
  info : Option Info := none
  paths : Table PathItem := []
deriving Inhabited

namespace Parameter

def same (p q : Parameter) : Bool := p.name == q.name && p.location == q.location

end Parameter

namespace Operation

/-- Parameters of the path that the operation does not declare itself, then its own. -/
def inherit (shared : List Parameter) (op : Operation) : Operation :=
  { op with
    parameters := (shared.filter fun p => !op.parameters.any (·.same p)) ++ op.parameters }

end Operation

namespace PathItem

def get? (item : PathItem) (verb : Verb) : Option Operation := item.operations.lookup verb

def inherit (shared : List Parameter) (item : PathItem) : PathItem :=
  { item with operations := item.operations.map fun p => (p.1, p.2.inherit shared) }

end PathItem

namespace ApiDocument

def operationCount (doc : ApiDocument) : Nat :=
  (doc.paths.flatMap (·.2.operations)).length

end ApiDocument

end ClientGen
