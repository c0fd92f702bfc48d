import ClientGen.Document.Basic
/-! The JSON form of the document's parts. Absent values and empty collections are left out,
except where a reader of the form has to see them: the place of a parameter, the `required`
flags, and the content of a request body. -/
namespace ClientGen

namespace Json

def optionalMember (key : String) (f : α → Json) : Option α → List (String × Json)
  | none => []
  | some a => [(key, f a)]

def listMember (key : String) (f : α → Json) : List α → List (String × Json)
  | [] => []
  | as => [(key, .list (as.map f))]

def ofTable (f : α → Json) (t : Table α) : Json := .object (t.map fun p => (p.1, f p.2))

def tableMember (key : String) (f : α → Json) : Table α → List (String × Json)
  | [] => []
  | t => [(key, ofTable f t)]

end Json

open Json (optionalMember listMember ofTable tableMember)

def TypeNames.toJson : TypeNames → Json
  | .one name => .text name
  | .many names => .list (names.map .text)

def Schema.toJson : Schema → Json
  | ⟨reference, type, items, enumeration⟩ =>
    .object (optionalMember "$ref" .text reference
      ++ optionalMember "type" TypeNames.toJson type
      ++ (match items with
        | none => []
        | some item => [("items", item.toJson)])
      ++ listMember "enum" id enumeration)

def Parameter.toJson (p : Parameter) : Json :=
  .object ([("name", .text p.name), ("in", .text p.location.name), ("required", .bool p.required)]
    ++ optionalMember "description" .text p.description
    ++ optionalMember "schema" Schema.toJson p.schema
    ++ optionalMember "type" TypeNames.toJson p.type
    ++ optionalMember "items" Schema.toJson p.items)

def MediaType.toJson (m : MediaType) : Json :=
  .object (optionalMember "schema" Schema.toJson m.schema)

def RequestBody.toJson (b : RequestBody) : Json :=
  .object ([("required", .bool b.required)]
    ++ optionalMember "description" .text b.description
    ++ [("content", ofTable MediaType.toJson b.content)])

def Response.toJson (r : Response) : Json :=
  .object (optionalMember "description" .text r.description
    ++ tableMember "content" MediaType.toJson r.content
    ++ optionalMember "schema" Schema.toJson r.schema)

def Operation.toJson (op : Operation) : Json :=
  .object (optionalMember "operationId" .text op.operationId
    ++ optionalMember "summary" .text op.summary
    ++ optionalMember "description" .text op.description
    ++ (if op.deprecated then [("deprecated", .bool true)] else [])
    ++ listMember "parameters" Parameter.toJson op.parameters
    ++ optionalMember "requestBody" RequestBody.toJson op.requestBody
    ++ tableMember "responses" Response.toJson op.responses)

def Info.toJson (i : Info) : Json :=
  .object [("title", .text i.title), ("version", .text i.version)]

end ClientGen
