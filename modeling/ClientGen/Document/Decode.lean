import ClientGen.Document.Basic
import ClientGen.Json.Decoder
/-! How documents are read. Records name their fields in the order in which an array may
give them. -/
namespace ClientGen

open Json (Decoder Draft Origin Problem Record)

def TypeNames.ofJson? : Json → Option TypeNames
  | .text name => some (.one name)
  | .list items => (items.mapM Json.text?).map .many
  | _ => none

def TypeNames.decoder : Decoder TypeNames := fun origin room d => do
  let v ← Decoder.json origin room d
  match TypeNames.ofJson? v with
  | some t => return t
  | none => .error (.shape (.noAlternative "SchemaKind"))

def Verb.decoder : Decoder Verb := Decoder.choice (Verb.all.map fun v => (v.name, v))

def Location.decoder : Decoder Location := Decoder.choice (Location.all.map fun l => (l.name, l))

namespace Schema

def record : Record := ⟨"Schema", ["$ref", "type", "items", "enum"], []⟩

def put (inner : Decoder Schema) (origin : Origin) (room : Nat) (s : Schema) (field : String)
    (d : Draft) : Except Problem Schema :=
  match field with
  | "$ref" => return { s with reference := ← Decoder.text.optional origin room d }
  | "type" => return { s with type := ← TypeNames.decoder.optional origin room d }
  | "items" => return { s with items := ← inner.optional origin room d }
  | "enum" => return { s with enumeration := ← Decoder.json.list origin room d }
  | _ => return s

/-- A schema inside a schema has one level less room, and without room there is none. -/
def decoder (origin : Origin) (room : Nat) (d : Draft) : Except Problem Schema :=
  match room with
  | 0 =>
    Decoder.record record {} (put fun _ _ d => .error (d.mismatch (.record "Schema"))) origin 0 d
  | room + 1 =>
    Decoder.record record {} (put fun origin _ d => decoder origin room d) origin (room + 1) d

end Schema

namespace MediaType

def record : Record := ⟨"MediaType", ["schema"], []⟩

def put (origin : Origin) (room : Nat) (m : MediaType) (field : String) (d : Draft) :
    Except Problem MediaType :=
  match field with
  | "schema" => return { m with schema := ← Decoder.optional Schema.decoder origin room d }
  | _ => return m

def decoder : Decoder MediaType := Decoder.record record {} put

end MediaType

namespace RequestBody

def record : Record := ⟨"RequestBody", ["required", "description", "content"], []⟩

def put (origin : Origin) (room : Nat) (b : RequestBody) (field : String) (d : Draft) :
    Except Problem RequestBody :=
  match field with
  | "required" => return { b with required := ← Decoder.flag origin room d }
  | "description" => return { b with description := ← Decoder.text.optional origin room d }
  | "content" => return { b with content := ← MediaType.decoder.table origin room d }
  | _ => return b

def decoder : Decoder RequestBody := Decoder.record record {} put

end RequestBody

namespace Response

def record : Record := ⟨"Response", ["description", "content", "schema"], []⟩

def put (origin : Origin) (room : Nat) (r : Response) (field : String) (d : Draft) :
    Except Problem Response :=
  match field with
  | "description" => return { r with description := ← Decoder.text.optional origin room d }
  | "content" => return { r with content := ← MediaType.decoder.table origin room d }
  | "schema" => return { r with schema := ← Decoder.optional Schema.decoder origin room d }
  | _ => return r

def decoder : Decoder Response := Decoder.record record {} put

end Response

namespace Parameter

def record : Record :=
  ⟨"Parameter", ["name", "in", "required", "description", "schema", "type", "items"], ["name"]⟩

def put (origin : Origin) (room : Nat) (p : Parameter) (field : String) (d : Draft) :
    Except Problem Parameter :=
  match field with
  | "name" => return { p with name := ← Decoder.text origin room d }
  | "in" => return { p with location := ← Location.decoder origin room d }
  | "required" => return { p with required := ← Decoder.flag origin room d }
  | "description" => return { p with description := ← Decoder.text.optional origin room d }
  | "schema" => return { p with schema := ← Decoder.optional Schema.decoder origin room d }
  | "type" => return { p with type := ← TypeNames.decoder.optional origin room d }
  | "items" => return { p with items := ← Decoder.optional Schema.decoder origin room d }
  | _ => return p

def decoder : Decoder Parameter := Decoder.record record { name := "" } put

end Parameter

namespace Operation

def record : Record :=
  ⟨"Operation",
    ["operationId", "summary", "description", "deprecated", "parameters", "requestBody",
      "responses"], []⟩

def put (origin : Origin) (room : Nat) (op : Operation) (field : String) (d : Draft) :
    Except Problem Operation :=
  match field with
  | "operationId" => return { op with operationId := ← Decoder.text.optional origin room d }
  | "summary" => return { op with summary := ← Decoder.text.optional origin room d }
  | "description" => return { op with description := ← Decoder.text.optional origin room d }
  | "deprecated" => return { op with deprecated := ← Decoder.flag origin room d }
  | "parameters" => return { op with parameters := ← Parameter.decoder.list origin room d }
  | "requestBody" => return { op with requestBody := ← RequestBody.decoder.optional origin room d }
  | "responses" => return { op with responses := ← Response.decoder.table origin room d }
  | _ => return op

def decoder : Decoder Operation := Decoder.record record {} put

end Operation

namespace PathItem

/-- A path item while its members are gone through: the parameters it shares are handed to
the operations only at the end. -/
structure Unmerged where
  item : PathItem := {}
  shared : List Parameter := []

/-- Members other than verbs and `parameters` have no say, whatever their shape. -/
def Unmerged.add (acc : Unmerged) (key : String) (value : Json) : Except Problem Unmerged :=
  match Verb.ofName? key with
  | some verb => do
    let op ← Json.decodeValue Operation.decoder value
    return { acc with item := { acc.item with operations := acc.item.operations ++ [(verb, op)] } }
  | none =>
    if key = "parameters" then do
      let shared ← Json.decodeValue Parameter.decoder.list value
      return { acc with shared }
    else if key ∈ Verb.unsupported then
      return { acc with
        item := { acc.item with unsupportedVerbs := acc.item.unsupportedVerbs ++ [key] } }
    else return acc

def ofMembers (members : Table Json) : Except Problem PathItem := do
  let acc ← members.foldlM (fun acc p => acc.add p.1 p.2) ({} : Unmerged)
  return acc.item.inherit acc.shared

/-- All members are read before the first of them is judged. -/
def decoder : Decoder PathItem := fun origin room d => do
  ofMembers (← Decoder.json.table origin room d)

end PathItem

namespace Info

def record : Record := ⟨"Info", ["title", "version"], []⟩

def put (origin : Origin) (room : Nat) (i : Info) (field : String) (d : Draft) :
    Except Problem Info :=
  match field with
  | "title" => return { i with title := ← Decoder.text origin room d }
  | "version" => return { i with version := ← Decoder.text origin room d }
  | _ => return i

def decoder : Decoder Info := Decoder.record record {} put

end Info

namespace ApiDocument

def record : Record := ⟨"ApiDocument", ["info", "paths"], []⟩

def put (origin : Origin) (room : Nat) (doc : ApiDocument) (field : String) (d : Draft) :
    Except Problem ApiDocument :=
  match field with
  | "info" => return { doc with info := ← Info.decoder.optional origin room d }
  | "paths" => return { doc with paths := ← PathItem.decoder.table origin room d }
  | _ => return doc

def decoder : Decoder ApiDocument := Decoder.record record {} put

def ofText (text : String) : Except Problem ApiDocument := Json.decodeText decoder text

end ApiDocument

end ClientGen
