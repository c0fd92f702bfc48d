import ClientGen.Endpoint.Grouping
import ClientGen.Config
import ClientGen.Diagnostic
import ClientGen.Model.Imports
import ClientGen.Model.Convention
import ClientGen.Path.Template
import ClientGen.Script.Syntax
import ClientGen.Text.Lines
/-! The client method of an endpoint: its arguments, its comment, and the call that sends the
request. Along with it come the symbols it needs and what there is to report. -/
namespace ClientGen.Client

open Script

/-- Something made, with the imports it needs and the reports about it, both in order. -/
structure Made (α : Type) where
  value : α
  imports : List (String × String) := []
  diagnostics : List Diagnostic := []

def queryName : String := "query"
def dataName : String := "data"
def validateName : String := "validate"

structure ModelUse where
  model : String
  found : Option ModelExport

/-- The model behind a reference. A model of no module is used all the same. -/
def useModel (config : Config) (context reference : String) : Made (Option ModelUse) :=
  match Model.ofReference reference with
  | none => ⟨none, [], [.unresolvableReference reference context]⟩
  | some model =>
    match config.models.exportOf? model with
    | some found => ⟨some ⟨model, some found⟩, [(found.module, found.model)], []⟩
    | none => ⟨some ⟨model, none⟩, [], [.unclassifiedModel model context]⟩

def resultModel (config : Config) (context : String) (op : Operation) : Made (Option String) :=
  match op.resultSchema.bind Schema.reference with
  | none => ⟨none, [], []⟩
  | some reference =>
    let r := useModel config context reference
    ⟨r.value.map ModelUse.model, r.imports, r.diagnostics⟩

structure DataArgument where
  type : TypeTerm
  validator : Option String

def untypedData : DataArgument := ⟨.any, none⟩

def dataArgument (config : Config) (context : String) (op : Operation) : Made DataArgument :=
  match op.payloadSchema.bind Schema.reference with
  | none => ⟨untypedData, [], [.untypedBody context]⟩
  | some reference =>
    let r := useModel config context reference
    match r.value with
    | none => ⟨untypedData, r.imports, r.diagnostics⟩
    | some use =>
      let validator := use.found.bind fun found =>
        found.validator.map fun v => (found.module, v)
      { value := ⟨.named use.model, validator.map Prod.snd⟩
        imports := r.imports ++ validator.toList
        diagnostics := r.diagnostics }

def typeOfPrimitive : Primitive → TypeTerm
  | .string => .named "string"
  | .number => .named "number"
  | .boolean => .named "boolean"
  | .array item => .array (typeOfPrimitive item)
  | .unknown => .any

def fieldType (p : Parameter) : TypeTerm :=
  match p.schema.bind Schema.textChoices with
  | some values => .union (values.map .literal)
  | none => typeOfPrimitive p.primitive

def declaredField (p : Parameter) : Field :=
  { name := p.name, type := fieldType p, optional := !p.required, docs := p.description.toList }

/-- A placeholder nobody declared can be filled by a text or a number. -/
def placeholderField (name : String) : Field :=
  { name, type := .union [.named "string", .named "number"] }

def hasField (fields : List Field) (name : String) : Bool := fields.any (·.name == name)

def skipped (context : String) (p : Parameter) : Diagnostic :=
  .skippedParameter context p.name p.location

/-- Fields of declared parameters: of several with one name the first counts. -/
def declaredFields (context : String) (acc : Made (List Field)) :
    List Parameter → Made (List Field)
  | [] => acc
  | p :: ps =>
    if hasField acc.value p.name then
      declaredFields context { acc with diagnostics := acc.diagnostics ++ [skipped context p] } ps
    else declaredFields context { acc with value := acc.value ++ [declaredField p] } ps

def placeholderFields (path : String) (acc : Made (List Field)) : List String → Made (List Field)
  | [] => acc
  | name :: names =>
    if hasField acc.value name then placeholderFields path acc names
    else
      placeholderFields path
        { acc with
          value := acc.value ++ [placeholderField name]
          diagnostics := acc.diagnostics ++ [.undeclaredPathParam path name] } names

/-- Headers and cookies are reported first, then declared parameters make fields, then the
placeholders of the path that are still without one. -/
def argumentFields (context : String) (e : Endpoint) : Made (List Field) :=
  let hidden := e.operation.parameters.filter fun p =>
    p.location == .header || p.location == .cookie
  let start : Made (List Field) := { value := [], diagnostics := hidden.map (skipped context) }
  placeholderFields e.path (declaredFields context start e.operation.queryParameters)
    (Path.placeholders e.path)

def nonBlank (text : String) : Option (List Char) :=
  let t := Text.trim text.toList
  if t.isEmpty then none else some t

def openingDocs (config : Config) (op : Operation) : List String :=
  match op.description.bind nonBlank <|> op.summary.bind nonBlank with
  | some t => (Text.feedLines t).map fun l => String.ofList (Text.trimEnd l)
  | none => [config.missingDescription]

def deprecationDocs (op : Operation) : List String :=
  if op.deprecated then ["@deprecated"] else []

def queryDocs : List String := ["@param " ++ queryName ++ " Path and query parameters"]

def dataDocs : List String := [
  "@param " ++ dataName ++ " Request body",
  "@param " ++ validateName ++ " Validate " ++ dataName
    ++ " before sending, skipping the request when invalid"]

def resultDocs (model : String) : List String := ["@returns " ++ model ++ " response body"]

/-- The query may be left out when nothing in it is required and no body follows it. -/
def queryArgument (fields : List Field) (hasData : Bool) : Option Param :=
  if fields.isEmpty then none
  else some {
    name := queryName
    type := some (.object fields)
    optional := fields.all (·.optional) && !hasData }

def dataArguments (data : DataArgument) : List Param := [
  { name := dataName, type := some data.type },
  { name := validateName, type := some (.named "boolean"), defaultValue := some "false" }]

def guardOf (data : DataArgument) : Option Guard :=
  data.validator.map fun validator => ⟨validateName, validator, dataName⟩

def buildMethod (config : Config) (name : String) (e : Endpoint) (result : Option String)
    (fields : List Field) (data : Option DataArgument) : ArrowMethod :=
  let query := queryArgument fields data.isSome
  { name
    docs := openingDocs config e.operation ++ deprecationDocs e.operation
      ++ (if query.isSome then queryDocs else [])
      ++ (if data.isSome then dataDocs else [])
      ++ (result.map resultDocs).getD []
    params := query.toList ++ (data.map dataArguments).getD []
    body := .request {
      verb := e.verb
      path := e.path
      result := result.map .named
      passQuery := query.isSome
      passData := data.isSome
      guard := data.bind guardOf } }

def methodContext (controller name : String) (e : Endpoint) : String :=
  controller ++ "." ++ name ++ " (" ++ e.place ++ ")"

def makeMethod (config : Config) (controller name : String) (e : Endpoint) : Made ArrowMethod :=
  let context := methodContext controller name e
  let result := resultModel config context e.operation
  let fields := argumentFields context e
  let data := if e.operation.sendsBody then some (dataArgument config context e.operation) else none
  { value := buildMethod config name e result.value fields.value (data.map Made.value)
    imports := result.imports ++ (data.map Made.imports).getD []
    diagnostics := result.diagnostics ++ fields.diagnostics
      ++ (data.map Made.diagnostics).getD [] }

structure Controller where
  name : String
  docs : List String := []
  methods : List ArrowMethod := []

def makeController (config : Config) (name : String) (methods : Table Endpoint) :
    Made Controller :=
  let made := methods.map fun p => makeMethod config name p.1 p.2
  { value := { name, docs := [name ++ " controller"], methods := made.map Made.value }
    imports := made.flatMap Made.imports
    diagnostics := made.flatMap Made.diagnostics }

end ClientGen.Client
