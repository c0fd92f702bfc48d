import ClientGen.Script.Render
/-! The fixed part of every generated file. The base class holds an origin and a transport,
`_fetch_` unless another is given; `sendRequest` fills the placeholders of the path from the
query, puts the origin in front and hands what is left of the query to the transport. -/
namespace ClientGen.Client

open Script

def keyedName : String := "BaseObj"
def optionsTypeName : String := "RequestInitType"
def requestTypeName : String := "RequestType"
def transportName : String := "_fetch_"

/-- Members of the base class, which a controller of that name would hide. -/
def takenMembers : List String := ["constructor", "init", sendMethod, "origin", "request"]

def clientOptions : TypeTerm := .generic "Partial" [.named optionsTypeName]

def anyParam : TypeParam := { name := "T", defaultType := some .any }

def stringType : TypeTerm := .named "string"

def untypedQuery : Param := { name := "query", type := some (.named keyedName), optional := true }

def promise (item : TypeTerm) : TypeTerm := .generic "Promise" [item]

def fixedInterfaces : List Interface := [
  { name := keyedName
    docs := ["Generic key-value container"]
    typeParams := [anyParam]
    indexSignature := some { keyName := "key", keyType := stringType, valueType := .named "T" }
    exported := true },
  { name := optionsTypeName
    docs := ["Options accepted by the client constructor and init()"]
    fields := [
      { name := "origin", type := stringType, optional := true
        docs := ["Base URL prepended to every request path"] },
      { name := "request", type := .typeOf transportName
        docs := ["Custom transport function, defaults to fetch"] }]
    exported := true },
  { name := requestTypeName
    docs := ["Options of a single request"]
    fields := [
      { name := "method", type := .union (Verb.all.map fun v => .literal v.name)
        docs := ["HTTP method"] },
      { name := "path", type := stringType
        docs := ["Request path, placeholders included"] },
      { name := "query", type := .named keyedName, optional := true
        docs := ["Path and query parameters"] },
      { name := "data", type := .any, optional := true
        docs := ["Request body"] },
      { name := "headers", type := .generic keyedName [stringType], optional := true
        docs := ["Request headers"] }]
    exported := true }]

/-- Sends a request; a query value that is a list becomes a repeated key. -/
def transport : Function where
  name := transportName
  docs := [
    "Default transport",
    "Sends the request with fetch and parses the JSON response body"]
  isAsync := true
  typeParams := [anyParam]
  params := [{ name := "options", type := some (.named requestTypeName) }]
  returnType := some (promise (.named "T"))
  body := .statements [
    "const headers: BaseObj<string> = \x7b ...options.headers \x7d;",
    "const init: RequestInit = \x7b method: options.method.toUpperCase(), headers \x7d;",
    "if (options.data !== undefined) \x7b",
    "  headers['Content-Type'] = headers['Content-Type'] || 'application/json';",
    "  init.body = JSON.stringify(options.data);",
    "\x7d",
    "const search = new URLSearchParams();",
    "const query = options.query || \x7b\x7d;",
    "Object.keys(query).forEach((key) => \x7b",
    "  const value = query[key];",
    "  const items: unknown[] = Array.isArray(value) ? value : [value];",
    "  items.forEach((item) => \x7b",
    "    if (item !== undefined && item !== null) search.append(key, String(item));",
    "  \x7d);",
    "\x7d);",
    "const qs = search.toString();",
    "const res = await fetch(qs ? `$\x7boptions.path\x7d?$\x7bqs\x7d` : options.path, init);",
    "const result: T = await res.json();",
    "return result;"]

def replacePathParams : Function where
  name := "replacePathParams"
  docs := [
    "Replaces `\x7bname\x7d` placeholders in a path with values from query",
    "Placeholders without a string or number value are left as they are",
    "@example replacePathParams('/page-node/\x7btypeId\x7d/\x7bid\x7d', \x7b id: 1, typeId: 2 \x7d) => '/page-node/2/1'"]
  params := [{ name := "path", type := some stringType }, untypedQuery]
  returnType := some stringType
  body := .statements [
    "const values = query || \x7b\x7d;",
    "return path.replace(new RegExp('\\\\\x7b([^\x7d]+)\\\\\x7d', 'g'), (match: string, param: string) => \x7b",
    "  const value = values[param];",
    "  if (value === undefined) return match;",
    "  if (typeof value !== 'number' && typeof value !== 'string') \x7b",
    "    console.warn(`path parameter $\x7bparam\x7d must be a string or number`, values);",
    "    return match;",
    "  \x7d",
    "  return String(value);",
    "\x7d);"]

def omitPathParams : Function where
  name := "omitPathParams"
  docs := ["Returns the query entries not consumed by a path placeholder"]
  params := [{ name := "path", type := some stringType }, untypedQuery]
  returnType := some (.union [.named keyedName, .named "undefined"])
  body := .statements [
    "if (!query) return undefined;",
    "const source: BaseObj = query;",
    "const rest: BaseObj = \x7b\x7d;",
    "Object.keys(source).forEach((key) => \x7b",
    "  if (!path.includes(`\x7b$\x7bkey\x7d\x7d`)) rest[key] = source[key];",
    "\x7d);",
    "return rest;"]

def fixedFunctions : List Function := [transport, replacePathParams, omitPathParams]

def optionsArgument : Param := { name := "options", type := some clientOptions, optional := true }

def baseClass (name : String) : ClassDeclaration where
  name
  docs := ["Request dispatch base class"]
  exported := true
  members := [
    .property {
      name := "origin"
      docs := ["Base URL prepended to every request path"]
      visibility := .owner
      optional := true
      type := some stringType },
    .property {
      name := "request"
      docs := ["Transport function"]
      visibility := .owner
      type := some (.typeOf transportName)
      initializer := some (.raw transportName) },
    .constructor { params := [optionsArgument], body := ["if (options) this.init(options);"] },
    .method {
      name := "init"
      docs := ["Configures origin and transport, replacing any previous configuration"]
      params := [{ name := "options", type := some clientOptions }]
      returnType := some (.named "void")
      body := .statements [
        "this.origin = options.origin;",
        "this.request = options.request || _fetch_;"] },
    .method {
      name := sendMethod
      docs := ["Sends a request through the configured transport"]
      visibility := .heirs
      isAsync := true
      typeParams := [anyParam]
      params := [{ name := "options", type := some (.named requestTypeName) }]
      returnType := some (promise (.named "T"))
      body := .statements [
        "const path = replacePathParams(options.path, options.query);",
        "return this.request<T>(\x7b",
        "  ...options,",
        "  path: `$\x7bthis.origin ?? ''\x7d$\x7bpath\x7d`,",
        "  query: omitPathParams(options.path, options.query),",
        "\x7d);"] }]

end ClientGen.Client
