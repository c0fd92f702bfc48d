import ClientGen.Document.Decode
import ClientGen.Proofs.Json.Decoded
import ClientGen.Proofs.Json.Reading
/-! The parts of a document and their JSON form. Writing a part and reading it again gives the
part, and what was read from any tree can be written and read again. -/
namespace ClientGen

open Json (Decoder Reads Fills)

def Schema.Distinct : Schema → Prop
  | ⟨_, _, items, enumeration⟩ =>
    (match items with
      | none => True
      | some item => item.Distinct) ∧ ∀ v ∈ enumeration, v.Distinct

theorem Schema.distinct_iff {s : Schema} :
    s.Distinct ↔ (∀ item ∈ s.items, item.Distinct) ∧ ∀ v ∈ s.enumeration, v.Distinct := by
  obtain ⟨reference, type, items, enumeration⟩ := s
  cases items <;> simp [Distinct]

structure Parameter.Distinct (p : Parameter) : Prop where
  schema : ∀ s ∈ p.schema, s.Distinct
  items : ∀ s ∈ p.items, s.Distinct

def MediaType.Distinct (m : MediaType) : Prop := ∀ s ∈ m.schema, s.Distinct

def RequestBody.Distinct (b : RequestBody) : Prop := b.content.Distinct MediaType.Distinct

structure Response.Distinct (r : Response) : Prop where
  content : r.content.Distinct MediaType.Distinct
  schema : ∀ s ∈ r.schema, s.Distinct

structure Operation.Distinct (op : Operation) : Prop where
  parameters : ∀ p ∈ op.parameters, p.Distinct
  requestBody : ∀ b ∈ op.requestBody, b.Distinct
  responses : op.responses.Distinct Response.Distinct

theorem TypeNames.ofJson?_toJson (t : TypeNames) : ofJson? t.toJson = some t := by
  cases t with
  | one name => rfl
  | many names =>
    have hnames : (names.map Json.text).mapM Json.text? = some names := by
      induction names with
      | nil => rfl
      | cons n names ih =>
        rw [List.map_cons, List.mapM_cons, ih]
        rfl
    rw [toJson, ofJson?, hnames]
    rfl

theorem TypeNames.distinct_toJson (t : TypeNames) : t.toJson.Distinct := by
  cases t with
  | one name => trivial
  | many names =>
    change Json.DistinctList (names.map Json.text)
    induction names with
    | nil => trivial
    | cons n names ih => exact ⟨trivial, ih⟩

theorem TypeNames.reads_toJson (t : TypeNames) : Reads decoder t.toJson t := by
  intro origin room hroom
  rw [decoder, Json.reads_json t.distinct_toJson origin room hroom, ok_bind, ofJson?_toJson]
  rfl

theorem TypeNames.toJson_ne_null (t : TypeNames) : t.toJson ≠ .null := by
  cases t <;> simp [toJson]

theorem Location.reads_name (l : Location) : Reads decoder (.text l.name) l :=
  Json.reads_choice (by cases l <;> rfl)

namespace Schema

/-- A schema is a record like any other, except that one may stand inside another. -/
theorem decoder_eq : decoder = Decoder.record record {} (put decoder) := by
  funext origin room d
  cases room <;> cases d <;> rfl

theorem toJson_eq (s : Schema) : s.toJson =
    .object (Json.optionalMember "$ref" .text s.reference
      ++ Json.optionalMember "type" TypeNames.toJson s.type
      ++ Json.optionalMember "items" toJson s.items
      ++ Json.listMember "enum" id s.enumeration) := by
  obtain ⟨reference, type, items, enumeration⟩ := s
  cases items <;> rfl

theorem toJson_ne_null (s : Schema) : s.toJson ≠ .null := by
  simp [toJson_eq]

theorem reads_of_items {s : Schema} (hitems : ∀ item ∈ s.items, Reads decoder item.toJson item)
    (henum : ∀ v ∈ s.enumeration, v.Distinct) : Reads decoder s.toJson s := by
  obtain ⟨reference, type, items, enumeration⟩ := s
  -- member by member, from a schema without any
  have hreference : Fills (put decoder) ["$ref"] (Json.optionalMember "$ref" .text reference)
      {} { reference } :=
    .text (fun _ _ _ h => by simp only [put, h]; rfl) fun h => by rw [h]
  have htype : Fills (put decoder) ["type"] (Json.optionalMember "type" TypeNames.toJson type)
      { reference } { reference, type } :=
    .optional (f := TypeNames.decoder) (fun _ _ _ h => by simp only [put, h]; rfl)
      (fun h => by rw [h]) TypeNames.toJson_ne_null fun t _ => t.reads_toJson
  have hitems : Fills (put decoder) ["items"] (Json.optionalMember "items" toJson items)
      { reference, type } { reference, type, items } :=
    .optional (f := decoder) (fun _ _ _ h => by simp only [put, h]; rfl)
      (fun h => by rw [h]) toJson_ne_null hitems
  have henum : Fills (put decoder) ["enum"] (Json.listMember "enum" id enumeration)
      { reference, type, items } { reference, type, items, enumeration } :=
    .list (f := Decoder.json) (fun _ _ _ h => by simp only [put, h]; rfl)
      (fun h => by rw [h]) fun v hv => Json.reads_json (henum v hv)
  rw [toJson_eq, decoder_eq]
  exact (((hreference.append htype).append hitems).append henum).reads (by decide)
    fun _ => (nomatch ·)

theorem reads_toJson (s : Schema) (h : s.Distinct) : Reads decoder s.toJson s := by
  match s with
  | ⟨reference, type, none, enumeration⟩ => exact reads_of_items (fun _ => (nomatch ·)) h.2
  | ⟨reference, type, some item, enumeration⟩ =>
    refine reads_of_items (fun i hi => ?_) h.2
    cases hi
    exact reads_toJson item h.1

end Schema

theorem fills_schema {σ : Type}
    {put : Json.Origin → Nat → σ → String → Json.Draft → Except Json.Problem σ}
    {before after : σ} {key : String} {o : Option Schema}
    (hput : ∀ origin room d, Decoder.optional Schema.decoder origin room d = .ok o →
      put origin room before key d = .ok after)
    (hnone : o = none → before = after) (h : ∀ s ∈ o, s.Distinct) :
    Fills put [key] (Json.optionalMember key Schema.toJson o) before after :=
  .optional hput hnone Schema.toJson_ne_null fun s hs => s.reads_toJson (h s hs)

theorem MediaType.reads_toJson (m : MediaType) (h : m.Distinct) : Reads decoder m.toJson m := by
  obtain ⟨schema⟩ := m
  have hschema : Fills put ["schema"] (Json.optionalMember "schema" Schema.toJson schema)
      {} { schema } :=
    fills_schema (fun _ _ _ h => by simp only [put, h]; rfl) (fun h => by rw [h]) h
  exact hschema.reads (by decide) fun _ => (nomatch ·)

theorem RequestBody.reads_toJson (b : RequestBody) (h : b.Distinct) :
    Reads decoder b.toJson b := by
  obtain ⟨required, description, content⟩ := b
  have hrequired : Fills put ["required"] [("required", .bool required)] {} { required } :=
    .one (fun _ _ _ h => by simp only [put, h]; rfl) (Json.reads_flag required)
  have hdescription : Fills put ["description"]
      (Json.optionalMember "description" .text description)
      { required } { required, description } :=
    .text (fun _ _ _ h => by simp only [put, h]; rfl) fun h => by rw [h]
  have hcontent : Fills put ["content"] [("content", Json.ofTable MediaType.toJson content)]
      { required, description } { required, description, content } :=
    .one (fun _ _ _ h => by simp only [put, h]; rfl)
      (Reads.table h.1 fun p hp => p.2.reads_toJson (h.2 p hp))
  exact ((hrequired.append hdescription).append hcontent).reads (by decide) fun _ => (nomatch ·)

theorem Response.reads_toJson (r : Response) (h : r.Distinct) : Reads decoder r.toJson r := by
  obtain ⟨description, content, schema⟩ := r
  have hdescription : Fills put ["description"]
      (Json.optionalMember "description" .text description) {} { description } :=
    .text (fun _ _ _ h => by simp only [put, h]; rfl) fun h => by rw [h]
  have hcontent : Fills put ["content"] (Json.tableMember "content" MediaType.toJson content)
      { description } { description, content } :=
    .table (fun _ _ _ h => by simp only [put, h]; rfl) (fun h => by rw [h]) h.content.1
      fun p hp => p.2.reads_toJson (h.content.2 p hp)
  have hschema : Fills put ["schema"] (Json.optionalMember "schema" Schema.toJson schema)
      { description, content } { description, content, schema } :=
    fills_schema (fun _ _ _ h => by simp only [put, h]; rfl) (fun h => by rw [h]) h.schema
  exact ((hdescription.append hcontent).append hschema).reads (by decide) fun _ => (nomatch ·)

theorem Parameter.reads_toJson (p : Parameter) (h : p.Distinct) : Reads decoder p.toJson p := by
  obtain ⟨name, location, required, description, schema, type, items⟩ := p
  have hname : Fills put ["name"] [("name", .text name)] { name := "" } { name } :=
    .one (fun _ _ _ h => by simp only [put, h]; rfl) (Json.reads_text name)
  have hlocation : Fills put ["in"] [("in", .text location.name)] { name } { name, location } :=
    .one (fun _ _ _ h => by simp only [put, h]; rfl) location.reads_name
  have hrequired : Fills put ["required"] [("required", .bool required)]
      { name, location } { name, location, required } :=
    .one (fun _ _ _ h => by simp only [put, h]; rfl) (Json.reads_flag required)
  have hdescription : Fills put ["description"]
      (Json.optionalMember "description" .text description)
      { name, location, required } { name, location, required, description } :=
    .text (fun _ _ _ h => by simp only [put, h]; rfl) fun h => by rw [h]
  have hschema : Fills put ["schema"] (Json.optionalMember "schema" Schema.toJson schema)
      { name, location, required, description }
      { name, location, required, description, schema } :=
    fills_schema (fun _ _ _ h => by simp only [put, h]; rfl) (fun h => by rw [h]) h.schema
  have htype : Fills put ["type"] (Json.optionalMember "type" TypeNames.toJson type)
      { name, location, required, description, schema }
      { name, location, required, description, schema, type } :=
    .optional (f := TypeNames.decoder) (fun _ _ _ h => by simp only [put, h]; rfl)
      (fun h => by rw [h]) TypeNames.toJson_ne_null fun t _ => t.reads_toJson
  have hitems : Fills put ["items"] (Json.optionalMember "items" Schema.toJson items)
      { name, location, required, description, schema, type }
      { name, location, required, description, schema, type, items } :=
    fills_schema (fun _ _ _ h => by simp only [put, h]; rfl) (fun h => by rw [h]) h.items
  exact ((((((hname.append hlocation).append hrequired).append hdescription).append
    hschema).append htype).append hitems).reads (by decide) (by simp [record, Table.keys])

theorem Operation.reads_toJson (op : Operation) (h : op.Distinct) :
    Reads decoder op.toJson op := by
  obtain ⟨operationId, summary, description, deprecated, parameters, requestBody, responses⟩ := op
  have hoperationId : Fills put ["operationId"]
      (Json.optionalMember "operationId" .text operationId) {} { operationId } :=
    .text (fun _ _ _ h => by simp only [put, h]; rfl) fun h => by rw [h]
  have hsummary : Fills put ["summary"] (Json.optionalMember "summary" .text summary)
      { operationId } { operationId, summary } :=
    .text (fun _ _ _ h => by simp only [put, h]; rfl) fun h => by rw [h]
  have hdescription : Fills put ["description"]
      (Json.optionalMember "description" .text description)
      { operationId, summary } { operationId, summary, description } :=
    .text (fun _ _ _ h => by simp only [put, h]; rfl) fun h => by rw [h]
  have hdeprecated : Fills put ["deprecated"]
      (if deprecated then [("deprecated", .bool true)] else [])
      { operationId, summary, description } { operationId, summary, description, deprecated } := by
    cases deprecated with
    | false => exact .none rfl
    | true => exact .one (fun _ _ _ h => by simp only [put, h]; rfl) (Json.reads_flag true)
  have hparameters : Fills put ["parameters"]
      (Json.listMember "parameters" Parameter.toJson parameters)
      { operationId, summary, description, deprecated }
      { operationId, summary, description, deprecated, parameters } :=
    .list (fun _ _ _ h => by simp only [put, h]; rfl) (fun h => by rw [h])
      fun p hp => p.reads_toJson (h.parameters p hp)
  have hrequestBody : Fills put ["requestBody"]
      (Json.optionalMember "requestBody" RequestBody.toJson requestBody)
      { operationId, summary, description, deprecated, parameters }
      { operationId, summary, description, deprecated, parameters, requestBody } :=
    .optional (fun _ _ _ h => by simp only [put, h]; rfl) (fun h => by rw [h])
      (fun _ => Json.noConfusion) fun b hb => b.reads_toJson (h.requestBody b hb)
  have hresponses : Fills put ["responses"]
      (Json.tableMember "responses" Response.toJson responses)
      { operationId, summary, description, deprecated, parameters, requestBody }
      { operationId, summary, description, deprecated, parameters, requestBody, responses } :=
    .table (fun _ _ _ h => by simp only [put, h]; rfl) (fun h => by rw [h]) h.responses.1
      fun p hp => p.2.reads_toJson (h.responses.2 p hp)
  exact ((((((hoperationId.append hsummary).append hdescription).append hdeprecated).append
    hparameters).append hrequestBody).append hresponses).reads (by decide) fun _ => (nomatch ·)

namespace Schema

theorem keeps_put {inner : Decoder Schema} (hinner : inner.Yields Distinct)
    (origin : Json.Origin) (room : Nat) : Json.Keeps Distinct (put inner origin room) := by
  intro s field d s' hs h
  obtain ⟨hitem, hvalue⟩ := distinct_iff.1 hs
  rw [put.eq_def] at h
  split at h
  case h_1 | h_2 =>
    obtain ⟨_, _, h⟩ := bind_eq_ok_iff.1 h
    cases h
    exact distinct_iff.2 ⟨hitem, hvalue⟩
  case h_3 =>
    obtain ⟨items, hitems, h⟩ := bind_eq_ok_iff.1 h
    cases h
    exact distinct_iff.2 ⟨hinner.optional hitems, hvalue⟩
  case h_4 =>
    obtain ⟨enumeration, henum, h⟩ := bind_eq_ok_iff.1 h
    cases h
    exact distinct_iff.2 ⟨hitem, Decoder.yields_json.list henum⟩
  case h_5 =>
    cases h
    exact hs

theorem distinct_empty : Distinct {} := distinct_iff.2 ⟨fun _ => (nomatch ·), fun _ => (nomatch ·)⟩

theorem yields_decoder : Decoder.Yields decoder Distinct := by
  intro origin room d s h
  -- on the room: the schema in `items` is read with one level less
  induction room generalizing origin d s with
  | zero =>
    have hnone : Decoder.Yields (fun _ _ d => .error (d.mismatch (.record "Schema"))) Distinct :=
      fun _ _ _ _ h => nomatch h
    exact Decoder.yields_record distinct_empty (keeps_put hnone) h
  | succ room ih =>
    have hinner : Decoder.Yields (fun origin _ d => decoder origin room d) Distinct :=
      fun _ _ _ _ h => ih h
    exact Decoder.yields_record distinct_empty (keeps_put hinner) h

end Schema

theorem MediaType.yields_decoder : decoder.Yields MediaType.Distinct := by
  refine Decoder.yields_record (fun _ => (nomatch ·)) fun origin room m field d m' hm h => ?_
  rw [put.eq_def] at h
  split at h
  case h_1 =>
    obtain ⟨schema, hschema, h⟩ := bind_eq_ok_iff.1 h
    cases h
    exact Schema.yields_decoder.optional hschema
  case h_2 =>
    cases h
    exact hm

theorem RequestBody.yields_decoder : decoder.Yields RequestBody.Distinct := by
  refine Decoder.yields_record .nil fun origin room b field d b' hb h => ?_
  rw [put.eq_def] at h
  split at h
  case h_1 | h_2 =>
    obtain ⟨_, _, h⟩ := bind_eq_ok_iff.1 h
    cases h
    exact hb
  case h_3 =>
    obtain ⟨content, hcontent, h⟩ := bind_eq_ok_iff.1 h
    cases h
    exact MediaType.yields_decoder.table hcontent
  case h_4 =>
    cases h
    exact hb

theorem Response.yields_decoder : decoder.Yields Response.Distinct := by
  refine Decoder.yields_record ⟨.nil, fun _ => (nomatch ·)⟩ fun origin room r field d r' hr h => ?_
  rw [put.eq_def] at h
  split at h
  case h_1 =>
    obtain ⟨_, _, h⟩ := bind_eq_ok_iff.1 h
    cases h
    exact ⟨hr.content, hr.schema⟩
  case h_2 =>
    obtain ⟨content, hcontent, h⟩ := bind_eq_ok_iff.1 h
    cases h
    exact ⟨MediaType.yields_decoder.table hcontent, hr.schema⟩
  case h_3 =>
    obtain ⟨schema, hschema, h⟩ := bind_eq_ok_iff.1 h
    cases h
    exact ⟨hr.content, Schema.yields_decoder.optional hschema⟩
  case h_4 =>
    cases h
    exact hr

theorem Parameter.yields_decoder : decoder.Yields Parameter.Distinct := by
  refine Decoder.yields_record ⟨fun _ => (nomatch ·), fun _ => (nomatch ·)⟩
    fun origin room p field d p' hp h => ?_
  rw [put.eq_def] at h
  split at h
  case h_1 | h_2 | h_3 | h_4 | h_6 =>
    obtain ⟨_, _, h⟩ := bind_eq_ok_iff.1 h
    cases h
    exact ⟨hp.schema, hp.items⟩
  case h_5 =>
    obtain ⟨schema, hschema, h⟩ := bind_eq_ok_iff.1 h
    cases h
    exact ⟨Schema.yields_decoder.optional hschema, hp.items⟩
  case h_7 =>
    obtain ⟨items, hitems, h⟩ := bind_eq_ok_iff.1 h
    cases h
    exact ⟨hp.schema, Schema.yields_decoder.optional hitems⟩
  case h_8 =>
    cases h
    exact hp

theorem Operation.yields_decoder : decoder.Yields Operation.Distinct := by
  refine Decoder.yields_record ⟨fun _ => (nomatch ·), fun _ => (nomatch ·), .nil⟩
    fun origin room op field d op' hop h => ?_
  rw [put.eq_def] at h
  split at h
  case h_1 | h_2 | h_3 | h_4 =>
    obtain ⟨_, _, h⟩ := bind_eq_ok_iff.1 h
    cases h
    exact ⟨hop.parameters, hop.requestBody, hop.responses⟩
  case h_5 =>
    obtain ⟨parameters, hparameters, h⟩ := bind_eq_ok_iff.1 h
    cases h
    exact ⟨Parameter.yields_decoder.list hparameters, hop.requestBody, hop.responses⟩
  case h_6 =>
    obtain ⟨requestBody, hrequestBody, h⟩ := bind_eq_ok_iff.1 h
    cases h
    exact ⟨hop.parameters, RequestBody.yields_decoder.optional hrequestBody, hop.responses⟩
  case h_7 =>
    obtain ⟨responses, hresponses, h⟩ := bind_eq_ok_iff.1 h
    cases h
    exact ⟨hop.parameters, hop.requestBody, Response.yields_decoder.table hresponses⟩
  case h_8 =>
    cases h
    exact hop

/-- A part and its JSON form. The parts that come back from their form are those without a
repeated key in any of their maps, and every part that was read is one of them: its form is a
tree, no matter which tree or text it came from, that is read as the same part. -/
structure RoundTrips (f : Decoder α) (toJson : α → Json) (fit : α → Prop) : Prop where
  back : ∀ a, Json.decodeValue f (toJson a) = .ok a ↔ fit a
  tree : ∀ v a, Json.decodeValue f v = .ok a → Json.decodeValue f (toJson a) = .ok a
  text : ∀ s a, Json.decodeText f s = .ok a → Json.decodeValue f (toJson a) = .ok a

theorem RoundTrips.of_reads {f : Decoder α} {toJson : α → Json} {fit : α → Prop}
    (hreads : ∀ a, fit a → Reads f (toJson a) a) (hyields : f.Yields fit) :
    RoundTrips f toJson fit where
  back a := ⟨fun h => hyields h, fun h => (hreads a h).decodeValue⟩
  tree _ a h := (hreads a (hyields h)).decodeValue
  text s a h := by
    rw [Json.decodeText] at h
    generalize Json.ofText s = read at h
    obtain ⟨b, hb, h⟩ := bind_eq_ok_iff.1 h
    split at h
    · cases h
      exact (hreads a (hyields hb)).decodeValue
    · cases h

/-- An operation and all its parts. -/
theorem roundTrips_document :
    RoundTrips Operation.decoder Operation.toJson Operation.Distinct ∧
    RoundTrips Parameter.decoder Parameter.toJson Parameter.Distinct ∧
    RoundTrips Schema.decoder Schema.toJson Schema.Distinct ∧
    RoundTrips RequestBody.decoder RequestBody.toJson RequestBody.Distinct ∧
    RoundTrips Response.decoder Response.toJson Response.Distinct ∧
    RoundTrips MediaType.decoder MediaType.toJson MediaType.Distinct :=
  ⟨.of_reads Operation.reads_toJson Operation.yields_decoder,
    .of_reads Parameter.reads_toJson Parameter.yields_decoder,
    .of_reads Schema.reads_toJson Schema.yields_decoder,
    .of_reads RequestBody.reads_toJson RequestBody.yields_decoder,
    .of_reads Response.reads_toJson Response.yields_decoder,
    .of_reads MediaType.reads_toJson MediaType.yields_decoder⟩

/-- What is left out of the form comes back as it was. -/
example :
    let tag : Schema := { enumeration := [.text "new", .null] }
    let tags : Schema := { type := some (.many ["array", "null"]), items := some tag }
    let id : Parameter := { name := "id", location := .path, required := true, items := some tags }
    let ok : Response := { content := [("application/json", {})] }
    let op : Operation := { parameters := [id], responses := [("default", ok)] }
    Json.decodeValue Operation.decoder op.toJson = .ok op := rfl

end ClientGen
