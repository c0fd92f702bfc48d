import ClientGen.Proofs.Client.References
import ClientGen.Proofs.Client.Reports
import ClientGen.Proofs.Client.Signature
import ClientGen.Proofs.Model.Naming
/-! What a method leaves without a type, an import or a guard, and what is reported about it. The
sides of the operation that decide this are told as the document has them: which schema the result
or the body has, which reference stands there, and which model it names. -/
namespace ClientGen

open Client Script

namespace Operation

variable {op : Operation} {s : Schema} {reference model : String}

/-- The schema of the result: that of the JSON content of the default response, or else the bare
one of the response. -/
inductive AnswersWith (op : Operation) : Schema → Prop
  | content {r : Response} {media : MediaType} {s : Schema}
    (hr : op.responses.get? defaultResponse = some r)
    (hm : r.content.get? jsonContentType = some media) (hs : media.schema = some s) :
    AnswersWith op s
  | bare {r : Response} {s : Schema} (hr : op.responses.get? defaultResponse = some r)
    (hm : ∀ media, r.content.get? jsonContentType = some media → media.schema = none)
    (hs : r.schema = some s) : AnswersWith op s

/-- The schema of the body: that of the JSON content of the request body, or that of the first body
parameter where there is no request body. -/
inductive SendsWith (op : Operation) : Schema → Prop
  | request {body : RequestBody} {media : MediaType} {s : Schema} (hb : op.requestBody = some body)
    (hm : body.content.get? jsonContentType = some media) (hs : media.schema = some s) :
    SendsWith op s
  | parameter {before after : List Parameter} {p : Parameter} {s : Schema}
    (hb : op.requestBody = none) (hp : op.parameters = before ++ p :: after)
    (hplace : p.location = .body) (hfirst : ∀ q ∈ before, q.location ≠ .body)
    (hs : p.schema = some s) : SendsWith op s

theorem resultSchema_eq_some_iff : op.resultSchema = some s ↔ op.AnswersWith s := by
  constructor
  · intro h
    obtain ⟨r, hr, h⟩ := Option.bind_eq_some_iff.1 h
    unfold Response.jsonContent at h
    cases hcontent : (r.content.get? jsonContentType).bind MediaType.schema with
    | none =>
      rw [hcontent] at h
      exact .bare hr (fun media hm => Option.bind_eq_none_iff.1 hcontent media hm) h
    | some t =>
      rw [hcontent] at h
      cases h
      obtain ⟨media, hm, hs⟩ := Option.bind_eq_some_iff.1 hcontent
      exact .content hr hm hs
  · intro h
    cases h with
    | content hr hm hs => simp [resultSchema, Response.jsonContent, hr, hm, hs]
    | @bare r _ hr hm hs =>
      have hcontent : (r.content.get? jsonContentType).bind MediaType.schema = none :=
        Option.bind_eq_none_iff.2 hm
      simp [resultSchema, Response.jsonContent, hr, hcontent, hs]

theorem payloadSchema_eq_some_iff : op.payloadSchema = some s ↔ op.SendsWith s := by
  constructor
  · intro h
    unfold payloadSchema at h
    cases hb : op.requestBody with
    | some body =>
      rw [hb] at h
      obtain ⟨media, hm, hs⟩ := Option.bind_eq_some_iff.1 h
      exact .request hb hm hs
    | none =>
      rw [hb] at h
      obtain ⟨p, hfind, hs⟩ := Option.bind_eq_some_iff.1 h
      obtain ⟨hplace, before, after, hp, hfirst⟩ := List.find?_eq_some_iff_append.1 hfind
      exact .parameter hb hp (eq_of_beq hplace) (fun q hq => by simpa using hfirst q hq) hs
  · intro h
    cases h with
    | request hb hm hs => simp [payloadSchema, RequestBody.jsonContent, hb, hm, hs]
    | parameter hb hp hplace hfirst hs =>
      have hfind : op.parameters.find? (·.location == .body) = some _ :=
        List.find?_eq_some_iff_append.2
          ⟨beq_iff_eq.2 hplace, _, _, hp, fun q hq => by simpa using hfirst q hq⟩
      simp [payloadSchema, hb, hfind, hs]

def ResultReference (op : Operation) (reference : String) : Prop :=
  ∃ s, op.AnswersWith s ∧ s.reference = some reference

def PayloadReference (op : Operation) (reference : String) : Prop :=
  ∃ s, op.SendsWith s ∧ s.reference = some reference

def ResultModel (op : Operation) (model : String) : Prop :=
  ∃ reference, op.ResultReference reference ∧ Model.Names reference model

def PayloadModel (op : Operation) (model : String) : Prop :=
  ∃ reference, op.PayloadReference reference ∧ Model.Names reference model

def HasBody (op : Operation) : Prop :=
  op.requestBody.isSome = true ∨
    ∃ p ∈ op.parameters, p.location = .body ∨ p.location = .formData

theorem resultReference_iff :
    op.resultSchema.bind Schema.reference = some reference ↔ op.ResultReference reference := by
  simp only [Option.bind_eq_some_iff, resultSchema_eq_some_iff]
  rfl

theorem payloadReference_iff :
    op.payloadSchema.bind Schema.reference = some reference ↔ op.PayloadReference reference := by
  simp only [Option.bind_eq_some_iff, payloadSchema_eq_some_iff]
  rfl

theorem resultModel?_eq_some_iff : op.resultModel? = some model ↔ op.ResultModel model := by
  unfold resultModel?
  simp only [Option.bind_eq_some_iff (x := op.resultSchema.bind Schema.reference),
    resultReference_iff, Model.ofReference_eq_some_iff]
  rfl

theorem payloadModel?_eq_some_iff : op.payloadModel? = some model ↔ op.PayloadModel model := by
  unfold payloadModel?
  simp only [Option.bind_eq_some_iff (x := op.payloadSchema.bind Schema.reference),
    payloadReference_iff, Model.ofReference_eq_some_iff]
  rfl

theorem payloadModel?_eq_none_iff : op.payloadModel? = none ↔ ¬ ∃ model, op.PayloadModel model := by
  simp only [Option.eq_none_iff_forall_ne_some, ne_eq, payloadModel?_eq_some_iff, not_exists]

end Operation

/-- The report is about a place that is left untyped or a model that is not imported. -/
def Diagnostic.isDegradation : Diagnostic → Bool
  | .unresolvableReference .. | .unclassifiedModel .. | .untypedBody .. => true
  | _ => false

namespace Client

/-- What is reported about a reference: that it names no model, or that its model is not imported,
or nothing. -/
inductive ReferenceReports (c : Convention) (context reference : String) : List Diagnostic → Prop
  | unresolvable (h : ¬ ∃ model, Model.Names reference model) :
    ReferenceReports c context reference [.unresolvableReference reference context]
  | unclassified {model : String} (h : Model.Names reference model) (hm : ¬ c.Matches model) :
    ReferenceReports c context reference [.unclassifiedModel model context]
  | classified {model : String} (h : Model.Names reference model) (hm : c.Matches model) :
    ReferenceReports c context reference []

inductive ResultReports (c : Convention) (context : String) (op : Operation) :
    List Diagnostic → Prop
  | noReference (h : ¬ ∃ reference, op.ResultReference reference) : ResultReports c context op []
  | reference {reference : String} {ds : List Diagnostic} (h : op.ResultReference reference)
    (hds : ReferenceReports c context reference ds) : ResultReports c context op ds

inductive PayloadReports (c : Convention) (context : String) (op : Operation) :
    List Diagnostic → Prop
  | noBody (h : ¬ op.HasBody) : PayloadReports c context op []
  | noReference (h : op.HasBody) (hr : ¬ ∃ reference, op.PayloadReference reference) :
    PayloadReports c context op [.untypedBody context]
  | reference {reference : String} {ds : List Diagnostic} (h : op.PayloadReference reference)
    (hds : ReferenceReports c context reference ds) : PayloadReports c context op ds

/-- The result and the body of the method are typed by the models that are named for them, and are
untyped without; a body with a model of some module has a guard where there are validators. The
reports are about what is missing, first of the result and then of the body. -/
structure Degradation (config : Config) (context : String) (op : Operation) (m : ArrowMethod)
    (reports : List Diagnostic) : Prop where
  result : ∀ t, m.resultType? = some t ↔ ∃ model, t = .named model ∧ op.ResultModel model
  data : ∀ t, m.SendsData t ↔ op.HasBody ∧
    ((∃ model, t = .named model ∧ op.PayloadModel model) ∨
      t = .any ∧ ¬ ∃ model, op.PayloadModel model)
  guard : m.guard?.isSome = true ↔
    (∃ model, op.PayloadModel model ∧ config.models.Matches model) ∧
      config.models.validatorSuffix ≠ ""
  reports : ∃ results bodies, reports = results ++ bodies ∧
    ResultReports config.models context op results ∧
    PayloadReports config.models context op bodies

section Method

variable {config : Config} {controller name context : String} {e : Endpoint} {op : Operation}

theorem referenceReports_useModel (hc : config.Accepted) (context reference : String) :
    ReferenceReports config.models context reference
      (useModel config context reference).diagnostics := by
  have hsuffix := Text.ne_empty_of_isIdentifier hc.valueObjectSuffix
  cases h : Model.ofReference reference with
  | none =>
    rw [useModel_of_none config context h]
    exact .unresolvable (Model.ofReference_eq_none_iff.1 h)
  | some model =>
    have hnames := Model.ofReference_eq_some_iff.1 h
    have hmatches := Convention.isSome_exportOf?_iff hsuffix
      (Text.ne_empty_of_isIdentifier hnames.1)
    rw [useModel_of_some config context h]
    dsimp only
    split
    · next hfound => exact .classified hnames (hmatches.1 hfound)
    · next hfound => exact .unclassified hnames (mt hmatches.2 hfound)

theorem resultReports_resultModel (hc : config.Accepted) (context : String) (op : Operation) :
    ResultReports config.models context op (resultModel config context op).diagnostics := by
  unfold resultModel
  cases h : op.resultSchema.bind Schema.reference with
  | none =>
    refine .noReference fun ⟨reference, href⟩ => ?_
    rw [Operation.resultReference_iff.2 href] at h
    cases h
  | some reference =>
    exact .reference (Operation.resultReference_iff.1 h) (referenceReports_useModel hc _ _)

theorem diagnostics_dataArgument (config : Config) (context : String) (op : Operation) :
    (dataArgument config context op).diagnostics =
      match op.payloadSchema.bind Schema.reference with
      | none => [.untypedBody context]
      | some reference => (useModel config context reference).diagnostics := by
  unfold dataArgument
  cases op.payloadSchema.bind Schema.reference with
  | none => rfl
  | some reference =>
    dsimp only
    split <;> rfl

theorem payloadReports_makeMethod (hc : config.Accepted) (context : String) (op : Operation) :
    PayloadReports config.models context op
      (if op.sendsBody then (dataArgument config context op).diagnostics else []) := by
  have hbody : op.sendsBody = true ↔ op.HasBody := Operation.sendsBody_iff
  split
  · next hsends =>
    rw [diagnostics_dataArgument]
    cases h : op.payloadSchema.bind Schema.reference with
    | none =>
      refine .noReference (hbody.1 hsends) fun ⟨reference, href⟩ => ?_
      rw [Operation.payloadReference_iff.2 href] at h
      cases h
    | some reference =>
      exact .reference (Operation.payloadReference_iff.1 h) (referenceReports_useModel hc _ _)
  · next hsends => exact .noBody (mt hbody.2 hsends)

theorem TypeReport.isDegradation {d : Diagnostic} (h : TypeReport context d) :
    d.isDegradation = true := by cases h <;> rfl

theorem isDegradation_of_mem_argumentFields {d : Diagnostic}
    (h : d ∈ (argumentFields context e).diagnostics) : d.isDegradation = false := by
  rcases mem_diagnostics_argumentFields h with ⟨p, -, rfl⟩ | ⟨_, rfl⟩ <;> rfl

theorem filter_isDegradation_makeMethod :
    (makeMethod config controller name e).diagnostics.filter Diagnostic.isDegradation =
      (resultModel config (methodContext controller name e) e.operation).diagnostics ++
        if e.operation.sendsBody then
          (dataArgument config (methodContext controller name e) e.operation).diagnostics
        else [] := by
  have hfields : (argumentFields (methodContext controller name e) e).diagnostics.filter
      Diagnostic.isDegradation = [] :=
    List.filter_eq_nil_iff.2 fun d hd => by simp [isDegradation_of_mem_argumentFields hd]
  unfold makeMethod
  dsimp only
  rw [List.filter_append, List.filter_append, hfields, List.append_nil,
    List.filter_eq_self.2 fun _ h => (typeReport_of_mem_resultModel h).isDegradation]
  cases e.operation.sendsBody with
  | true =>
    exact congrArg _
      (List.filter_eq_self.2 fun _ h => (typeReport_of_mem_dataArgument h).isDegradation)
  | false => rfl

theorem sendsData_buildMethod_iff {result : Option String} {fields : List Field}
    {data : Option DataArgument} {t : TypeTerm} :
    (buildMethod config name e result fields data).SendsData t ↔
      ∃ d, data = some d ∧ d.type = t := by
  constructor
  · rintro ⟨p, hp, hname, htype⟩
    rcases List.mem_append.1 hp with hp | hp
    · rw [(parts_of_queryArgument (Option.mem_toList.1 hp)).name] at hname
      exact absurd hname (by decide)
    · cases data with
      | none => cases hp
      | some d =>
        have hne : validateName ≠ dataName := by decide
        rcases List.mem_pair.1 hp with rfl | rfl
        · exact ⟨d, rfl, Option.some.inj htype⟩
        · exact absurd hname hne
  · rintro ⟨d, hd, rfl⟩
    exact sendsData_buildMethod config name e result fields data hd

theorem sendsData_makeMethod_iff {t : TypeTerm} :
    (makeMethod config controller name e).value.SendsData t ↔ e.operation.HasBody ∧
      ((∃ model, t = .named model ∧ e.operation.PayloadModel model) ∨
        t = .any ∧ ¬ ∃ model, e.operation.PayloadModel model) := by
  have hbody : (∃ d, bodyArgument config (methodContext controller name e) e.operation = some d ∧
      d.type = t) ↔ e.operation.sendsBody = true ∧
        (dataArgument config (methodContext controller name e) e.operation).value.type = t := by
    unfold bodyArgument
    cases e.operation.sendsBody <;> simp
  rw [makeMethod_value, sendsData_buildMethod_iff, hbody, Operation.sendsBody_iff]
  refine and_congr_right fun _ => ?_
  rw [dataArgument_value]
  cases hm : e.operation.payloadModel? with
  | none =>
    have hnone := Operation.payloadModel?_eq_none_iff.1 hm
    constructor
    · rintro rfl
      exact .inr ⟨rfl, hnone⟩
    · rintro (⟨model, -, hmodel⟩ | ⟨rfl, -⟩)
      · exact absurd ⟨model, hmodel⟩ hnone
      · rfl
  | some model =>
    have hsome := Operation.payloadModel?_eq_some_iff.1 hm
    constructor
    · rintro rfl
      exact .inl ⟨model, rfl, hsome⟩
    · rintro (⟨other, rfl, hother⟩ | ⟨-, hnone⟩)
      · rw [Operation.payloadModel?_eq_some_iff.2 hother] at hm
        exact congrArg _ (Option.some.inj hm).symm
      · exact absurd ⟨model, hsome⟩ hnone

theorem isSome_guard?_makeMethod (hc : config.Accepted) :
    (makeMethod config controller name e).value.guard?.isSome = true ↔
      (∃ model, e.operation.PayloadModel model ∧ config.models.Matches model) ∧
        config.models.validatorSuffix ≠ "" := by
  have hsuffix := Text.ne_empty_of_isIdentifier hc.valueObjectSuffix
  rw [Option.isSome_iff_exists]
  constructor
  · rintro ⟨g, hg⟩
    obtain ⟨model, found, v, hm, hfound, hv, rfl⟩ := guard?_makeMethod.1 hg
    have hmodel := Text.ne_empty_of_isIdentifier (Operation.isIdentifier_of_payloadModel? hm)
    refine ⟨⟨model, Operation.payloadModel?_eq_some_iff.1 hm, ?_⟩, ?_⟩
    · rw [← Convention.isSome_exportOf?_iff hsuffix hmodel, hfound]
      rfl
    · rw [← Convention.isSome_validator_iff hfound, hv]
      rfl
  · rintro ⟨⟨model, hpayload, hmatches⟩, hvalidators⟩
    have hm := Operation.payloadModel?_eq_some_iff.2 hpayload
    have hmodel := Text.ne_empty_of_isIdentifier (Operation.isIdentifier_of_payloadModel? hm)
    obtain ⟨found, hfound⟩ := Option.isSome_iff_exists.1
      ((Convention.isSome_exportOf?_iff hsuffix hmodel).2 hmatches)
    obtain ⟨v, hv⟩ := Option.isSome_iff_exists.1
      ((Convention.isSome_validator_iff hfound).2 hvalidators)
    exact ⟨_, guard?_makeMethod.2 ⟨model, found, v, hm, hfound, hv, rfl⟩⟩

theorem resultType?_makeMethod_iff {t : TypeTerm} :
    (makeMethod config controller name e).value.resultType? = some t ↔
      ∃ model, t = .named model ∧ e.operation.ResultModel model := by
  rw [resultType?_makeMethod, Option.map_eq_some_iff]
  constructor
  · rintro ⟨model, hmodel, rfl⟩
    exact ⟨model, rfl, Operation.resultModel?_eq_some_iff.1 hmodel⟩
  · rintro ⟨model, rfl, hmodel⟩
    exact ⟨model, Operation.resultModel?_eq_some_iff.2 hmodel, rfl⟩

theorem degradation_makeMethod (hc : config.Accepted) :
    Degradation config (methodContext controller name e) e.operation
      (makeMethod config controller name e).value
      ((makeMethod config controller name e).diagnostics.filter Diagnostic.isDegradation) where
  result _ := resultType?_makeMethod_iff
  data _ := sendsData_makeMethod_iff
  guard := isSome_guard?_makeMethod hc
  reports := ⟨_, _, filter_isDegradation_makeMethod, resultReports_resultModel hc _ _,
    payloadReports_makeMethod hc _ _⟩

theorem context?_of_isDegradation {d : Diagnostic}
    (h : d ∈ (makeMethod config controller name e).diagnostics) (hd : d.isDegradation = true) :
    d.context? = some (methodContext controller name e) := by
  refine (context?_of_mem_makeMethod h).resolve_left fun hnone => ?_
  cases d <;> cases hd <;> cases hnone

end Method

end Client

theorem ApiDocument.exists_method_of_isDegradation {doc : ApiDocument} {config : Config}
    {d : Diagnostic} (h : d ∈ (doc.clientParts config).diagnostics)
    (hd : d.isDegradation = true) :
    ∃ c methods, (c, methods) ∈ (doc.group config).groups.controllers ∧
      ∃ name e, (name, e) ∈ methods ∧ d.context? = some (methodContext c name e) := by
  rcases mem_diagnostics_clientParts.1 h with h | ⟨c, methods, hc, name, e, he, h⟩
  · have hnone := doc.context?_of_mem_group config d h
    cases d <;> cases hd <;> cases hnone
  · exact ⟨c, methods, hc, name, e, he, context?_of_isDegradation h hd⟩

/-- Each place of a method that has a type, an import or a guard has it for the reference that
stands in the document, and each that is left without is reported once, under the name of the
method. Along with all other methods of a document there is no further report about this one, and
none about anything but methods. -/
theorem ApiDocument.degradation_reported {config : Config} (h : config.validate = .ok ()) :
    (∀ controller name e,
      Degradation config (methodContext controller name e) e.operation
        (makeMethod config controller name e).value
        ((makeMethod config controller name e).diagnostics.filter Diagnostic.isDegradation)) ∧
    ∀ doc : ApiDocument,
      (∀ c methods, (c, methods) ∈ (doc.group config).groups.controllers →
        ∀ name e, (name, e) ∈ methods →
          Degradation config (methodContext c name e) e.operation
            (makeMethod config c name e).value
            ((doc.clientParts config).diagnostics.filter fun d =>
              d.context? == some (methodContext c name e) && d.isDegradation)) ∧
      ∀ d ∈ (doc.clientParts config).diagnostics, d.isDegradation = true →
        ∃ c methods, (c, methods) ∈ (doc.group config).groups.controllers ∧
          ∃ name e, (name, e) ∈ methods ∧ d.context? = some (methodContext c name e) := by
  have hc := Config.validate_eq_ok_iff.1 h
  refine ⟨fun _ _ _ => degradation_makeMethod hc, fun doc => ⟨?_, fun d hd hdegradation => ?_⟩⟩
  · intro c methods hgroup name e he
    have hreports : ((doc.clientParts config).diagnostics.filter fun d =>
        d.context? == some (methodContext c name e) && d.isDegradation) =
          (makeMethod config c name e).diagnostics.filter Diagnostic.isDegradation := by
      -- first those of all reports that name the method, then those among them about types
      simp only [Bool.and_comm (_ == _)]
      rw [← List.filter_filter, filter_context?_clientParts hgroup he, List.filter_filter]
      refine List.filter_congr fun d hd => ?_
      cases hdegradation : d.isDegradation with
      | true => simp [context?_of_isDegradation hd hdegradation]
      | false => rfl
    rw [hreports]
    exact degradation_makeMethod hc
  · exact exists_method_of_isDegradation hd hdegradation

/-- The reference of the response has no slash in front of the model, and the model of the body
belongs to no module. -/
def unslashedDocument : ApiDocument where
  paths := [("/orders", {
    operations := [(.post, {
      operationId := some "orders_add"
      requestBody := some {
        content := [(jsonContentType, {
          schema := some { reference := some "#/components/schemas/Order" } })] }
      responses := [(defaultResponse, { schema := some { reference := some "Order" } })] })] })]

theorem degradation_reported_unslashedDocument :
    ({} : Config).validate = .ok () ∧
      ∃ e, ("orders", [("add", e)]) ∈ (unslashedDocument.group {}).groups.controllers ∧
        Degradation {} "orders.add (post /orders)" e.operation
          (makeMethod {} "orders" "add" e).value
          [.unresolvableReference "Order" "orders.add (post /orders)",
            .unclassifiedModel "Order" "orders.add (post /orders)"] := by
  have hreports : ((unslashedDocument.clientParts {}).diagnostics.filter fun d =>
      d.context? == some "orders.add (post /orders)" && d.isDegradation) =
        [.unresolvableReference "Order" "orders.add (post /orders)",
          .unclassifiedModel "Order" "orders.add (post /orders)"] := by
    decide +kernel
  obtain ⟨e, hmem, hcontext⟩ : ∃ e,
      ("orders", [("add", e)]) ∈ (unslashedDocument.group {}).groups.controllers ∧
        methodContext "orders" "add" e = "orders.add (post /orders)" :=
    ⟨_, List.mem_singleton.2 rfl, rfl⟩
  have hdegradation := ((ApiDocument.degradation_reported Config.validate_default).2
    unslashedDocument).1 "orders" _ hmem "add" e List.mem_cons_self
  rw [hcontext, hreports] at hdegradation
  exact ⟨Config.validate_default, e, hmem, hdegradation⟩

end ClientGen
