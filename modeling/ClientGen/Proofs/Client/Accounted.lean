import ClientGen.Proofs.Client.Signature
/-! What becomes of each declared parameter. It makes a field, it types the body, or there is a
report about it, unless the body is typed by something else: then a parameter of the body or of a
form is left out, and nothing says so. -/
namespace ClientGen

open Client Script

namespace Client

variable {config : Config} {context : String} {op : Operation}

theorem untyped_mem_dataArgument (h : op.payloadModel? = none) :
    .untypedBody context ∈ (dataArgument config context op).diagnostics ∨
      ∃ reference, .unresolvableReference reference context ∈
        (dataArgument config context op).diagnostics := by
  unfold dataArgument
  unfold Operation.payloadModel? at h
  cases hschema : op.payloadSchema.bind Schema.reference with
  | none => exact .inl (List.mem_singleton.2 rfl)
  | some reference =>
    rw [hschema, Option.bind_some] at h
    right
    refine ⟨reference, ?_⟩
    simp [useModel_of_none config context h]

section Method

variable {controller name : String} {e : Endpoint} {d : Diagnostic}

theorem location_of_skipped {parameter : String} {location : Location}
    (h : .skippedParameter (methodContext controller name e) parameter location ∈
      (makeMethod config controller name e).diagnostics) :
    location ≠ .body ∧ location ≠ .formData := by
  rcases cases_of_mem_makeMethod h with htype | ⟨p, hplace, hskipped⟩ | ⟨_, hundeclared⟩
  · cases htype
  · cases hskipped
    exact hplace
  · cases hundeclared

end Method

end Client

namespace Operation

/-- The body is typed by a model, and not by this parameter of the body or of a form. -/
def Overrules (op : Operation) (before : List Parameter) (p : Parameter) : Prop :=
  (p.location = .body ∨ p.location = .formData) ∧ (∃ model, op.payloadModel? = some model) ∧
    (op.requestBody.isSome = true ∨ p.location = .formData ∨ ∃ q ∈ before, q.location = .body)

end Operation

/-- What may become of a parameter of the endpoint in the method and the reports made for it. -/
inductive Client.Accounted (config : Config) (controller name : String) (e : Endpoint)
    (before : List Parameter) (p : Parameter) : Prop
  | field (hp : p.location = .query ∨ p.location = .path)
    (hfirst : ∀ q ∈ before, q.location = .query ∨ q.location = .path → q.name ≠ p.name)
    (h : (makeMethod config controller name e).value.Takes (declaredField p))
  | body (hp : p.location = .body)
    (hfirst : e.operation.requestBody = none ∧ ∀ q ∈ before, q.location ≠ .body) {model : String}
    (hmodel : (p.schema.bind Schema.reference).bind Model.ofReference = some model)
    (h : (makeMethod config controller name e).value.SendsData (.named model))
  | skipped
    (h : .skippedParameter (methodContext controller name e) p.name p.location ∈
      (makeMethod config controller name e).diagnostics)
  /-- The body stays without a model, and there is a report about that. -/
  | untyped (hp : p.location = .body ∨ p.location = .formData)
    (hmodel : e.operation.payloadModel? = none)
    (h : (makeMethod config controller name e).value.SendsData .any)
    (hreport : .untypedBody (methodContext controller name e) ∈
        (makeMethod config controller name e).diagnostics ∨
      ∃ reference, .unresolvableReference reference (methodContext controller name e) ∈
        (makeMethod config controller name e).diagnostics)

namespace Client

section Entry

variable {config : Config} {controller name : String} {e : Endpoint}
  {before after : List Parameter} {p : Parameter}

theorem accounted_of_queryParameter (h : e.operation.parameters = before ++ p :: after)
    (hp : p.location = .query ∨ p.location = .path) :
    Accounted config controller name e before p := by
  have hsplit : e.operation.queryParameters =
      (before.filter fun q => q.location == .query || q.location == .path) ++
        p :: after.filter fun q => q.location == .query || q.location == .path := by
    simp [Operation.queryParameters, h, hp]
  by_cases hname : ∃ q ∈ before, (q.location = .query ∨ q.location = .path) ∧ q.name = p.name
  · obtain ⟨q, hq, hplace, hname⟩ := hname
    apply Accounted.skipped
    refine mem_diagnostics_makeMethod_iff.2 (.inr (.inl ?_))
    have hrepeat : p ∈ Parameter.repeats e.operation.queryParameters := by
      rw [hsplit]
      exact Parameter.mem_repeats _ (List.mem_filter.2 ⟨hq, by simpa using hplace⟩) hname
    simp only [argumentFields_eq, List.mem_append, List.mem_map]
    exact .inl (.inr ⟨p, hrepeat, rfl⟩)
  · push Not at hname
    refine .field hp hname (takes_makeMethod_iff.2 ?_)
    have hfirst : e.operation.queryParameters.find? (·.name == p.name) = some p := by
      refine List.find?_eq_some_iff_append.2 ⟨beq_self_eq_true _, _, _, hsplit, fun q hq => ?_⟩
      obtain ⟨hq, hplace⟩ := List.mem_filter.1 hq
      simpa using hname q hq (by simpa using hplace)
    exact List.mem_of_find?_eq_some (find?_argumentFields hfirst)

theorem accounted_of_hidden (h : e.operation.parameters = before ++ p :: after)
    (hp : p.location = .header ∨ p.location = .cookie) :
    Accounted config controller name e before p := by
  apply Accounted.skipped
  refine mem_diagnostics_makeMethod_iff.2 (.inr (.inl ?_))
  have hmem : p ∈ e.operation.parameters.filter fun q =>
      q.location == .header || q.location == .cookie :=
    List.mem_filter.2 ⟨by simp [h], by simpa using hp⟩
  simp only [argumentFields_eq, List.mem_append, List.mem_map]
  exact .inl (.inl ⟨p, hmem, rfl⟩)

theorem accounted_of_untyped (h : e.operation.parameters = before ++ p :: after)
    (hp : p.location = .body ∨ p.location = .formData) (hmodel : e.operation.payloadModel? = none) :
    Accounted config controller name e before p := by
  have hsends : e.operation.sendsBody = true :=
    Operation.sendsBody_iff.2 (.inr ⟨p, by simp [h], hp⟩)
  have hdata : bodyArgument config (methodContext controller name e) e.operation =
      some untypedData := by
    rw [bodyArgument, if_pos hsends, dataArgument_value, hmodel]
  refine .untyped hp hmodel ?_ ?_
  · rw [makeMethod_value]
    exact sendsData_buildMethod _ _ _ _ _ _ hdata
  · rcases untyped_mem_dataArgument hmodel with hreport | ⟨reference, hreport⟩
    · exact .inl (mem_diagnostics_makeMethod_iff.2 (.inr (.inr ⟨hsends, hreport⟩)))
    · exact .inr ⟨reference, mem_diagnostics_makeMethod_iff.2 (.inr (.inr ⟨hsends, hreport⟩))⟩

theorem accounted_of_typed (h : e.operation.parameters = before ++ p :: after)
    (hp : p.location = .body) (hbody : e.operation.requestBody = none)
    (hfirst : ∀ q ∈ before, q.location ≠ .body) {model : String}
    (hmodel : e.operation.payloadModel? = some model) :
    Accounted config controller name e before p := by
  have hfind : e.operation.parameters.find? (·.location == .body) = some p :=
    List.find?_eq_some_iff_append.2
      ⟨by simp [hp], before, after, h, fun q hq => by simpa using hfirst q hq⟩
  have hschema : (p.schema.bind Schema.reference).bind Model.ofReference = some model := by
    have hpayload : e.operation.payloadSchema = p.schema := by
      simp [Operation.payloadSchema, hbody, hfind]
    rw [← hpayload]
    exact hmodel
  exact .body hp ⟨hbody, hfirst⟩ hschema (sendsData_makeMethod hmodel)

theorem accounted_of_not_overruled (h : e.operation.parameters = before ++ p :: after)
    (hoverruled : ¬ e.operation.Overrules before p) :
    Accounted config controller name e before p := by
  cases hplace : p.location with
  | query => exact accounted_of_queryParameter h (.inl hplace)
  | path => exact accounted_of_queryParameter h (.inr hplace)
  | header => exact accounted_of_hidden h (.inl hplace)
  | cookie => exact accounted_of_hidden h (.inr hplace)
  | body =>
    cases hmodel : e.operation.payloadModel? with
    | none => exact accounted_of_untyped h (.inl hplace) hmodel
    | some model =>
      have hbody : e.operation.requestBody = none := by
        by_contra hsome
        exact hoverruled ⟨.inl hplace, ⟨model, hmodel⟩, .inl (Option.isSome_iff_ne_none.2 hsome)⟩
      refine accounted_of_typed h hplace hbody (fun q hq hother => ?_) hmodel
      exact hoverruled ⟨.inl hplace, ⟨model, hmodel⟩, .inr (.inr ⟨q, hq, hother⟩)⟩
  | formData =>
    cases hmodel : e.operation.payloadModel? with
    | none => exact accounted_of_untyped h (.inr hplace) hmodel
    | some model =>
      exact absurd ⟨.inr hplace, ⟨model, hmodel⟩, .inr (.inl hplace)⟩ hoverruled

theorem not_accounted_of_overruled (hoverruled : e.operation.Overrules before p) :
    ¬ Accounted config controller name e before p := by
  obtain ⟨hplace, ⟨model, hmodel⟩, hother⟩ := hoverruled
  intro haccounted
  cases haccounted with
  | field hp =>
    rcases hp with hp | hp <;> simp [hp] at hplace
  | body hp hfirst =>
    rcases hother with hbody | hform | ⟨q, hq, hbody⟩
    · simp [hfirst.1] at hbody
    · simp [hp] at hform
    · exact hfirst.2 q hq hbody
  | skipped h =>
    obtain ⟨hbody, hform⟩ := location_of_skipped h
    exact hplace.elim hbody hform
  | untyped _ hnone =>
    rw [hmodel] at hnone
    cases hnone

/-- Each entry of the parameters is accounted for, but for a parameter of the body or of a form
where something else types the body. -/
theorem accounted_iff_not_overruled (h : e.operation.parameters = before ++ p :: after) :
    Accounted config controller name e before p ↔ ¬ e.operation.Overrules before p :=
  ⟨fun haccounted hoverruled => not_accounted_of_overruled hoverruled haccounted,
    accounted_of_not_overruled h⟩

end Entry

/-- A body with a model, and beside it a parameter of a form. -/
def photoEndpoint : Endpoint where
  verb := .post
  path := "/pets/\x7bowner\x7d"
  operation := {
    operationId := some "pets_add"
    parameters := [{ name := "owner", location := .query }, { name := "owner", location := .path },
      { name := "photo", location := .formData }]
    requestBody := some {
      content := [(jsonContentType,
        { schema := some { reference := some "#/components/schemas/PetDto" } })] } }

/-- The second parameter of a name is accounted for. -/
theorem accounted_iff_not_overruled_photoEndpoint :
    photoEndpoint.operation.parameters = [{ name := "owner", location := .query }] ++
        { name := "owner", location := .path } :: [{ name := "photo", location := .formData }] ∧
      Accounted {} "pets" "add" photoEndpoint [{ name := "owner", location := .query }]
        { name := "owner", location := .path } := by
  have h : photoEndpoint.operation.parameters = [{ name := "owner", location := .query }] ++
      { name := "owner", location := .path } :: [{ name := "photo", location := .formData }] := rfl
  refine ⟨h, (accounted_iff_not_overruled h).2 ?_⟩
  rintro ⟨hplace | hplace, -⟩ <;> cases hplace

/-- The parameter of the form is left out, and no report is about it. -/
theorem not_accounted_photoEndpoint :
    photoEndpoint.operation.parameters = [{ name := "owner", location := .query },
        { name := "owner", location := .path }] ++ [{ name := "photo", location := .formData }] ∧
      ¬ Accounted {} "pets" "add" photoEndpoint
        [{ name := "owner", location := .query }, { name := "owner", location := .path }]
        { name := "photo", location := .formData } := by
  refine ⟨rfl, not_accounted_of_overruled ⟨.inr rfl, ⟨"PetDto", ?_⟩, .inl rfl⟩⟩
  rfl

end Client

end ClientGen
