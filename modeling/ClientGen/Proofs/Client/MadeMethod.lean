import ClientGen.Client.Generate

namespace ClientGen

namespace Operation

def resultModel? (op : Operation) : Option String :=
  (op.resultSchema.bind Schema.reference).bind Model.ofReference

def payloadModel? (op : Operation) : Option String :=
  (op.payloadSchema.bind Schema.reference).bind Model.ofReference

theorem isIdentifier_of_resultModel? {op : Operation} {model : String}
    (h : op.resultModel? = some model) : Text.isIdentifier model = true := by
  obtain ⟨reference, _, href⟩ := Option.bind_eq_some_iff.1 h
  exact (Model.ofReference_eq_some href).1

theorem sendsBody_of_payloadModel? {op : Operation} {model : String}
    (h : op.payloadModel? = some model) : op.sendsBody = true := by
  unfold sendsBody
  cases hbody : op.requestBody with
  | some body => simp
  | none =>
    unfold payloadModel? payloadSchema at h
    rw [hbody] at h
    cases hfind : op.parameters.find? (·.location == .body) with
    | none => simp [hfind] at h
    | some p =>
      have hbodyParam := List.find?_some hfind
      have hany : op.parameters.any (fun p => p.location == .body || p.location == .formData) := by
        refine List.any_eq_true.2 ⟨p, List.mem_of_find?_eq_some hfind, ?_⟩
        rw [hbodyParam, Bool.true_or]
      simp [hany]

theorem isIdentifier_of_payloadModel? {op : Operation} {model : String}
    (h : op.payloadModel? = some model) : Text.isIdentifier model = true := by
  obtain ⟨reference, _, href⟩ := Option.bind_eq_some_iff.1 h
  exact (Model.ofReference_eq_some href).1

end Operation

namespace Client

variable (config : Config) (context : String)

def modelImports (model : String) : List (String × String) :=
  (config.models.exportOf? model).toList.map fun found => (found.module, found.model)

def validatorImports (model : String) : List (String × String) :=
  (config.models.exportOf? model).toList.flatMap fun found =>
    found.validator.toList.map fun v => (found.module, v)

theorem useModel_of_none {reference : String} (h : Model.ofReference reference = none) :
    useModel config context reference = ⟨none, [], [.unresolvableReference reference context]⟩ := by
  simp [useModel, h]

theorem useModel_of_some {reference model : String}
    (h : Model.ofReference reference = some model) :
    useModel config context reference =
      { value := some ⟨model, config.models.exportOf? model⟩
        imports := modelImports config model
        diagnostics :=
          if (config.models.exportOf? model).isSome then []
          else [.unclassifiedModel model context] } := by
  unfold useModel modelImports
  rw [h]
  cases hm : config.models.exportOf? model <;> simp [hm]

inductive TypeReport (context : String) : Diagnostic → Prop
  | unresolvable (reference : String) :
    TypeReport context (.unresolvableReference reference context)
  | unclassified (model : String) : TypeReport context (.unclassifiedModel model context)
  | untyped : TypeReport context (.untypedBody context)

section TypeReport

variable {config : Config} {context : String} {d : Diagnostic}

theorem typeReport_of_mem_useModel {reference : String}
    (h : d ∈ (useModel config context reference).diagnostics) : TypeReport context d := by
  cases href : Model.ofReference reference with
  | none =>
    rw [useModel_of_none config context href] at h
    rw [List.mem_singleton.1 h]
    exact .unresolvable reference
  | some model =>
    rw [useModel_of_some config context href] at h
    dsimp only at h
    split at h
    · cases h
    · rw [List.mem_singleton.1 h]
      exact .unclassified model

theorem typeReport_of_mem_resultModel {op : Operation}
    (h : d ∈ (resultModel config context op).diagnostics) : TypeReport context d := by
  unfold resultModel at h
  split at h
  · cases h
  · exact typeReport_of_mem_useModel h

theorem typeReport_of_mem_dataArgument {op : Operation}
    (h : d ∈ (dataArgument config context op).diagnostics) : TypeReport context d := by
  unfold dataArgument at h
  split at h
  · rw [List.mem_singleton.1 h]
    exact .untyped
  · dsimp only at h
    split at h <;> exact typeReport_of_mem_useModel h

end TypeReport

theorem resultModel_value (op : Operation) :
    (resultModel config context op).value = op.resultModel? := by
  unfold resultModel Operation.resultModel?
  cases op.resultSchema.bind Schema.reference with
  | none => rfl
  | some reference =>
    cases h : Model.ofReference reference with
    | none => simp [useModel_of_none config context h, h]
    | some model => simp [useModel_of_some config context h, h]

theorem resultModel_imports (op : Operation) :
    (resultModel config context op).imports =
      op.resultModel?.toList.flatMap (modelImports config) := by
  unfold resultModel Operation.resultModel?
  cases op.resultSchema.bind Schema.reference with
  | none => rfl
  | some reference =>
    cases h : Model.ofReference reference with
    | none => simp [useModel_of_none config context h, h]
    | some model => simp [useModel_of_some config context h, h]

theorem mem_resultModel_diagnostics {op : Operation} {model : String}
    (h : op.resultModel? = some model) (hm : config.models.exportOf? model = none) :
    .unclassifiedModel model context ∈ (resultModel config context op).diagnostics := by
  obtain ⟨reference, hschema, href⟩ := Option.bind_eq_some_iff.1 h
  simp [resultModel, hschema, useModel_of_some config context href, hm]

theorem dataArgument_value (op : Operation) :
    (dataArgument config context op).value =
      match op.payloadModel? with
      | none => untypedData
      | some model =>
        ⟨.named model, (config.models.exportOf? model).bind ModelExport.validator⟩ := by
  unfold dataArgument Operation.payloadModel?
  cases op.payloadSchema.bind Schema.reference with
  | none => rfl
  | some reference =>
    cases h : Model.ofReference reference with
    | none => simp [useModel_of_none config context h, h]
    | some model =>
      simp only [useModel_of_some config context h, h, Option.bind_some]
      cases config.models.exportOf? model with
      | none => rfl
      | some found => cases hv : found.validator <;> simp [hv]

theorem dataArgument_imports (op : Operation) :
    (dataArgument config context op).imports =
      op.payloadModel?.toList.flatMap fun model =>
        modelImports config model ++ validatorImports config model := by
  unfold dataArgument Operation.payloadModel?
  cases op.payloadSchema.bind Schema.reference with
  | none => rfl
  | some reference =>
    cases h : Model.ofReference reference with
    | none => simp [useModel_of_none config context h, h]
    | some model =>
      simp only [useModel_of_some config context h, h, Option.bind_some, validatorImports]
      cases hm : config.models.exportOf? model with
      | none => simp [hm]
      | some found => cases hv : found.validator <;> simp [hm, hv]

theorem mem_dataArgument_diagnostics {op : Operation} {model : String}
    (h : op.payloadModel? = some model) (hm : config.models.exportOf? model = none) :
    .unclassifiedModel model context ∈ (dataArgument config context op).diagnostics := by
  obtain ⟨reference, hschema, href⟩ := Option.bind_eq_some_iff.1 h
  simp [dataArgument, hschema, useModel_of_some config context href, hm]

theorem isSome_queryArgument (fields : List Script.Field) (hasData : Bool) :
    (queryArgument fields hasData).isSome = !fields.isEmpty := by
  unfold queryArgument
  cases fields <;> rfl

def bodyArgument (op : Operation) : Option DataArgument :=
  if op.sendsBody then some (dataArgument config context op).value else none

theorem makeMethod_value (controller name : String) (e : Endpoint) :
    (makeMethod config controller name e).value =
      buildMethod config name e e.operation.resultModel?
        (argumentFields (methodContext controller name e) e).value
        (bodyArgument config (methodContext controller name e) e.operation) := by
  unfold makeMethod bodyArgument
  rw [← resultModel_value config (methodContext controller name e)]
  split <;> rfl

theorem makeMethod_imports (controller name : String) (e : Endpoint) :
    (makeMethod config controller name e).imports =
      e.operation.resultModel?.toList.flatMap (modelImports config) ++
        (if e.operation.sendsBody then
          e.operation.payloadModel?.toList.flatMap fun model =>
            modelImports config model ++ validatorImports config model
        else []) := by
  unfold makeMethod
  dsimp only
  rw [resultModel_imports]
  split <;> simp [dataArgument_imports]

theorem mem_diagnostics_makeMethod_iff {config : Config} {controller name : String} {e : Endpoint}
    {d : Diagnostic} :
    d ∈ (makeMethod config controller name e).diagnostics ↔
      d ∈ (resultModel config (methodContext controller name e) e.operation).diagnostics ∨
      d ∈ (argumentFields (methodContext controller name e) e).diagnostics ∨
      e.operation.sendsBody = true ∧
        d ∈ (dataArgument config (methodContext controller name e) e.operation).diagnostics := by
  unfold makeMethod
  dsimp only
  cases e.operation.sendsBody <;> simp

theorem makeController_imports (name : String) (methods : Table Endpoint) :
    (makeController config name methods).imports =
      methods.flatMap fun p => (makeMethod config name p.1 p.2).imports := by
  simp [makeController, List.flatMap_map]

theorem makeController_diagnostics (name : String) (methods : Table Endpoint) :
    (makeController config name methods).diagnostics =
      methods.flatMap fun p => (makeMethod config name p.1 p.2).diagnostics := by
  simp [makeController, List.flatMap_map]

theorem makeController_methods (name : String) (methods : Table Endpoint) :
    (makeController config name methods).value.methods =
      methods.map fun p => (makeMethod config name p.1 p.2).value := by
  simp [makeController]

end Client

end ClientGen
