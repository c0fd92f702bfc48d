import ClientGen.Proofs.Client.Balance
import Mathlib.Data.List.Nodup

namespace ClientGen

namespace Script

namespace ArrowMethod

variable (m : ArrowMethod)

def call? : Option RequestCall :=
  match m.body with
  | .request call => some call
  | .statements _ => none

def resultType? : Option TypeTerm := m.call?.bind RequestCall.result

def guard? : Option Guard := m.call?.bind RequestCall.guard

def HasParam (name : String) : Prop := ∃ p ∈ m.params, p.name = name

def SendsData (t : TypeTerm) : Prop := ∃ p ∈ m.params, p.name = Client.dataName ∧ p.type = some t

end ArrowMethod

def ClassDeclaration.arrowMethods (c : ClassDeclaration) : List ArrowMethod :=
  c.members.flatMap fun
    | .property { initializer := some (.object methods), .. } => methods
    | _ => []

def File.Imports (f : File) (symbol : String) : Prop := ∃ i ∈ f.imports, symbol ∈ i.symbols

end Script

open Client Script

/-- The methods of a client, each with the operation it is made for. -/
def ApiDocument.emitted (doc : ApiDocument) (config : Config) : List (ArrowMethod × Endpoint) :=
  (doc.group config).groups.controllers.flatMap fun p =>
    p.2.map fun q => ((makeMethod config p.1 q.1 q.2).value, q.2)

theorem ApiDocument.mem_emitted {doc : ApiDocument} {config : Config} {p : ArrowMethod × Endpoint} :
    p ∈ doc.emitted config ↔
      ∃ c methods, (c, methods) ∈ (doc.group config).groups.controllers ∧
        ∃ name e, (name, e) ∈ methods ∧ p = ((makeMethod config c name e).value, e) := by
  simp only [emitted, List.mem_flatMap, List.mem_map]
  constructor
  · rintro ⟨⟨c, methods⟩, hc, ⟨name, e⟩, he, rfl⟩
    exact ⟨c, methods, hc, name, e, he, rfl⟩
  · rintro ⟨c, methods, hc, name, e, he, rfl⟩
    exact ⟨(c, methods), hc, (name, e), he, rfl⟩

theorem Client.arrowMethods_clientClass (config : Config) (cs : List Controller) :
    (clientClass config cs).arrowMethods = cs.flatMap Controller.methods := by
  unfold ClassDeclaration.arrowMethods clientClass
  rw [List.flatMap_cons, List.nil_append, List.flatMap_assoc]
  simp [groupMembers]

theorem ApiDocument.arrowMethods_clientParts (doc : ApiDocument) (config : Config) :
    (clientClass config (doc.clientParts config).controllers).arrowMethods =
      (doc.emitted config).map Prod.fst := by
  rw [arrowMethods_clientClass]
  simp [clientParts, Groups.makeControllers, emitted, List.flatMap_map, List.map_flatMap,
    makeController_methods, Function.comp_def]

theorem Script.ArrowMethod.hasParam_iff {m : ArrowMethod} {name : String} :
    m.HasParam name ↔ name ∈ m.params.map Param.name := by
  simp [HasParam, List.mem_map]

section Build

variable (config : Config) (name : String) (e : Endpoint) (result : Option String)
  (fields : List Field) (data : Option DataArgument)

theorem Client.paramNames_buildMethod :
    (buildMethod config name e result fields data).params.map Param.name =
      (if (queryArgument fields data.isSome).isSome then [queryName] else [])
        ++ (if data.isSome then [dataName, validateName] else []) := by
  have hquery : ((queryArgument fields data.isSome).toList.map Param.name) =
      if (queryArgument fields data.isSome).isSome then [queryName] else [] := by
    unfold queryArgument
    split <;> rfl
  have hdata : ((data.map dataArguments).getD []).map Param.name =
      if data.isSome then [dataName, validateName] else [] := by
    cases data <;> rfl
  rw [← hquery, ← hdata, ← List.map_append]
  rfl

theorem Client.hasParam_query_buildMethod :
    (buildMethod config name e result fields data).HasParam queryName ↔
      (queryArgument fields data.isSome).isSome = true := by
  have hne : queryName ≠ dataName ∧ queryName ≠ validateName := by decide
  rw [ArrowMethod.hasParam_iff, paramNames_buildMethod]
  cases data <;> simp [hne]

theorem Client.hasParam_data_buildMethod :
    (buildMethod config name e result fields data).HasParam dataName ↔ data.isSome = true := by
  have hne : dataName ≠ queryName := by decide
  rw [ArrowMethod.hasParam_iff, paramNames_buildMethod]
  cases data <;> simp [hne]

theorem Client.hasParam_validate_buildMethod :
    (buildMethod config name e result fields data).HasParam validateName ↔
      data.isSome = true := by
  have hne : validateName ≠ queryName := by decide
  rw [ArrowMethod.hasParam_iff, paramNames_buildMethod]
  cases data <;> simp [hne]

theorem Client.sendsData_buildMethod {d : DataArgument} (h : data = some d) :
    (buildMethod config name e result fields data).SendsData d.type := by
  subst h
  refine ⟨{ name := dataName, type := some d.type }, ?_, rfl, rfl⟩
  exact List.mem_append_right _ List.mem_cons_self

end Build

section Make

variable {config : Config} {controller name : String} {e : Endpoint}

theorem Client.bodyArgument_of_payloadModel? {context : String} {op : Operation} {model : String}
    (h : op.payloadModel? = some model) :
    bodyArgument config context op =
      some ⟨.named model, (config.models.exportOf? model).bind ModelExport.validator⟩ := by
  have hsends : op.sendsBody = true := op.sendsBody_of_payloadModel? h
  rw [bodyArgument, if_pos hsends, dataArgument_value, h]

theorem Client.resultType?_makeMethod :
    (makeMethod config controller name e).value.resultType? =
      e.operation.resultModel?.map .named := by
  rw [makeMethod_value]
  rfl

theorem Client.sendsData_makeMethod {model : String}
    (h : e.operation.payloadModel? = some model) :
    (makeMethod config controller name e).value.SendsData (.named model) := by
  rw [makeMethod_value]
  exact sendsData_buildMethod _ _ _ _ _ _ (bodyArgument_of_payloadModel? h)

theorem Client.guard?_makeMethod {g : Guard} :
    (makeMethod config controller name e).value.guard? = some g ↔
      ∃ model found v, e.operation.payloadModel? = some model ∧
        config.models.exportOf? model = some found ∧ found.validator = some v ∧
        g = ⟨validateName, v, dataName⟩ := by
  have hguard : (makeMethod config controller name e).value.guard? =
      (bodyArgument config (methodContext controller name e) e.operation).bind guardOf := by
    rw [makeMethod_value]
    rfl
  rw [hguard]
  cases hm : e.operation.payloadModel? with
  | none =>
    unfold bodyArgument
    rw [dataArgument_value, hm]
    split <;> simp [guardOf, untypedData]
  | some model =>
    rw [bodyArgument_of_payloadModel? hm]
    cases hfound : config.models.exportOf? model with
    | none => simp [guardOf, hfound]
    | some found =>
      cases hv : found.validator with
      | none => simp [guardOf, hfound, hv]
      | some v => simp [guardOf, hfound, hv, eq_comm]

theorem Client.mem_imports_of_resultModel? {model : String}
    (h : e.operation.resultModel? = some model) {p : String × String}
    (hp : p ∈ modelImports config model) :
    p ∈ (makeMethod config controller name e).imports := by
  rw [makeMethod_imports, h]
  exact List.mem_append_left _ (List.mem_flatMap.2 ⟨model, by simp, hp⟩)

theorem Client.mem_imports_of_payloadModel? {model : String}
    (h : e.operation.payloadModel? = some model) {p : String × String}
    (hp : p ∈ modelImports config model ++ validatorImports config model) :
    p ∈ (makeMethod config controller name e).imports := by
  rw [makeMethod_imports, if_pos (Operation.sendsBody_of_payloadModel? h), h]
  exact List.mem_append_right _ (List.mem_flatMap.2 ⟨model, by simp, hp⟩)

theorem Client.used_of_mem_imports {module symbol : String}
    (h : (module, symbol) ∈ (makeMethod config controller name e).imports) :
    (∃ found, config.models.exportOf? symbol = some found ∧ found.module = module ∧
      (e.operation.resultModel? = some symbol ∨ e.operation.payloadModel? = some symbol)) ∨
    ∃ model found, e.operation.payloadModel? = some model ∧
      config.models.exportOf? model = some found ∧ found.module = module ∧
      found.validator = some symbol := by
  rw [makeMethod_imports, List.mem_append] at h
  rcases h with h | h
  · obtain ⟨model, hm, h⟩ := List.mem_flatMap.1 h
    obtain ⟨found, hfound, heq⟩ := mem_modelImports.1 h
    cases heq
    exact .inl ⟨found, hfound, rfl, .inl (Option.mem_toList.1 hm)⟩
  · split at h
    · obtain ⟨model, hm, h⟩ := List.mem_flatMap.1 h
      rcases List.mem_append.1 h with h | h
      · obtain ⟨found, hfound, heq⟩ := mem_modelImports.1 h
        cases heq
        exact .inl ⟨found, hfound, rfl, .inr (Option.mem_toList.1 hm)⟩
      · obtain ⟨found, v, hfound, hv, heq⟩ := mem_validatorImports.1 h
        cases heq
        exact .inr ⟨model, found, Option.mem_toList.1 hm, hfound, rfl, hv⟩
    · cases h

theorem Client.unclassified_makeMethod {model : String}
    (h : e.operation.resultModel? = some model ∨ e.operation.payloadModel? = some model)
    (hm : config.models.exportOf? model = none) :
    .unclassifiedModel model (methodContext controller name e) ∈
      (makeMethod config controller name e).diagnostics := by
  unfold makeMethod
  rcases h with h | h
  · exact List.mem_append_left _ (List.mem_append_left _
      (mem_resultModel_diagnostics config _ h hm))
  · apply List.mem_append_right
    rw [if_pos (Operation.sendsBody_of_payloadModel? h)]
    exact mem_dataArgument_diagnostics config _ h hm

end Make

namespace ApiDocument

variable {doc : ApiDocument} {config : Config}

theorem exists_import_of_mem {c : String} {methods : Table Endpoint}
    (hc : (c, methods) ∈ (doc.group config).groups.controllers) {name : String} {e : Endpoint}
    (he : (name, e) ∈ methods) {module s t : String}
    (hs : (module, s) ∈ (makeMethod config c name e).imports)
    (ht : (module, t) ∈ (makeMethod config c name e).imports) :
    ∃ i ∈ (doc.file config).imports, s ∈ i.symbols ∧ t ∈ i.symbols := by
  obtain ⟨p, hp, hpm, hps⟩ := has_imports.2 ⟨c, methods, hc, name, e, he, hs⟩
  obtain ⟨q, hq, hqm, hqt⟩ := has_imports.2 ⟨c, methods, hc, name, e, he, ht⟩
  have hpq : p = q :=
    List.inj_on_of_nodup_map (Imports.nodup_modules_insertAll _) hp hq (hpm.trans hqm.symm)
  subst hpq
  exact ⟨⟨p.1, p.2⟩, List.mem_map.2 ⟨p, hp, rfl⟩, hps, hqt⟩

theorem mem_diagnostics_clientParts {d : Diagnostic} :
    d ∈ (doc.clientParts config).diagnostics ↔ d ∈ (doc.group config).diagnostics ∨
      ∃ c methods, (c, methods) ∈ (doc.group config).groups.controllers ∧
        ∃ name e, (name, e) ∈ methods ∧ d ∈ (makeMethod config c name e).diagnostics := by
  unfold clientParts
  simp only [Groups.makeControllers, List.flatMap_map, makeController_diagnostics, List.mem_append,
    List.mem_flatMap, Prod.exists]

theorem mem_diagnostics_of_mem {c : String} {methods : Table Endpoint}
    (hc : (c, methods) ∈ (doc.group config).groups.controllers) {name : String} {e : Endpoint}
    (he : (name, e) ∈ methods) {d : Diagnostic}
    (hd : d ∈ (makeMethod config c name e).diagnostics) :
    d ∈ (doc.clientParts config).diagnostics :=
  mem_diagnostics_clientParts.2 (.inr ⟨c, methods, hc, name, e, he, hd⟩)

end ApiDocument

/-- What a method hands on fits its parameters, and its guard checks the body with the validator
that is imported along with the model of the body. -/
structure Script.ArrowMethod.Closed (file : File) (m : ArrowMethod) : Prop where
  query : ∃ call, m.call? = some call ∧ (call.passQuery = true ↔ m.HasParam queryName)
  data : ∃ call, m.call? = some call ∧
    (call.passData = true ↔ m.HasParam dataName ∧ m.HasParam validateName)
  guard : ∀ g, m.guard? = some g →
    m.HasParam dataName ∧ m.HasParam validateName ∧
      g.flag = validateName ∧ g.payload = dataName ∧
      ∃ i ∈ file.imports, g.validator ∈ i.symbols ∧ ∃ model ∈ i.symbols, m.SendsData (.named model)

theorem ApiDocument.closed_of_mem_emitted {doc : ApiDocument} {config : Config}
    {p : ArrowMethod × Endpoint} (hp : p ∈ doc.emitted config) : p.1.Closed (doc.file config) := by
  obtain ⟨c, methods, hc, name, e, he, rfl⟩ := mem_emitted.1 hp
  set context := methodContext c name e
  refine ⟨?_, ?_, fun g hg => ?_⟩
  · rw [makeMethod_value]
    exact ⟨_, rfl, (hasParam_query_buildMethod _ _ _ _ _ _).symm⟩
  · rw [makeMethod_value]
    refine ⟨_, rfl, ?_⟩
    rw [hasParam_data_buildMethod, hasParam_validate_buildMethod, and_self]
  · obtain ⟨model, found, v, hm, hfound, hv, rfl⟩ := guard?_makeMethod.1 hg
    have hdata : (bodyArgument config context e.operation).isSome = true := by
      rw [bodyArgument_of_payloadModel? hm]
      rfl
    have hmodel : (found.module, model) ∈ (makeMethod config c name e).imports :=
      mem_imports_of_payloadModel? hm
        (List.mem_append_left _ (mem_modelImports.2 ⟨found, hfound, rfl⟩))
    have hvalidator : (found.module, v) ∈ (makeMethod config c name e).imports :=
      mem_imports_of_payloadModel? hm
        (List.mem_append_right _ (mem_validatorImports.2 ⟨found, v, hfound, hv, rfl⟩))
    obtain ⟨i, hi, hvi, hmi⟩ := exists_import_of_mem hc he hvalidator hmodel
    refine ⟨?_, ?_, rfl, rfl, i, hi, hvi, model, hmi, sendsData_makeMethod hm⟩
    · rw [makeMethod_value]
      exact (hasParam_data_buildMethod _ _ _ _ _ _).2 hdata
    · rw [makeMethod_value]
      exact (hasParam_validate_buildMethod _ _ _ _ _ _).2 hdata

theorem ApiDocument.imports_or_unclassified {doc : ApiDocument} {config : Config}
    {p : ArrowMethod × Endpoint} (hp : p ∈ doc.emitted config) {model : String}
    (h : p.2.operation.resultModel? = some model ∨ p.2.operation.payloadModel? = some model) :
    (doc.file config).Imports model ∨
      ∃ context, .unclassifiedModel model context ∈ (doc.clientParts config).diagnostics := by
  obtain ⟨c, methods, hc, name, e, he, rfl⟩ := mem_emitted.1 hp
  cases hm : config.models.exportOf? model with
  | none => exact .inr ⟨_, mem_diagnostics_of_mem hc he (unclassified_makeMethod h hm)⟩
  | some found =>
    have hmodel : (found.module, model) ∈ modelImports config model :=
      mem_modelImports.2 ⟨found, hm, rfl⟩
    have hmade : (found.module, model) ∈ (makeMethod config c name e).imports := by
      rcases h with h | h
      · exact mem_imports_of_resultModel? h hmodel
      · exact mem_imports_of_payloadModel? h (List.mem_append_left _ hmodel)
    obtain ⟨i, hi, hs, _⟩ := exists_import_of_mem hc he hmade hmade
    exact .inl ⟨i, hi, hs⟩

/-- The use a method makes of a symbol of a module: it types the result or the body, or it guards
a body that is typed by a model of the same module. -/
inductive Script.ArrowMethod.Uses (m : ArrowMethod) (config : Config) (module : String) :
    String → Prop
  | result {model : String} {found : ModelExport} (h : m.resultType? = some (.named model))
    (hm : config.models.exportOf? model = some found) (hf : found.module = module) :
    Uses m config module model
  | data {model : String} {found : ModelExport} (h : m.SendsData (.named model))
    (hm : config.models.exportOf? model = some found) (hf : found.module = module) :
    Uses m config module model
  | validator {model : String} {found : ModelExport} {g : Guard} (hg : m.guard? = some g)
    (h : m.SendsData (.named model)) (hm : config.models.exportOf? model = some found)
    (hf : found.module = module) : Uses m config module g.validator

theorem ApiDocument.exists_uses_of_import {doc : ApiDocument} {config : Config} {i : Import}
    (hi : i ∈ (doc.file config).imports) {s : String} (hs : s ∈ i.symbols) :
    ∃ p ∈ doc.emitted config, p.1.Uses config i.module s := by
  obtain ⟨q, hq, rfl⟩ := List.mem_map.1 hi
  obtain ⟨c, methods, hc, name, e, he, hmem⟩ := has_imports.1 ⟨q, hq, rfl, hs⟩
  refine ⟨_, mem_emitted.2 ⟨c, methods, hc, name, e, he, rfl⟩, ?_⟩
  rcases used_of_mem_imports hmem with ⟨found, hm, hf, h | h⟩ | ⟨model, found, h, hm, hf, hv⟩
  · exact .result (by rw [resultType?_makeMethod, h]; rfl) hm hf
  · exact .data (sendsData_makeMethod h) hm hf
  · exact .validator (guard?_makeMethod.2 ⟨model, found, s, h, hm, hv, rfl⟩)
      (sendsData_makeMethod h) hm hf

/-- Whenever a run makes a client, the methods of its client class, one for each operation that
was sorted, hand on what they take; a result or a body that refers to a model is typed by it;
each of these models is imported or reported, and each imported symbol is used. -/
theorem ApiDocument.references_closed {doc : ApiDocument} {config : Config}
    {client : GeneratedClient} (h : doc.generateClient config = .ok client) :
    ∃ declaration,
      client.code = (doc.file config).text ∧
      (doc.file config).class? config.clientName = some declaration ∧
      declaration.arrowMethods = (doc.emitted config).map Prod.fst ∧
      (∀ m ∈ declaration.arrowMethods, m.Closed (doc.file config)) ∧
      (∀ p ∈ doc.emitted config,
        p.1.resultType? = p.2.operation.resultModel?.map .named ∧
        (∀ model, p.2.operation.payloadModel? = some model → p.1.SendsData (.named model)) ∧
        ∀ model,
          p.2.operation.resultModel? = some model ∨ p.2.operation.payloadModel? = some model →
          (doc.file config).Imports model ∨
            ∃ context, .unclassifiedModel model context ∈ client.diagnostics) ∧
      (∀ i ∈ (doc.file config).imports, ∀ s ∈ i.symbols,
        ∃ m ∈ declaration.arrowMethods, m.Uses config i.module s) := by
  obtain ⟨hv, rfl⟩ := of_generateClient_eq_ok h
  have hmethods := doc.arrowMethods_clientParts config
  refine ⟨clientClass config (doc.clientParts config).controllers, rfl,
    doc.class?_file (Config.validate_eq_ok_iff.1 hv), hmethods, ?_, ?_, ?_⟩
  · intro m hm
    rw [hmethods] at hm
    obtain ⟨p, hp, rfl⟩ := List.mem_map.1 hm
    exact closed_of_mem_emitted hp
  · intro p hp
    refine ⟨?_, ?_, fun model hm => imports_or_unclassified hp hm⟩
    · obtain ⟨c, methods, _, name, e, _, rfl⟩ := mem_emitted.1 hp
      exact resultType?_makeMethod
    · intro model hm
      obtain ⟨c, methods, _, name, e, _, rfl⟩ := mem_emitted.1 hp
      exact sendsData_makeMethod hm
  · intro i hi s hs
    obtain ⟨p, hp, huses⟩ := exists_uses_of_import hi hs
    rw [hmethods]
    exact ⟨p.1, List.mem_map.2 ⟨p, hp, rfl⟩, huses⟩

theorem references_closed_hostileDocument :
    ∃ client declaration,
      hostileDocument.generateClient {} = .ok client ∧
      (hostileDocument.file {}).class? ({} : Config).clientName = some declaration ∧
      (∀ m ∈ declaration.arrowMethods, m.Closed (hostileDocument.file {})) ∧
      (∀ i ∈ (hostileDocument.file {}).imports, ∀ s ∈ i.symbols,
        ∃ m ∈ declaration.arrowMethods, m.Uses {} i.module s) := by
  have hrun : hostileDocument.generateClient {} = .ok (hostileDocument.client {}) :=
    hostileDocument.generateClient_eq Config.validate_default
  obtain ⟨declaration, _, hclass, _, hclosed, _, hused⟩ :=
    ApiDocument.references_closed hrun
  exact ⟨_, declaration, hrun, hclass, hclosed, hused⟩

end ClientGen
