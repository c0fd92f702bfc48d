import ClientGen.Proofs.Client.References
import ClientGen.Proofs.Model.Naming
/-! Which module a symbol is imported from. What a file imports follows from the models that the
accepted operations refer to; a symbol stands in two imports only where the validator of a model
has a name that another module exports as well. -/
namespace ClientGen

open Client Script

def Script.File.importedSymbols (f : File) : List String := f.imports.flatMap Import.symbols

def Operation.RefersTo (op : Operation) (model : String) : Prop :=
  op.resultModel? = some model ∨ op.payloadModel? = some model

theorem Client.mem_imports_makeMethod {config : Config} {controller name : String} {e : Endpoint}
    {m s : String} :
    (m, s) ∈ (makeMethod config controller name e).imports ↔
      (e.operation.RefersTo s ∧ config.models.Exports m s) ∨
        ∃ model, e.operation.payloadModel? = some model ∧ config.models.Validates m model s := by
  constructor
  · intro h
    rcases used_of_mem_imports h with ⟨found, hm, hf, h⟩ | ⟨model, found, h, hm, hf, hv⟩
    · exact .inl ⟨h, found, hm, hf⟩
    · exact .inr ⟨model, h, found, hm, hf, hv⟩
  · rintro (⟨h, found, hm, rfl⟩ | ⟨model, h, found, hm, rfl, hv⟩)
    · have hmodel : (found.module, s) ∈ modelImports config s :=
        mem_modelImports.2 ⟨found, hm, rfl⟩
      rcases h with h | h
      · exact mem_imports_of_resultModel? h hmodel
      · exact mem_imports_of_payloadModel? h (List.mem_append_left _ hmodel)
    · apply mem_imports_of_payloadModel? h
      exact List.mem_append_right _ (mem_validatorImports.2 ⟨found, s, hm, hv, rfl⟩)

namespace ApiDocument

variable (doc : ApiDocument) (config : Config)

/-- An accepted operation is typed by the model. -/
def Refers (model : String) : Prop :=
  ∃ e ∈ doc.accepted config.operationIdSeparator, e.operation.RefersTo model

/-- The body of an accepted operation is typed by the model. -/
def Sends (model : String) : Prop :=
  ∃ e ∈ doc.accepted config.operationIdSeparator, e.operation.payloadModel? = some model

variable {doc config}

theorem has_imports_iff {m s : String} :
    (doc.clientParts config).imports.Has m s ↔
      (doc.Refers config s ∧ config.models.Exports m s) ∨
        ∃ model, doc.Sends config model ∧ config.models.Validates m model s := by
  have hmethods : (doc.clientParts config).imports.Has m s ↔
      ∃ e ∈ doc.accepted config.operationIdSeparator,
        (e.operation.RefersTo s ∧ config.models.Exports m s) ∨
          ∃ model, e.operation.payloadModel? = some model ∧
            config.models.Validates m model s := by
    rw [has_imports]
    simp only [mem_imports_makeMethod]
    constructor
    · rintro ⟨c, methods, hc, name, e, he, h⟩
      exact ⟨e, mem_accepted_iff.2 ⟨c, methods, hc, name, he⟩, h⟩
    · rintro ⟨e, he, h⟩
      obtain ⟨c, methods, hc, name, he⟩ := mem_accepted_iff.1 he
      exact ⟨c, methods, hc, name, e, he, h⟩
  rw [hmethods]
  constructor
  · rintro ⟨e, he, ⟨h, hm⟩ | ⟨model, h, hv⟩⟩
    · exact .inl ⟨⟨e, he, h⟩, hm⟩
    · exact .inr ⟨model, ⟨e, he, h⟩, hv⟩
  · rintro (⟨⟨e, he, h⟩, hm⟩ | ⟨model, ⟨e, he, h⟩, hv⟩)
    · exact ⟨e, he, .inl ⟨h, hm⟩⟩
    · exact ⟨e, he, .inr ⟨model, h, hv⟩⟩

theorem importedSymbols_file (doc : ApiDocument) (config : Config) :
    (doc.file config).importedSymbols =
      (doc.clientParts config).imports.modules.flatMap Prod.snd := by
  rw [File.importedSymbols, imports_file, importDecls, List.flatMap_map]

theorem mem_importedSymbols_iff {s : String} :
    s ∈ (doc.file config).importedSymbols ↔ ∃ m, (doc.clientParts config).imports.Has m s := by
  rw [importedSymbols_file, List.mem_flatMap]
  constructor
  · rintro ⟨p, hp, hs⟩
    exact ⟨p.1, p, hp, rfl, hs⟩
  · rintro ⟨_, p, hp, _, hs⟩
    exact ⟨p, hp, hs⟩

/-- Two models are never in each other's way, so it all hangs on the validators. -/
theorem one_module_iff :
    (∀ m n s, (doc.clientParts config).imports.Has m s →
        (doc.clientParts config).imports.Has n s → m = n) ↔
      config.models.Unambiguous (doc.Refers config) (doc.Sends config) := by
  simp only [has_imports_iff]
  constructor
  · intro hone
    refine ⟨fun {m n model v} hs hv hr he => ?_, fun {m n model other v} hs hv hs' hv' => ?_⟩
    · exact hone m n v (.inr ⟨model, hs, hv⟩) (.inl ⟨hr, he⟩)
    · exact hone m n v (.inr ⟨model, hs, hv⟩) (.inr ⟨other, hs', hv'⟩)
  · rintro hunambiguous m n s (⟨hr, hm⟩ | ⟨model, hs, hv⟩) (⟨hr', hn⟩ | ⟨other, hs', hv'⟩)
    · exact hm.unique hn
    · exact (hunambiguous.model hs' hv' hr hm).symm
    · exact hunambiguous.model hs hv hr' hn
    · exact hunambiguous.validator hs hv hs' hv'

theorem nodup_importedSymbols_iff_one_module :
    (doc.file config).importedSymbols.Nodup ↔
      ∀ m n s, (doc.clientParts config).imports.Has m s →
        (doc.clientParts config).imports.Has n s → m = n := by
  rw [importedSymbols_file]
  exact (Imports.Increasing.empty.insertAll _).nodup_flatMap_symbols_iff

variable (doc config)

/-- No symbol is imported twice, within one import or from two modules, exactly where the
validators of the bodies are unambiguous among the models of the document. -/
theorem nodup_importedSymbols_iff :
    (doc.file config).importedSymbols.Nodup ↔
      config.models.Unambiguous (doc.Refers config) (doc.Sends config) :=
  nodup_importedSymbols_iff_one_module.trans one_module_iff

theorem nodup_importedSymbols_of_once
    (hmodel : ∀ m model v, doc.Sends config model → config.models.Validates m model v →
      ¬ config.models.valueObjectSuffix.toList <:+: v.toList)
    (honce : ∀ m model v, doc.Sends config model → config.models.Validates m model v →
      ∀ entity rest entity' rest',
        v.toList = entity ++ config.models.validatorSuffix.toList ++ rest →
        v.toList = entity' ++ config.models.validatorSuffix.toList ++ rest' → entity = entity') :
    (doc.file config).importedSymbols.Nodup :=
  nodup_importedSymbols_iff_one_module.2
    (one_module_iff.2 (Convention.unambiguous_of_once hmodel honce))

end ApiDocument

/-- The validator of the body bears the name of the model of the result. -/
def nestedNamesDocument : ApiDocument where
  paths := [("/lines", {
    operations := [(.post, {
      operationId := some "lines_add"
      requestBody := some {
        content := [("application/json", {
          schema := some { reference := some "#/components/schemas/OrderDtoLineDto" } })] }
      responses := [("default", {
        content := [("application/json", {
          schema := some { reference := some "#/components/schemas/OrderDtoLineZod" } })] })] })] })]

theorem importedSymbols_nestedNamesDocument :
    ({} : Config).validate = .ok () ∧
      (nestedNamesDocument.file {}).imports =
        [⟨"./zod", ["OrderDtoLineDto", "OrderDtoLineZod"]⟩,
          ⟨"./zodExt/Order", ["OrderDtoLineZod"]⟩] ∧
      ¬ (nestedNamesDocument.file {}).importedSymbols.Nodup := by
  have himports : (nestedNamesDocument.file {}).imports =
      [⟨"./zod", ["OrderDtoLineDto", "OrderDtoLineZod"]⟩,
        ⟨"./zodExt/Order", ["OrderDtoLineZod"]⟩] := by
    decide +kernel
  refine ⟨rfl, himports, ?_⟩
  rw [File.importedSymbols, himports]
  decide

end ClientGen
