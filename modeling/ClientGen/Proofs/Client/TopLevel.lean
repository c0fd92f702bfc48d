import ClientGen.Proofs.Client.ImportedSymbols
import ClientGen.Proofs.Endpoint.Ids
/-! The names at the top level of a generated file: those it declares and those it imports. The
check of a configuration compares the two classes with each other only; what keeps all names
apart is told here, for all documents at once. -/
namespace ClientGen

open Client Script

def Script.File.declaredNames (f : File) : List String :=
  f.interfaces.map Interface.name ++ f.functions.map Function.name
    ++ f.classes.map ClassDeclaration.name

/-- Nothing is declared twice, and nothing is both declared and imported. -/
structure Script.File.NamesApart (f : File) : Prop where
  declared : f.declaredNames.Nodup
  imported : ∀ s ∈ f.importedSymbols, s ∉ f.declaredNames

def Client.fixedNames : List String :=
  fixedInterfaces.map Interface.name ++ fixedFunctions.map Function.name

def Config.declaredNames (c : Config) : List String :=
  fixedNames ++ [c.baseClassName, c.clientName]

theorem ApiDocument.declaredNames_file (doc : ApiDocument) (config : Config) :
    (doc.file config).declaredNames = config.declaredNames := rfl

/-- The classes are named like no fixed declaration, and no model that is referred to, or validator
of one that is sent, is named like a declaration. -/
structure Config.NamesApart (c : Config) (refers sends : String → Prop) : Prop where
  baseClassName : c.baseClassName ∉ fixedNames
  clientName : c.clientName ∉ fixedNames
  imported : ∀ name ∈ c.declaredNames, ¬ c.models.Brings refers sends name

theorem Config.nodup_declaredNames_iff {c : Config} (h : c.clientName ≠ c.baseClassName) :
    c.declaredNames.Nodup ↔ c.baseClassName ∉ fixedNames ∧ c.clientName ∉ fixedNames := by
  have hfixed : fixedNames.Nodup := by decide
  have hclasses : [c.baseClassName, c.clientName].Nodup := by simpa using Ne.symm h
  rw [declaredNames, List.nodup_append']
  simp [hfixed, hclasses]

def sendingDocument (separator : String) (controller : Char) (model : String) : ApiDocument where
  paths := [("/", {
    operations := [(.post, {
      operationId := some (idOfAll separator [controller])
      requestBody := some {
        content := [(jsonContentType, {
          schema := some { reference := some ("/" ++ model) } })] } })] })]

theorem sends_sendingDocument {config : Config} (hsep : config.operationIdSeparator ≠ "") {c : Char}
    (hl : c ∈ ['a', 'b', 'c']) (hc : c ∉ config.operationIdSeparator.toList.take 2)
    {model : String} (hm : Text.isIdentifier model = true) :
    (sendingDocument config.operationIdSeparator c model).Sends config model := by
  have hmem : ∀ e ∈ (sendingDocument config.operationIdSeparator c model).endpoints,
      e.operation.operationId = some (idOfAll config.operationIdSeparator [c]) ∧
        e.operation.payloadModel? = Model.ofReference ("/" ++ model) := by
    intro e he
    rw [List.mem_singleton.1 he]
    exact ⟨rfl, rfl⟩
  obtain ⟨e, he⟩ : ∃ e, e ∈ (sendingDocument config.operationIdSeparator c model).endpoints :=
    ⟨_, List.mem_cons_self⟩
  obtain ⟨hid, hpayload⟩ := hmem e he
  refine ⟨e, List.mem_filter.2 ⟨he, ?_⟩, ?_⟩
  · rw [Endpoint.controller?, Operation.names?_letter hsep hl hc hid]
    rfl
  · rw [hpayload, Model.ofReference_slash hm]

namespace ApiDocument

variable {doc : ApiDocument} {config : Config}

theorem isIdentifier_of_refers {model : String} (h : doc.Refers config model) :
    Text.isIdentifier model = true := by
  obtain ⟨e, _, hr | hr⟩ := h
  · exact Operation.isIdentifier_of_resultModel? hr
  · exact Operation.isIdentifier_of_payloadModel? hr

theorem Sends.refers {model : String} (h : doc.Sends config model) : doc.Refers config model := by
  obtain ⟨e, he, hs⟩ := h
  exact ⟨e, he, .inr hs⟩

theorem mem_importedSymbols_iff_brings {name : String} :
    name ∈ (doc.file config).importedSymbols ↔
      config.models.Brings (doc.Refers config) (doc.Sends config) name := by
  rw [mem_importedSymbols_iff]
  exact exists_congr fun _ => has_imports_iff

/-- A name is brought in by some document where it is by models of any name at all. -/
theorem exists_brings_iff (hsep : config.operationIdSeparator ≠ "") {name : String} :
    (∃ doc : ApiDocument, config.models.Brings (doc.Refers config) (doc.Sends config) name) ↔
      config.models.Brings (Text.isIdentifier ·) (Text.isIdentifier ·) name := by
  constructor
  · rintro ⟨doc, hbrings⟩
    apply hbrings.imp
    · exact fun model hr => isIdentifier_of_refers hr
    · exact fun model hs => isIdentifier_of_refers hs.refers
  · obtain ⟨c, hl, hc⟩ := exists_letter config.operationIdSeparator.toList
    have hsends : ∀ {model : String}, Text.isIdentifier model = true →
        (sendingDocument config.operationIdSeparator c model).Sends config model :=
      fun hm => sends_sendingDocument hsep hl hc hm
    rintro ⟨module, ⟨hname, he⟩ | ⟨model, hm, hv⟩⟩
    · exact ⟨_, module, .inl ⟨(hsends hname).refers, he⟩⟩
    · exact ⟨_, module, .inr ⟨model, hsends hm, hv⟩⟩

theorem namesApart_file_iff (doc : ApiDocument) (h : config.clientName ≠ config.baseClassName) :
    (doc.file config).NamesApart ↔ config.NamesApart (doc.Refers config) (doc.Sends config) := by
  have hdeclared : (doc.file config).declaredNames.Nodup ↔
      config.baseClassName ∉ fixedNames ∧ config.clientName ∉ fixedNames := by
    rw [declaredNames_file, Config.nodup_declaredNames_iff h]
  constructor
  · intro hfile
    obtain ⟨hbase, hclient⟩ := hdeclared.1 hfile.declared
    refine ⟨hbase, hclient, fun name hname hbrings => ?_⟩
    exact hfile.imported name (mem_importedSymbols_iff_brings.2 hbrings) hname
  · intro hconfig
    refine ⟨hdeclared.2 ⟨hconfig.baseClassName, hconfig.clientName⟩, fun name himported hname => ?_⟩
    exact hconfig.imported name hname (mem_importedSymbols_iff_brings.1 himported)

/-- A file keeps its names apart exactly where the settings do for the models of its document, and
all files made under the settings do exactly where these do for whatever a model can be named. -/
theorem namesApart_iff (h : config.validate = .ok ()) :
    (∀ doc : ApiDocument, (doc.file config).NamesApart ↔
      config.NamesApart (doc.Refers config) (doc.Sends config)) ∧
    ((∀ doc : ApiDocument, (doc.file config).NamesApart) ↔
      config.NamesApart (Text.isIdentifier ·) (Text.isIdentifier ·)) := by
  have hc := Config.validate_eq_ok_iff.1 h
  have hfile := fun doc : ApiDocument => doc.namesApart_file_iff hc.clientName_ne
  refine ⟨hfile, fun hall => ?_, fun hconfig doc => ?_⟩
  · have hempty := (hfile {}).1 (hall {})
    refine ⟨hempty.baseClassName, hempty.clientName, fun name hname hbrings => ?_⟩
    obtain ⟨doc, hbrings⟩ := (exists_brings_iff hc.separator_ne).2 hbrings
    exact ((hfile doc).1 (hall doc)).imported name hname hbrings
  · apply (hfile doc).2
    refine ⟨hconfig.baseClassName, hconfig.clientName, fun name hname hbrings => ?_⟩
    exact hconfig.imported name hname ((exists_brings_iff hc.separator_ne).1 ⟨doc, hbrings⟩)

end ApiDocument

/-- The default settings keep all names apart. -/
theorem namesApart_default :
    ({} : Config).validate = .ok () ∧ ∀ doc : ApiDocument, (doc.file {}).NamesApart := by
  refine ⟨rfl, (ApiDocument.namesApart_iff Config.validate_default).2.2 ⟨?_, ?_, ?_⟩⟩
  · decide
  · decide
  · have hsuffixes : ∀ name ∈ ({} : Config).declaredNames,
        ¬ ({} : Convention).valueObjectSuffix.toList <:+: name.toList ∧
          ¬ ({} : Convention).validatorSuffix.toList <:+: name.toList := by
      decide +kernel
    intro name hname
    obtain ⟨hmodel, hvalidator⟩ := hsuffixes name hname
    exact Convention.not_brings hmodel (.inr hvalidator)

def fetchConfig : Config := { clientName := "_fetch_" }

def modelConfig : Config := { clientName := "ShopDto" }

/-- Accepted settings can name the client class like a shared function, and like a model that the
document refers to. -/
theorem not_namesApart_fetchConfig :
    fetchConfig.validate = .ok () ∧ modelConfig.validate = .ok () ∧
      ¬ (({} : ApiDocument).file fetchConfig).NamesApart ∧
      ¬ ((sendingDocument "_" 'a' "ShopDto").file modelConfig).NamesApart := by
  refine ⟨rfl, rfl, fun h => ?_, fun h => ?_⟩
  · have hnodup := h.declared
    rw [ApiDocument.declaredNames_file] at hnodup
    revert hnodup
    decide
  · have himported : "ShopDto" ∈
        ((sendingDocument "_" 'a' "ShopDto").file modelConfig).importedSymbols := by
      decide +kernel
    exact h.imported _ himported (by decide +kernel)

end ClientGen
