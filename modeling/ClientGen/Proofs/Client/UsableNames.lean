import ClientGen.Proofs.Client.Degradation
import ClientGen.Proofs.Client.TopLevel
import ClientGen.Proofs.Text.Name
/-! The names that stand on their own in a generated file, outside the members of objects and
classes. All of them are identifiers, as the settings are checked and references are read for that.
Which of them are reserved words is decided by the settings and the document; nothing checks it. -/
namespace ClientGen

open Client Script
open Text (isIdentifier startsIdentifier continuesIdentifier)

namespace Script

/-- The words that no name can be in the code of a module. -/
def reservedWords : List String := [
  "await", "break", "case", "catch", "class", "const", "continue", "debugger", "default", "delete",
  "do", "else", "enum", "export", "extends", "false", "finally", "for", "function", "if", "import",
  "in", "instanceof", "new", "null", "return", "super", "switch", "this", "throw", "true", "try",
  "typeof", "var", "void", "while", "with", "yield",
  -- Modules are strict, which adds these.
  "implements", "interface", "let", "package", "private", "protected", "public", "static"]

theorem isIdentifier_of_mem_reservedWords :
    ∀ word ∈ reservedWords, isIdentifier word = true := by decide +kernel

namespace File

def arrowMethods (f : File) : List ArrowMethod := f.classes.flatMap ClassDeclaration.arrowMethods

/-- The name stands on its own: it is declared or imported, or a class extends it, or some method
has it as an argument, a type or the validator of its guard. -/
inductive BareName (f : File) : String → Prop
  | declared {name : String} (h : name ∈ f.declaredNames) : BareName f name
  | base {c : ClassDeclaration} {name : String} (hc : c ∈ f.classes) (h : c.base = some name) :
    BareName f name
  | imported {name : String} (h : name ∈ f.importedSymbols) : BareName f name
  | argument {m : ArrowMethod} {name : String} (hm : m ∈ f.arrowMethods) (h : m.HasParam name) :
    BareName f name
  | result {m : ArrowMethod} {name : String} (hm : m ∈ f.arrowMethods)
    (h : m.resultType? = some (.named name)) : BareName f name
  | data {m : ArrowMethod} {name : String} (hm : m ∈ f.arrowMethods)
    (h : m.SendsData (.named name)) : BareName f name
  | validator {m : ArrowMethod} {g : Guard} (hm : m ∈ f.arrowMethods) (h : m.guard? = some g) :
    BareName f g.validator

end File

end Script

theorem Convention.Validates.isIdentifier {c : Convention} {module model v : String}
    (hc : c.validatorSuffix.isEmpty = true ∨ isIdentifier c.validatorSuffix = true)
    (hm : isIdentifier model = true) (h : c.Validates module model v) : isIdentifier v = true := by
  obtain ⟨hsuffix, entity, rest, hparts⟩ := h.parts
  obtain ⟨found, hfound, _, hv⟩ := h
  have hchars := continuesIdentifier_of_exportOf? hc hm hfound hv
  obtain ⟨d, ds, hstart, hd⟩ : ∃ d ds, v.toList = d :: ds ∧ startsIdentifier d = true := by
    cases entity with
    | nil =>
      -- a model that begins with its suffix: the validator begins with that of validators
      have hsuffixId := hc.resolve_left (by simp [hsuffix])
      obtain ⟨d, ds, hlist, hd⟩ := Text.exists_start_of_isIdentifier hsuffixId
      exact ⟨d, ds ++ rest, by rw [hparts.validator, hlist]; rfl, hd⟩
    | cons e es =>
      obtain ⟨d, ds, hlist, hd⟩ := Text.exists_start_of_isIdentifier hm
      rw [hparts.model] at hlist
      obtain ⟨rfl, _⟩ := List.cons.inj hlist
      exact ⟨e, es ++ c.validatorSuffix.toList ++ rest, by rw [hparts.validator]; rfl, hd⟩
  rw [hstart] at hchars
  exact Text.isIdentifier_of_start hstart hd fun x hx => hchars x (List.mem_cons_of_mem d hx)

namespace ApiDocument

variable {doc : ApiDocument} {config : Config}

/-- The name is that of a model an accepted operation refers to, or of the validator of one that is
sent. -/
def Mentions (doc : ApiDocument) (config : Config) (name : String) : Prop :=
  doc.Refers config name ∨
    ∃ module model, doc.Sends config model ∧ config.models.Validates module model name

theorem isIdentifier_of_mentions (hc : config.Accepted) {name : String}
    (h : doc.Mentions config name) : isIdentifier name = true := by
  rcases h with h | ⟨module, model, hs, hv⟩
  · exact isIdentifier_of_refers h
  · exact hv.isIdentifier hc.validatorSuffix (isIdentifier_of_refers hs.refers)

theorem arrowMethods_file (doc : ApiDocument) (config : Config) :
    (doc.file config).arrowMethods = (doc.emitted config).map Prod.fst := by
  rw [← arrowMethods_clientParts, File.arrowMethods, classes_file, List.flatMap_cons,
    List.flatMap_singleton]
  rfl

theorem exists_of_mem_arrowMethods {m : ArrowMethod} (hm : m ∈ (doc.file config).arrowMethods) :
    ∃ e ∈ doc.accepted config.operationIdSeparator, ∃ c name,
      m = (makeMethod config c name e).value := by
  rw [arrowMethods_file] at hm
  obtain ⟨p, hp, rfl⟩ := List.mem_map.1 hm
  obtain ⟨c, methods, hc, name, e, he, rfl⟩ := mem_emitted.1 hp
  exact ⟨e, mem_accepted_iff.2 ⟨c, methods, hc, name, he⟩, c, name, rfl⟩

theorem exists_mem_arrowMethods {e : Endpoint}
    (he : e ∈ doc.accepted config.operationIdSeparator) :
    ∃ c name, (makeMethod config c name e).value ∈ (doc.file config).arrowMethods := by
  obtain ⟨c, methods, hc, name, he⟩ := mem_accepted_iff.1 he
  refine ⟨c, name, ?_⟩
  rw [arrowMethods_file]
  exact List.mem_map.2 ⟨_, mem_emitted.2 ⟨c, methods, hc, name, e, he, rfl⟩, rfl⟩

def ownNames : List String := fixedNames ++ [queryName, dataName, validateName, "any"]

theorem usable_of_mem_ownNames :
    ∀ name ∈ ownNames, isIdentifier name = true ∧ name ∉ reservedWords := by decide +kernel

theorem bareName_clientName : (doc.file config).BareName config.clientName := by
  refine .declared ?_
  rw [declaredNames_file]
  exact List.mem_append_right _ (by simp)

theorem bareName_baseClassName : (doc.file config).BareName config.baseClassName := by
  refine .declared ?_
  rw [declaredNames_file]
  exact List.mem_append_right _ (by simp)

theorem bareName_of_mentions {name : String} (h : doc.Mentions config name) :
    (doc.file config).BareName name := by
  rcases h with ⟨e, he, hr | hp⟩ | ⟨module, model, ⟨e, he, hp⟩, hv⟩
  · obtain ⟨c, key, hm⟩ := exists_mem_arrowMethods he
    exact .result hm (by rw [resultType?_makeMethod, hr]; rfl)
  · obtain ⟨c, key, hm⟩ := exists_mem_arrowMethods he
    exact .data hm (sendsData_makeMethod hp)
  · obtain ⟨c, key, hm⟩ := exists_mem_arrowMethods he
    obtain ⟨found, hfound, _, hv⟩ := hv
    exact .validator hm (guard?_makeMethod.2 ⟨model, found, name, hp, hfound, hv, rfl⟩)

theorem mentions_of_brings {name : String}
    (h : config.models.Brings (doc.Refers config) (doc.Sends config) name) :
    doc.Mentions config name := by
  obtain ⟨module, ⟨hrefers, _⟩ | ⟨model, hsends, hvalidates⟩⟩ := h
  · exact .inl hrefers
  · exact .inr ⟨module, model, hsends, hvalidates⟩

theorem cases_of_bareName {name : String} (h : (doc.file config).BareName name) :
    name ∈ [config.baseClassName, config.clientName] ∨ doc.Mentions config name ∨
      name ∈ ownNames := by
  cases h with
  | declared h =>
    rw [declaredNames_file] at h
    rcases List.mem_append.1 h with hfixed | hclass
    · exact .inr (.inr (List.mem_append_left _ hfixed))
    · exact .inl hclass
  | base hc h =>
    rw [classes_file] at hc
    rcases List.mem_pair.1 hc with rfl | rfl
    · cases h
    · cases h
      exact .inl List.mem_cons_self
  | imported h => exact .inr (.inl (mentions_of_brings (mem_importedSymbols_iff_brings.1 h)))
  | argument hm h =>
    obtain ⟨e, _, c, key, rfl⟩ := exists_of_mem_arrowMethods hm
    have hown : ∀ names ∈ [[], [queryName], [dataName, validateName],
        [queryName, dataName, validateName]], ∀ n ∈ names, n ∈ ownNames := by
      decide
    rw [ArrowMethod.hasParam_iff, makeMethod_value] at h
    exact .inr (.inr (hown _ (names_buildMethod _ _ _ _ _ _) _ h))
  | result hm h =>
    obtain ⟨e, he, c, key, rfl⟩ := exists_of_mem_arrowMethods hm
    obtain ⟨model, hname, hresult⟩ := resultType?_makeMethod_iff.1 h
    cases hname
    have hrefers : e.operation.RefersTo name := .inl (Operation.resultModel?_eq_some_iff.2 hresult)
    exact .inr (.inl (.inl ⟨e, he, hrefers⟩))
  | data hm h =>
    obtain ⟨e, he, c, key, rfl⟩ := exists_of_mem_arrowMethods hm
    obtain ⟨-, ⟨model, hname, hpayload⟩ | ⟨hany, -⟩⟩ := sendsData_makeMethod_iff.1 h
    · cases hname
      have hrefers : e.operation.RefersTo name :=
        .inr (Operation.payloadModel?_eq_some_iff.2 hpayload)
      exact .inr (.inl (.inl ⟨e, he, hrefers⟩))
    · cases hany
      exact .inr (.inr (by decide))
  | validator hm h =>
    obtain ⟨e, he, c, key, rfl⟩ := exists_of_mem_arrowMethods hm
    obtain ⟨model, found, v, hpayload, hfound, hv, rfl⟩ := guard?_makeMethod.1 h
    have hvalidates : config.models.Validates found.module model v := ⟨found, hfound, rfl, hv⟩
    exact .inr (.inl (.inr ⟨_, model, ⟨e, he, hpayload⟩, hvalidates⟩))

/-- Each name that stands on its own is an identifier. None of a document's file is a reserved word
exactly where neither class is named like one, nor a model or a validator that the document
mentions; and no settings keep all documents from mentioning one. -/
theorem bareNames_usable_iff (h : config.validate = .ok ()) :
    (∀ (doc : ApiDocument) (name : String), (doc.file config).BareName name →
      isIdentifier name = true) ∧
    (∀ doc : ApiDocument,
      (∀ name, (doc.file config).BareName name → name ∉ reservedWords) ↔
        config.clientName ∉ reservedWords ∧ config.baseClassName ∉ reservedWords ∧
          ∀ name, doc.Mentions config name → name ∉ reservedWords) ∧
    ∀ word ∈ reservedWords, ∃ doc : ApiDocument, (doc.file config).BareName word := by
  have hc := Config.validate_eq_ok_iff.1 h
  refine ⟨fun doc name hname => ?_, fun doc => ⟨fun hall => ?_, ?_⟩, fun word hword => ?_⟩
  · rcases cases_of_bareName hname with hclass | hmentions | hown
    · rcases List.mem_pair.1 hclass with rfl | rfl
      · exact hc.baseClassName
      · exact hc.clientName
    · exact isIdentifier_of_mentions hc hmentions
    · exact (usable_of_mem_ownNames name hown).1
  · exact ⟨hall _ bareName_clientName, hall _ bareName_baseClassName,
      fun name hmentions => hall name (bareName_of_mentions hmentions)⟩
  · rintro ⟨hclient, hbase, hmentioned⟩ name hname
    rcases cases_of_bareName hname with hclass | hmentions | hown
    · rcases List.mem_pair.1 hclass with rfl | rfl
      · exact hbase
      · exact hclient
    · exact hmentioned name hmentions
    · exact (usable_of_mem_ownNames name hown).2
  · obtain ⟨c, hl, hletter⟩ := exists_letter config.operationIdSeparator.toList
    have hsends := sends_sendingDocument hc.separator_ne hl hletter
      (isIdentifier_of_mem_reservedWords word hword)
    exact ⟨_, bareName_of_mentions (.inl hsends.refers)⟩

end ApiDocument

/-- What the default settings make of an ordinary model is usable. -/
theorem bareNames_usable_orders :
    ({} : Config).validate = .ok () ∧
      ∀ name, ((sendingDocument "_" 'a' "OrderDto").file {}).BareName name →
        isIdentifier name = true ∧ name ∉ reservedWords := by
  obtain ⟨hidentifiers, hreserved, _⟩ :=
    ApiDocument.bareNames_usable_iff Config.validate_default
  have hmodel : Model.ofReference ("/" ++ "OrderDto") = some "OrderDto" :=
    Model.ofReference_slash (by decide)
  have hpayload : ∀ e ∈ (sendingDocument "_" 'a' "OrderDto").accepted "_",
      e.operation.resultModel? = none ∧ e.operation.payloadModel? = some "OrderDto" := by
    intro e he
    rw [List.mem_singleton.1 (List.mem_of_mem_filter he)]
    exact ⟨rfl, hmodel⟩
  have hmentions : ∀ name, (sendingDocument "_" 'a' "OrderDto").Mentions {} name →
      name ∉ reservedWords := by
    rintro name (⟨e, he, hr | hp⟩ | ⟨module, model, ⟨e, he, hp⟩, found, hfound, -, hv⟩)
    · rw [(hpayload e he).1] at hr
      cases hr
    · rw [(hpayload e he).2] at hp
      cases hp
      decide
    · rw [(hpayload e he).2] at hp
      cases hp
      have hfound' : ({} : Convention).exportOf? "OrderDto" =
          some ⟨"OrderDto", "./zod", some "OrderZod"⟩ := by
        decide +kernel
      rw [hfound'] at hfound
      cases hfound
      cases hv
      decide
  refine ⟨Config.validate_default, fun name hname => ⟨hidentifiers _ name hname, ?_⟩⟩
  exact (hreserved _).2 ⟨by decide, by decide, hmentions⟩ name hname

def classConfig : Config := { clientName := "class" }

/-- Accepted settings can name the client class `class`, and under the default ones the body of a
method can be of a type of that name. -/
theorem bareName_class :
    classConfig.validate = .ok () ∧ "class" ∈ reservedWords ∧
      (({} : ApiDocument).file classConfig).BareName "class" ∧
      ((sendingDocument "_" 'a' "class").file {}).BareName "class" := by
  refine ⟨rfl, by decide, ApiDocument.bareName_clientName, ?_⟩
  have hsends : (sendingDocument "_" 'a' "class").Sends {} "class" :=
    @sends_sendingDocument {} (by decide) 'a' (by decide) (by decide) "class" (by decide)
  exact ApiDocument.bareName_of_mentions (.inl hsends.refers)

end ClientGen
