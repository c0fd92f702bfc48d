import ClientGen.Proofs.Client.MethodReading
import ClientGen.Proofs.Endpoint.Sorting
/-! The bracket check accepts every generated file, so a run under an accepted configuration
makes a client, or fails for the id of an operation where it is told to be strict. Free texts of a
document end up in comments only: two documents that differ in nothing else give the same code. -/
namespace ClientGen

open Client Script

theorem Client.mem_modelImports {config : Config} {model : String} {p : String × String} :
    p ∈ modelImports config model ↔
      ∃ found, config.models.exportOf? model = some found ∧ p = (found.module, model) := by
  unfold modelImports
  simp only [List.mem_map, Option.mem_toList]
  constructor
  · rintro ⟨found, hfound, rfl⟩
    exact ⟨found, hfound, by rw [Convention.model_of_exportOf? hfound]⟩
  · rintro ⟨found, hfound, rfl⟩
    exact ⟨found, hfound, by rw [Convention.model_of_exportOf? hfound]⟩

theorem Client.mem_validatorImports {config : Config} {model : String} {p : String × String} :
    p ∈ validatorImports config model ↔
      ∃ found v, config.models.exportOf? model = some found ∧ found.validator = some v ∧
        p = (found.module, v) := by
  unfold validatorImports
  simp only [List.mem_flatMap, List.mem_map, Option.mem_toList]
  constructor
  · rintro ⟨found, hfound, v, hv, rfl⟩
    exact ⟨found, v, hfound, hv, rfl⟩
  · rintro ⟨found, v, hfound, hv, rfl⟩
    exact ⟨found, hfound, v, hv, rfl⟩

theorem Client.continuesIdentifier_of_mem_imports {config : Config} (hc : config.Accepted)
    {controller name : String} {e : Endpoint} {p : String × String}
    (hp : p ∈ (makeMethod config controller name e).imports) :
    ∀ c ∈ p.2.toList, Text.continuesIdentifier c = true := by
  have hmodel {model : String} (hm : Text.isIdentifier model = true)
      (hp : p ∈ modelImports config model) :
      ∀ c ∈ p.2.toList, Text.continuesIdentifier c = true := by
    obtain ⟨_, _, rfl⟩ := mem_modelImports.1 hp
    exact Text.continuesIdentifier_of_isIdentifier hm
  rw [makeMethod_imports, List.mem_append] at hp
  rcases hp with hp | hp
  · obtain ⟨model, hm, hp⟩ := List.mem_flatMap.1 hp
    exact hmodel (Operation.isIdentifier_of_resultModel? (Option.mem_toList.1 hm)) hp
  · split at hp
    · obtain ⟨model, hm, hp⟩ := List.mem_flatMap.1 hp
      have hid := Operation.isIdentifier_of_payloadModel? (Option.mem_toList.1 hm)
      rcases List.mem_append.1 hp with hp | hp
      · exact hmodel hid hp
      · obtain ⟨found, v, hfound, hv, rfl⟩ := mem_validatorImports.1 hp
        exact Convention.continuesIdentifier_of_exportOf? hc.validatorSuffix hid hfound hv
    · cases hp

namespace ApiDocument

theorem has_imports {doc : ApiDocument} {config : Config} {m s : String} :
    (doc.clientParts config).imports.Has m s ↔
      ∃ c methods, (c, methods) ∈ (doc.group config).groups.controllers ∧
        ∃ name e, (name, e) ∈ methods ∧ (m, s) ∈ (makeMethod config c name e).imports := by
  unfold clientParts
  rw [Imports.has_insertAll_empty]
  simp only [Groups.makeControllers, List.flatMap_map, makeController_imports, List.mem_flatMap]
  constructor
  · rintro ⟨⟨c, methods⟩, hc, ⟨name, e⟩, he, hp⟩
    exact ⟨c, methods, hc, name, e, he, hp⟩
  · rintro ⟨c, methods, hc, name, e, he, hp⟩
    exact ⟨(c, methods), hc, (name, e), he, hp⟩

theorem continuesIdentifier_of_mem_importDecls (doc : ApiDocument) {config : Config}
    (hc : config.Accepted) {i : Import} (hi : i ∈ importDecls (doc.clientParts config).imports)
    {s : String} (hs : s ∈ i.symbols) : ∀ c ∈ s.toList, Text.continuesIdentifier c = true := by
  obtain ⟨p, hp, rfl⟩ := List.mem_map.1 hi
  obtain ⟨_, _, _, _, _, _, hmem⟩ := has_imports.1 ⟨p, hp, rfl, hs⟩
  exact continuesIdentifier_of_mem_imports hc hmem

theorem sound_importDecls (doc : ApiDocument) {config : Config} (hc : config.Accepted) :
    ∀ i ∈ importDecls (doc.clientParts config).imports, i.Sound :=
  fun _ hi _ hs =>
    .of_continuesIdentifier (doc.continuesIdentifier_of_mem_importDecls hc hi hs)

theorem alike_controllers {d e : ApiDocument} {config : Config} (hc : config.Accepted)
    (h : d.withoutTexts = e.withoutTexts) :
    List.Forall₂ Controller.Alike (d.clientParts config).controllers
      (e.clientParts config).controllers := by
  have hgroups : (d.group config).groups.withoutTexts = (e.group config).groups.withoutTexts := by
    have hboth := congrArg (fun k => (group k config).groups) h
    simp only [group_withoutTexts] at hboth
    exact hboth
  have hpairs := forall₂_of_map_eq (congrArg Groups.controllers hgroups)
  have hnames : ∀ p ∈ (d.group config).groups.controllers, Ordinary p.1 :=
    fun _ hp => .of_isIdentifier (isIdentifier_of_mem_group hp)
  simp only [clientParts, Groups.makeControllers, List.map_map]
  apply List.rel_map _ ((List.forall₂_and_left _ _).2 ⟨hnames, hpairs⟩)
  rintro ⟨c, ms⟩ ⟨c', ns⟩ ⟨hname, hpq⟩
  obtain ⟨hc', hms⟩ := Prod.mk.inj hpq
  dsimp only at hc' hms
  subst hc'
  exact alike_makeController hc hname hms

theorem imports_file (doc : ApiDocument) (config : Config) :
    (doc.file config).imports = importDecls (doc.clientParts config).imports := rfl

theorem classes_file (doc : ApiDocument) (config : Config) :
    (doc.file config).classes =
      [baseClass config.baseClassName,
        clientClass config (doc.clientParts config).controllers] := rfl

theorem class?_file (doc : ApiDocument) {config : Config} (hc : config.Accepted) :
    (doc.file config).class? config.clientName =
      some (clientClass config (doc.clientParts config).controllers) := by
  have hbase : ((baseClass config.baseClassName).name == config.clientName) = false :=
    beq_false_of_ne hc.clientName_ne.symm
  have hclient : ((clientClass config (doc.clientParts config).controllers).name ==
      config.clientName) = true := beq_self_eq_true _
  rw [File.class?, classes_file]
  simp [hbase, hclient]

theorem alike_file {d e : ApiDocument} {config : Config} (hc : config.Accepted)
    (h : d.withoutTexts = e.withoutTexts) : (d.file config).Alike (e.file config) where
  imports := by
    have himports : (d.clientParts config).imports = (e.clientParts config).imports := by
      rw [← clientParts_imports_withoutTexts, h, clientParts_imports_withoutTexts]
    exact congrArg importDecls himports
  interfaces := rfl
  functions := rfl
  classes := .cons (alike_baseClass (.of_isIdentifier hc.baseClassName))
    (.cons (alike_clientClass hc (alike_controllers hc h)) .nil)
  sound_imports := d.sound_importDecls hc
  sound_interfaces i hi := (wellNamed_fixedInterfaces i hi).sound
  sound_functions f hf := (wellFormed_fixedFunctions f hf).sound
  classes_ne_nil := List.cons_ne_nil _ _

theorem checkBalance_file (doc : ApiDocument) {config : Config} (hc : config.Accepted) :
    checkBalance (doc.file config).text = .ok () :=
  (alike_file (d := doc) (e := doc) hc rfl).checkBalance_text

end ApiDocument

def ApiDocument.client (doc : ApiDocument) (config : Config) : GeneratedClient :=
  { code := (doc.file config).text
    diagnostics := (doc.clientParts config).diagnostics
    controllerCount := (doc.clientParts config).groups.controllerCount
    methodCount := (doc.clientParts config).groups.methodCount }

theorem ApiDocument.generateClient_eq (doc : ApiDocument) {config : Config}
    (h : config.validate = .ok ()) :
    doc.generateClient config =
      match strictFailure? config (doc.clientParts config).diagnostics with
      | some e => .error e
      | none => .ok (doc.client config) := by
  have hcheck := doc.checkBalance_file (Config.validate_eq_ok_iff.1 h)
  unfold generateClient
  rw [h]
  simp only [hcheck]
  rfl

theorem ApiDocument.generateClient_of_skip (doc : ApiDocument) {config : Config}
    (h : config.validate = .ok ()) (hpolicy : config.onInvalidOperationId = .skip) :
    doc.generateClient config = .ok (doc.client config) := by
  rw [doc.generateClient_eq h, strictFailure?, hpolicy]

theorem ApiDocument.of_generateClient_eq_ok {doc : ApiDocument} {config : Config}
    {client : GeneratedClient} (h : doc.generateClient config = .ok client) :
    config.validate = .ok () ∧ client = doc.client config := by
  cases hv : config.validate with
  | error cause =>
    unfold generateClient at h
    rw [hv] at h
    cases h
  | ok _ =>
    refine ⟨rfl, ?_⟩
    rw [doc.generateClient_eq hv] at h
    split at h
    · cases h
    · exact (Except.ok.inj h).symm

theorem strictFailure?_eq_some {config : Config} {diagnostics : List Diagnostic}
    {e : GenerateError} (h : strictFailure? config diagnostics = some e) :
    config.onInvalidOperationId = .abort ∧
      ∃ path verb id, .invalidOperationId path verb id ∈ diagnostics ∧
        e = .invalidOperationId path verb id config.operationIdSeparator diagnostics := by
  unfold strictFailure? at h
  split at h
  · cases h
  · next hpolicy =>
    refine ⟨hpolicy, ?_⟩
    obtain ⟨d, hd, h⟩ := List.exists_of_findSome?_eq_some h
    cases d with
    | invalidOperationId path verb id =>
      cases h
      exact ⟨path, verb, id, hd, rfl⟩
    | _ => cases h

/-- Whatever the texts, paths and names of the document are, its file passes the bracket check,
and a run fails for nothing but the id of an operation. -/
theorem ApiDocument.generateClient_passes_check (doc : ApiDocument) {config : Config}
    (h : config.validate = .ok ()) :
    checkBalance (doc.file config).text = .ok () ∧
      ((∃ client, doc.generateClient config = .ok client ∧
          client.code = (doc.file config).text) ∨
        config.onInvalidOperationId = .abort ∧ ∃ path verb id diagnostics,
          doc.generateClient config =
            .error (.invalidOperationId path verb id config.operationIdSeparator diagnostics)) := by
  refine ⟨doc.checkBalance_file (Config.validate_eq_ok_iff.1 h), ?_⟩
  rw [doc.generateClient_eq h]
  cases hs : strictFailure? config (doc.clientParts config).diagnostics with
  | none => exact .inl ⟨doc.client config, rfl, rfl⟩
  | some e =>
    obtain ⟨hpolicy, path, verb, id, _, rfl⟩ := strictFailure?_eq_some hs
    exact .inr ⟨hpolicy, path, verb, id, _, rfl⟩

/-- Quotes, backslashes, comment marks, braces and line ends wherever a document has texts. -/
def hostileDocument : ApiDocument where
  info := some { title := "*/ \x7b // `", version := "1\u2028\x7d'" }
  paths := [("/cats'\\/\x7bid`\x7d/*", {
    operations := [(.post, {
      operationId := some "Cats_find"
      summary := some "it's */ \x7b"
      description := some "\"\r\x7d */\u2029 // `$\x7b"
      parameters := [
        { name := "a'b\\", description := some "*/ \x7b\n\r*/"
          schema := some { enumeration := [.text "'\n", .text "`$\x7b"] } }]
      requestBody := some {
        content := [("application/json", {
          schema := some { reference := some "#/'*/CatDto" } })] } })] })]

theorem generateClient_passes_check_hostileDocument :
    ({} : Config).validate = .ok () ∧
      checkBalance (hostileDocument.file {}).text = .ok () ∧
      ((∃ client, hostileDocument.generateClient {} = .ok client ∧
          client.code = (hostileDocument.file {}).text) ∨
        ({} : Config).onInvalidOperationId = .abort ∧ ∃ path verb id diagnostics,
          hostileDocument.generateClient {} =
            .error (.invalidOperationId path verb id
              ({} : Config).operationIdSeparator diagnostics)) :=
  ⟨rfl, hostileDocument.generateClient_passes_check rfl⟩

open Script (codeLines)

/-- Without comments and blank lines the two clients are the same text, or both runs fail with
the same error. -/
theorem ApiDocument.codeLines_generateClient {d e : ApiDocument} {config : Config}
    (h : config.validate = .ok ()) (hde : d.withoutTexts = e.withoutTexts) :
    (d.generateClient config).map (fun client => codeLines client.code) =
      (e.generateClient config).map (fun client => codeLines client.code) := by
  have hdiagnostics :
      (d.clientParts config).diagnostics = (e.clientParts config).diagnostics := by
    rw [← clientParts_diagnostics_withoutTexts, hde, clientParts_diagnostics_withoutTexts]
  have hcode : codeLines (d.client config).code = codeLines (e.client config).code :=
    (alike_file (Config.validate_eq_ok_iff.1 h) hde).codeLines_text
  rw [d.generateClient_eq h, e.generateClient_eq h, hdiagnostics]
  cases strictFailure? config (e.clientParts config).diagnostics with
  | some failure => rfl
  | none => exact congrArg Except.ok hcode

def plainDocument : ApiDocument where
  info := none
  paths := [("/cats'\\/\x7bid`\x7d/*", {
    operations := [(.post, {
      operationId := some "Cats_find"
      parameters := [
        { name := "a'b\\", description := some "The first"
          schema := some { enumeration := [.text "'\n", .text "`$\x7b"] } }]
      requestBody := some {
        content := [("application/json", {
          schema := some { reference := some "#/'*/CatDto" } })] } })] })]

theorem codeLines_generateClient_hostileDocument :
    ({} : Config).validate = .ok () ∧
      hostileDocument.withoutTexts = plainDocument.withoutTexts ∧
      (hostileDocument.generateClient {}).map (fun client => codeLines client.code) =
        (plainDocument.generateClient {}).map (fun client => codeLines client.code) :=
  ⟨rfl, rfl, ApiDocument.codeLines_generateClient rfl rfl⟩

end ClientGen
