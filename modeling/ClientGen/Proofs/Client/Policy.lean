import ClientGen.Proofs.Client.ExactlyOnce

namespace ClientGen

open Client Script

def Config.under (config : Config) (policy : InvalidIdPolicy) : Config :=
  { config with onInvalidOperationId := policy }

variable (config : Config) (policy : InvalidIdPolicy)

@[simp] theorem Config.validate_under : (config.under policy).validate = config.validate := rfl

theorem Client.makeMethod_under (controller name : String) (e : Endpoint) :
    makeMethod (config.under policy) controller name e = makeMethod config controller name e := rfl

theorem Client.makeController_under (name : String) (methods : Table Endpoint) :
    makeController (config.under policy) name methods = makeController config name methods := by
  unfold makeController
  simp only [makeMethod_under]

theorem ApiDocument.clientParts_under (doc : ApiDocument) :
    doc.clientParts (config.under policy) = doc.clientParts config := by
  have hgroup : doc.group (config.under policy) = doc.group config := rfl
  unfold clientParts Groups.makeControllers
  simp only [hgroup, makeController_under]

theorem ApiDocument.client_under (doc : ApiDocument) :
    doc.client (config.under policy) = doc.client config := by
  unfold client file
  simp only [clientParts_under]
  rfl

@[simp] theorem strictFailure?_skip (diagnostics : List Diagnostic) :
    strictFailure? (config.under .skip) diagnostics = none := rfl

theorem findSome?_filter {α β : Type} {f : α → Option β} (p : α → Bool) {l : List α}
    (h : ∀ a, p a = false → f a = none) : (l.filter p).findSome? f = l.findSome? f := by
  induction l with
  | nil => rfl
  | cons a as ih =>
    cases hp : p a with
    | false => simp [hp, h a hp, ih]
    | true => simp [hp, List.findSome?_cons, ih]

theorem strictFailure?_abort {diagnostics : List Diagnostic} {es : List Endpoint}
    (h : diagnostics.filter Diagnostic.isInvalidOperationId = es.map Endpoint.rejection) :
    strictFailure? (config.under .abort) diagnostics =
      es.head?.map fun e => .invalidOperationId e.path e.verb e.operation.operationId
        config.operationIdSeparator diagnostics := by
  unfold strictFailure?
  dsimp only [Config.under]
  rw [← findSome?_filter Diagnostic.isInvalidOperationId, h]
  · cases es <;> rfl
  · intro d hd
    cases d with
    | invalidOperationId => cases hd
    | _ => rfl

namespace ApiDocument

variable (doc : ApiDocument) {config}

theorem generateClient_skip (h : config.validate = .ok ()) :
    doc.generateClient (config.under .skip) = .ok (doc.client config) := by
  have hvalid : (config.under .skip).validate = .ok () := by rwa [Config.validate_under]
  have hrun := doc.generateClient_eq hvalid
  rwa [strictFailure?_skip, client_under] at hrun

theorem generateClient_abort (h : config.validate = .ok ()) :
    doc.generateClient (config.under .abort) =
      match (doc.rejected config.operationIdSeparator).head? with
      | some e => .error (.invalidOperationId e.path e.verb e.operation.operationId
          config.operationIdSeparator (doc.client config).diagnostics)
      | none => .ok (doc.client config) := by
  have hvalid : (config.under .abort).validate = .ok () := by rwa [Config.validate_under]
  have hrun := doc.generateClient_eq hvalid
  rw [clientParts_under, client_under,
    strictFailure?_abort config (doc.filter_diagnostics_clientParts config)] at hrun
  rw [hrun]
  cases (doc.rejected config.operationIdSeparator).head? <;> rfl

theorem any_isInvalidOperationId_client :
    (doc.client config).diagnostics.any Diagnostic.isInvalidOperationId = true ↔
      doc.rejected config.operationIdSeparator ≠ [] := by
  have hreports := doc.filter_diagnostics_clientParts config
  rw [List.any_eq_true]
  constructor
  · rintro ⟨d, hd, hinvalid⟩ hnone
    have hmem := List.mem_filter.2 ⟨hd, hinvalid⟩
    rw [client, hreports, hnone] at hmem
    cases hmem
  · intro hsome
    obtain ⟨e, he⟩ := List.exists_mem_of_ne_nil _ hsome
    have hmem := List.mem_map_of_mem (f := Endpoint.rejection) he
    rw [← hreports] at hmem
    exact ⟨_, List.mem_filter.1 hmem⟩

/-- Where some operation is left out for its id, or for a controller that is taken, a run that is
told to be strict fails for the first such operation of the document, with all that the other run
reports; where none is, both make the same client. -/
theorem abort_differs_in_verdict (h : config.validate = .ok ()) :
    ∃ client, doc.generateClient (config.under .skip) = .ok client ∧
      (client.diagnostics.any Diagnostic.isInvalidOperationId = true →
        ∃ e rest, doc.rejected config.operationIdSeparator = e :: rest ∧
          doc.generateClient (config.under .abort) =
            .error (.invalidOperationId e.path e.verb e.operation.operationId
              config.operationIdSeparator client.diagnostics)) ∧
      (client.diagnostics.any Diagnostic.isInvalidOperationId = false →
        doc.generateClient (config.under .abort) = .ok client) := by
  have habort := doc.generateClient_abort h
  refine ⟨doc.client config, doc.generateClient_skip h, ?_, ?_⟩
  · intro hinvalid
    obtain ⟨e, rest, hrejected⟩ :=
      List.exists_cons_of_ne_nil (doc.any_isInvalidOperationId_client.1 hinvalid)
    rw [hrejected] at habort
    exact ⟨e, rest, hrejected, habort⟩
  · intro hvalid
    have hrejected : doc.rejected config.operationIdSeparator = [] := by
      by_contra hsome
      rw [doc.any_isInvalidOperationId_client.2 hsome] at hvalid
      cases hvalid
    rwa [hrejected] at habort

end ApiDocument

/-- A verb no method is made for, a header, a controller that is taken, and an id without a
separator. -/
def strictDocument : ApiDocument where
  paths := [
    ("/cats", {
      operations := [(.get, {
        operationId := some "cats_list"
        parameters := [{ name := "tenant", location := .header }] })]
      unsupportedVerbs := ["patch"] }),
    ("/init", { operations := [(.get, { operationId := some "init_all" })] }),
    ("/dogs", { operations := [(.get, { operationId := some "dogs" })] })]

theorem abort_differs_in_verdict_strictDocument :
    ({} : Config).validate = .ok () ∧ ∃ client,
      strictDocument.generateClient (({} : Config).under .skip) = .ok client ∧
      client.diagnostics.any Diagnostic.isInvalidOperationId = true ∧
      client.diagnostics.length = 4 ∧
      strictDocument.generateClient (({} : Config).under .abort) =
        .error (.invalidOperationId "/init" .get (some "init_all") "_" client.diagnostics) := by
  obtain ⟨client, hskip, habort, _⟩ :=
    strictDocument.abort_differs_in_verdict Config.validate_default
  have hclient : client = strictDocument.client {} := by
    rw [strictDocument.generateClient_skip Config.validate_default] at hskip
    exact (Except.ok.inj hskip).symm
  have hreports : (strictDocument.client {}).diagnostics.length = 4 := by decide +kernel
  have hinvalid : client.diagnostics.any Diagnostic.isInvalidOperationId = true := by
    rw [hclient]
    decide +kernel
  obtain ⟨e, rest, hrejected, herror⟩ := habort hinvalid
  have hfirst : (strictDocument.rejected ({} : Config).operationIdSeparator).head?.map
      Endpoint.rejection = some (.invalidOperationId "/init" .get (some "init_all")) := by
    decide +kernel
  rw [hrejected] at hfirst
  obtain ⟨hpath, hverb, hid⟩ : e.path = "/init" ∧ e.verb = .get ∧
      e.operation.operationId = some "init_all" := by
    simpa [Endpoint.rejection] using hfirst
  rw [hpath, hverb, hid] at herror
  exact ⟨rfl, client, hskip, hinvalid, hclient ▸ hreports, herror⟩

end ClientGen
