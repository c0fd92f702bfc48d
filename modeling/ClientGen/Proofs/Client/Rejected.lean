import ClientGen.Proofs.Client.ExactlyOnce

namespace ClientGen

open Client

def PathItem.withoutRejected (separator : String) (item : PathItem) : PathItem :=
  { item with operations := item.operations.filter fun p => (p.2.names? separator).isSome }

/-- The document without the operations that no method is made for. Paths stay, and so do the
verbs that are not supported. -/
def ApiDocument.withoutRejected (separator : String) (doc : ApiDocument) : ApiDocument :=
  { doc with paths := doc.paths.mapValues (PathItem.withoutRejected separator) }

def Entry.isKept (separator : String) : Entry → Bool
  | .unsupported _ _ => true
  | .operation e => (e.operation.names? separator).isSome

theorem PathItem.entries_withoutRejected (separator path : String) (item : PathItem) :
    (item.withoutRejected separator).entries path =
      (item.entries path).filter (Entry.isKept separator) := by
  have hverbs : ∀ a ∈ item.unsupportedVerbs.map (Entry.unsupported path),
      a.isKept separator = true := by
    intro a ha
    obtain ⟨verb, _, rfl⟩ := List.mem_map.1 ha
    rfl
  unfold entries
  rw [List.filter_append, List.filter_eq_self.2 hverbs, List.filter_map]
  rfl

theorem ApiDocument.entries_withoutRejected (separator : String) (doc : ApiDocument) :
    (doc.withoutRejected separator).entries = doc.entries.filter (Entry.isKept separator) := by
  unfold entries withoutRejected Table.mapValues
  rw [List.flatMap_map, List.filter_flatMap]
  simp only [PathItem.entries_withoutRejected]

theorem ApiDocument.endpoints_withoutRejected (separator : String) (doc : ApiDocument) :
    (doc.withoutRejected separator).endpoints = doc.accepted separator := by
  unfold accepted endpoints withoutRejected Table.mapValues
  rw [List.flatMap_map, List.filter_flatMap]
  apply List.flatMap_congr
  intro p _
  simp only [PathItem.withoutRejected, List.filter_map, Function.comp_def, Endpoint.controller?,
    Option.isSome_map]

def Diagnostic.withoutRejections (ds : List Diagnostic) : List Diagnostic :=
  ds.filter fun d => !d.isInvalidOperationId

theorem Diagnostic.withoutRejections_append (ds es : List Diagnostic) :
    withoutRejections (ds ++ es) = withoutRejections ds ++ withoutRejections es :=
  List.filter_append ..

theorem OtherReports.withoutRejections {ds : List Diagnostic} (h : OtherReports ds) :
    Diagnostic.withoutRejections ds = ds := by
  apply List.filter_eq_self.2
  intro d hd
  rw [h d hd]
  rfl

namespace Grouping

def withoutRejections (g : Grouping) : Grouping :=
  { g with diagnostics := Diagnostic.withoutRejections g.diagnostics }

theorem withoutRejections_report (g : Grouping) {d : Diagnostic}
    (hd : d.isInvalidOperationId = false) :
    (g.report d).withoutRejections = g.withoutRejections.report d := by
  unfold report withoutRejections
  rw [Diagnostic.withoutRejections_append, OtherReports.withoutRejections (.singleton hd)]

variable (separator : String) (g : Grouping)

/-- An entry that is kept does not look at the reports before it. -/
theorem withoutRejections_add_of_isKept {entry : Entry} (h : entry.isKept separator = true) :
    (g.add separator entry).withoutRejections = g.withoutRejections.add separator entry := by
  cases entry with
  | unsupported path verb => exact withoutRejections_report g rfl
  | operation e =>
    obtain ⟨⟨controller, method⟩, he⟩ := Option.isSome_iff_exists.1 h
    have hgroups : g.withoutRejections.groups = g.groups := rfl
    simp only [add, he, hgroups]
    split
    · rfl
    · exact withoutRejections_report _ rfl

theorem withoutRejections_add_of_not_isKept {entry : Entry}
    (h : entry.isKept separator = false) :
    (g.add separator entry).withoutRejections = g.withoutRejections := by
  cases entry with
  | unsupported path verb => cases h
  | operation e =>
    have he : e.operation.names? separator = none := by simpa [Entry.isKept] using h
    have hreport : Diagnostic.withoutRejections
        [.invalidOperationId e.path e.verb e.operation.operationId] = [] := rfl
    simp only [add, he, report, withoutRejections]
    rw [Diagnostic.withoutRejections_append, hreport, List.append_nil]

theorem foldl_filter_isKept (entries : List Entry) :
    (entries.filter (Entry.isKept separator)).foldl (add separator) g.withoutRejections =
      (entries.foldl (add separator) g).withoutRejections := by
  induction entries generalizing g with
  | nil => rfl
  | cons entry entries ih =>
    cases h : entry.isKept separator with
    | true =>
      rw [List.filter_cons_of_pos h, List.foldl_cons, List.foldl_cons,
        ← withoutRejections_add_of_isKept separator g h]
      exact ih _
    | false =>
      rw [List.filter_cons_of_neg (by simp [h]), List.foldl_cons, ← ih,
        withoutRejections_add_of_not_isKept separator g h]

end Grouping

namespace ApiDocument

variable (doc : ApiDocument) (config : Config)

theorem group_withoutRejected :
    (doc.withoutRejected config.operationIdSeparator).group config =
      (doc.group config).withoutRejections := by
  unfold group
  rw [entries_withoutRejected]
  exact Grouping.foldl_filter_isKept _ {} _

theorem clientParts_withoutRejected :
    (doc.withoutRejected config.operationIdSeparator).clientParts config =
      { doc.clientParts config with
        diagnostics := Diagnostic.withoutRejections (doc.clientParts config).diagnostics } := by
  have hmade := otherReports_makeControllers config (doc.group config).groups
  unfold clientParts
  dsimp only
  rw [group_withoutRejected, Diagnostic.withoutRejections_append, hmade.withoutRejections]
  rfl

theorem client_withoutRejected :
    (doc.withoutRejected config.operationIdSeparator).client config =
      { doc.client config with
        diagnostics := Diagnostic.withoutRejections (doc.client config).diagnostics } := by
  unfold client file
  simp only [clientParts_withoutRejected]
  rfl

/-- Unless it is told to be strict, a run makes the same code, of as many controllers and methods,
when of the operations only those stay that methods are made for; of its reports those about the
others are missing, and the rest stands in the same order. -/
theorem generateClient_withoutRejected {config : Config} (h : config.validate = .ok ())
    (hpolicy : config.onInvalidOperationId = .skip) :
    (doc.withoutRejected config.operationIdSeparator).endpoints =
        doc.accepted config.operationIdSeparator ∧
      ∃ client, doc.generateClient config = .ok client ∧
        (doc.withoutRejected config.operationIdSeparator).generateClient config =
          .ok { client with
            diagnostics := client.diagnostics.filter fun d => !d.isInvalidOperationId } := by
  refine ⟨doc.endpoints_withoutRejected _, doc.client config,
    doc.generateClient_of_skip h hpolicy, ?_⟩
  rw [generateClient_of_skip _ h hpolicy, client_withoutRejected]
  rfl

end ApiDocument

theorem generateClient_withoutRejected_crowdedDocument :
    ({} : Config).validate = .ok () ∧ ({} : Config).onInvalidOperationId = .skip ∧
      ∃ client rest,
        crowdedDocument.generateClient {} = .ok client ∧
        (crowdedDocument.withoutRejected "_").generateClient {} = .ok rest ∧
        rest.code = client.code ∧ rest.methodCount = 4 ∧ client.diagnostics.length = 4 ∧
        rest.diagnostics =
          [.methodRenamed "Cats" "list" "list_2" "/cats" .post,
            .methodRenamed "Cats" "list_2" "list_2_2" "/dogs" .put] := by
  obtain ⟨_, client, hrun, hrest⟩ :=
    crowdedDocument.generateClient_withoutRejected Config.validate_default rfl
  have hclient : client = crowdedDocument.client {} := by
    rw [crowdedDocument.generateClient_of_skip Config.validate_default rfl] at hrun
    exact (Except.ok.inj hrun).symm
  have hcount : (crowdedDocument.clientParts {}).groups.methodCount = 4 := by decide +kernel
  have hreports : (crowdedDocument.clientParts {}).diagnostics =
      [.methodRenamed "Cats" "list" "list_2" "/cats" .post,
        .methodRenamed "Cats" "list_2" "list_2_2" "/dogs" .put,
        .invalidOperationId "/dogs" .delete none,
        .invalidOperationId "/init" .get (some "init_all")] := by
    decide +kernel
  have hclientReports : client.diagnostics = (crowdedDocument.clientParts {}).diagnostics := by
    rw [hclient]
    rfl
  refine ⟨rfl, rfl, client, _, hrun, hrest, rfl, ?_, ?_, ?_⟩
  · rw [hclient]
    exact hcount
  · rw [hclientReports, hreports]
    rfl
  · rw [hclientReports, hreports]
    rfl

end ClientGen
