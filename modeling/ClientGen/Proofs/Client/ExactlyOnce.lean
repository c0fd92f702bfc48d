import ClientGen.Proofs.Client.ArgumentFields

namespace ClientGen

namespace Script

def Body.request? : Body → Option (Verb × String)
  | .statements _ => none
  | .request call => some (call.verb, call.path)

def Initializer.requests : Initializer → List (Verb × String)
  | .raw _ => []
  | .object methods => methods.filterMap (·.body.request?)

def Member.requests : Member → List (Verb × String)
  | .constructor _ => []
  | .property p => (p.initializer.map Initializer.requests).getD []
  | .method m => m.body.request?.toList

def ClassDeclaration.requests (c : ClassDeclaration) : List (Verb × String) :=
  c.members.flatMap Member.requests

/-- The groups of methods that members show by name: an object literal in a property, and right
behind it the property that reads it. -/
def shownGroups : List Member → Table (List ArrowMethod)
  | .property own :: .property shown :: rest =>
    match own.initializer, shown.initializer with
    | some (.object methods), some (.raw expression) =>
      if expression = "this." ++ own.name then (shown.name, methods) :: shownGroups rest
      else shownGroups (.property shown :: rest)
    | _, _ => shownGroups (.property shown :: rest)
  | _ :: rest => shownGroups rest
  | [] => []

end Script

open Client Script

def Endpoint.request (e : Endpoint) : Verb × String := (e.verb, e.path)

theorem Client.request?_makeMethod (config : Config) (controller name : String) (e : Endpoint) :
    (makeMethod config controller name e).value.body.request? = some e.request := by
  rw [makeMethod_value]
  rfl

theorem Client.name_makeMethod (config : Config) (controller name : String) (e : Endpoint) :
    (makeMethod config controller name e).value.name = name := by
  rw [makeMethod_value]
  rfl

theorem Client.requests_makeController (config : Config) (name : String)
    (methods : Table Endpoint) :
    (makeController config name methods).value.methods.filterMap (·.body.request?) =
      methods.map fun p => p.2.request := by
  rw [makeController_methods, List.filterMap_map, ← List.filterMap_eq_map]
  apply List.filterMap_congr
  intro p _
  exact request?_makeMethod config name p.1 p.2

theorem Client.names_makeController (config : Config) (name : String) (methods : Table Endpoint) :
    (makeController config name methods).value.methods.map ArrowMethod.name = methods.keys := by
  rw [makeController_methods, List.map_map]
  apply List.map_congr_left
  intro p _
  exact name_makeMethod config name p.1 p.2

theorem Client.requests_groupMembers (c : Controller) :
    (groupMembers c).flatMap Member.requests = c.methods.filterMap (·.body.request?) := by
  simp [groupMembers, Member.requests, Initializer.requests]

theorem Client.requests_clientClass (config : Config) (cs : List Controller) :
    (clientClass config cs).requests =
      cs.flatMap fun c => c.methods.filterMap (·.body.request?) := by
  simp only [ClassDeclaration.requests, clientClass, List.flatMap_cons, Member.requests,
    List.nil_append, List.flatMap_assoc, requests_groupMembers]

theorem Client.shownGroups_clientClass (config : Config) (cs : List Controller) :
    shownGroups (clientClass config cs).members = cs.map fun c => (c.name, c.methods) := by
  have hgroups : shownGroups (cs.flatMap groupMembers) = cs.map fun c => (c.name, c.methods) := by
    induction cs with
    | nil => rfl
    | cons c cs ih =>
      rw [List.flatMap_cons, List.map_cons, ← ih]
      simp [groupMembers, shownGroups]
  exact hgroups

def OtherReports (ds : List Diagnostic) : Prop := ∀ d ∈ ds, d.isInvalidOperationId = false

theorem OtherReports.singleton {d : Diagnostic} (h : d.isInvalidOperationId = false) :
    OtherReports [d] := by
  intro e he
  rw [List.mem_singleton.1 he, h]

namespace Client

theorem otherReports_makeMethod (config : Config) (controller name : String) (e : Endpoint) :
    OtherReports (makeMethod config controller name e).diagnostics := by
  intro d hd
  rcases cases_of_mem_makeMethod hd with htype | ⟨p, -, rfl⟩ | ⟨_, rfl⟩
  · cases htype <;> rfl
  · rfl
  · rfl

theorem otherReports_makeControllers (config : Config) (g : Groups) :
    OtherReports ((g.makeControllers config).flatMap Made.diagnostics) := by
  intro d hd
  simp only [Groups.makeControllers, List.flatMap_map, makeController_diagnostics,
    List.mem_flatMap] at hd
  obtain ⟨p, _, q, _, hd⟩ := hd
  exact otherReports_makeMethod config p.1 q.1 q.2 d hd

end Client

theorem ApiDocument.filter_diagnostics_clientParts (doc : ApiDocument) (config : Config) :
    (doc.clientParts config).diagnostics.filter Diagnostic.isInvalidOperationId =
      (doc.rejected config.operationIdSeparator).map Endpoint.rejection := by
  have hmade : ((doc.group config).groups.makeControllers config |>.flatMap Made.diagnostics).filter
      Diagnostic.isInvalidOperationId = [] := by
    rw [List.filter_eq_nil_iff]
    intro d hd
    simp [otherReports_makeControllers config _ d hd]
  unfold clientParts
  dsimp only
  rw [List.filter_append, hmade, List.append_nil, doc.filter_diagnostics_group]

theorem ApiDocument.shownGroups_clientParts (doc : ApiDocument) (config : Config) :
    (shownGroups (clientClass config (doc.clientParts config).controllers).members).map
        (fun g => (g.1, g.2.filterMap (·.body.request?))) =
      (((doc.accepted config.operationIdSeparator).filterMap
          (·.controller? config.operationIdSeparator)).eraseDups).map fun c =>
        (c, ((doc.accepted config.operationIdSeparator).filter
          (·.controller? config.operationIdSeparator == some c)).map Endpoint.request) := by
  have hsorted := doc.sorted_group config
  rw [shownGroups_clientClass, List.map_map]
  simp only [clientParts, Groups.makeControllers, List.map_map]
  conv => lhs; rw [hsorted.controllers_eq]
  rw [doc.filterMap_accepted, List.map_map]
  apply List.map_congr_left
  intro c _
  have hrequests := requests_makeController config c ((doc.group config).groups.methods c)
  simp only [Function.comp_apply, hrequests, doc.filter_accepted, ← hsorted.endpoints c,
    List.map_map]
  rfl

theorem ApiDocument.requests_clientParts (doc : ApiDocument) (config : Config) :
    (clientClass config (doc.clientParts config).controllers).requests.Perm
      ((doc.accepted config.operationIdSeparator).map Endpoint.request) := by
  have hperm := (doc.sorted_group config).perm.map Endpoint.request
  rw [requests_clientClass]
  simp only [clientParts, Groups.makeControllers, List.flatMap_map, List.map_map,
    Function.comp_apply, requests_makeController]
  simpa [accepted, List.map_flatMap, Function.comp_def] using hperm

theorem ApiDocument.nodup_names_clientParts (doc : ApiDocument) (config : Config) :
    ∀ g ∈ shownGroups (clientClass config (doc.clientParts config).controllers).members,
      (g.2.map ArrowMethod.name).Nodup := by
  intro g hg
  have hsorted := doc.sorted_group config
  rw [shownGroups_clientClass] at hg
  simp only [clientParts, Groups.makeControllers, List.map_map, List.mem_map] at hg
  obtain ⟨⟨c, methods⟩, hc, rfl⟩ := hg
  rw [hsorted.controllers_eq] at hc
  obtain ⟨_, _, heq⟩ := List.mem_map.1 hc
  cases heq
  have hnames := names_makeController config c ((doc.group config).groups.methods c)
  simp only [Function.comp_apply, hnames]
  exact hsorted.nodup_names c

theorem ApiDocument.methodCount_clientParts (doc : ApiDocument) (config : Config) :
    (doc.clientParts config).groups.methodCount =
      (doc.accepted config.operationIdSeparator).length := by
  have hlength := (doc.sorted_group config).perm.length_eq
  rw [accepted, ← hlength]
  simp [clientParts, Groups.methodCount, List.length_flatMap]

/-- Unless it is told to be strict, a run makes a client that sends each accepted operation by
one method, in the group of its controller; controllers and their methods stand in the order in
which the document names them first, no method takes the name of another, and each operation
left out is reported once, in order. -/
theorem ApiDocument.generates_each_operation_once (doc : ApiDocument) {config : Config}
    (h : config.validate = .ok ()) (hpolicy : config.onInvalidOperationId = .skip) :
    ∃ client declaration,
      doc.generateClient config = .ok client ∧
      client.code = (doc.file config).text ∧
      (doc.file config).class? config.clientName = some declaration ∧
      declaration.requests.Perm
        ((doc.accepted config.operationIdSeparator).map Endpoint.request) ∧
      (shownGroups declaration.members).map
          (fun g => (g.1, g.2.filterMap (·.body.request?))) =
        (((doc.accepted config.operationIdSeparator).filterMap
            (·.controller? config.operationIdSeparator)).eraseDups).map (fun c =>
          (c, ((doc.accepted config.operationIdSeparator).filter
            (·.controller? config.operationIdSeparator == some c)).map Endpoint.request)) ∧
      (∀ g ∈ shownGroups declaration.members, (g.2.map ArrowMethod.name).Nodup) ∧
      client.diagnostics.filter Diagnostic.isInvalidOperationId =
        (doc.rejected config.operationIdSeparator).map Endpoint.rejection ∧
      client.methodCount + client.diagnostics.countP Diagnostic.isInvalidOperationId =
        doc.operationCount := by
  have hc := Config.validate_eq_ok_iff.1 h
  have hreports := doc.filter_diagnostics_clientParts config
  have hrun : doc.generateClient config = .ok (doc.client config) := by
    rw [doc.generateClient_eq h, strictFailure?, hpolicy]
  refine ⟨doc.client config, clientClass config (doc.clientParts config).controllers, hrun, rfl,
    doc.class?_file hc, doc.requests_clientParts config, doc.shownGroups_clientParts config,
    doc.nodup_names_clientParts config, hreports, ?_⟩
  calc (doc.client config).methodCount
        + (doc.client config).diagnostics.countP Diagnostic.isInvalidOperationId
      = (doc.accepted config.operationIdSeparator).length
        + ((doc.clientParts config).diagnostics.filter Diagnostic.isInvalidOperationId).length := by
        rw [← doc.methodCount_clientParts config, ← List.countP_eq_length_filter]
        rfl
    _ = (doc.accepted config.operationIdSeparator).length
        + (doc.rejected config.operationIdSeparator).length := by
        rw [hreports, List.length_map]
    _ = doc.operationCount := doc.length_accepted_add_rejected _

/-- One id on two verbs, an id that is the name made up for the second, one that names a member
of the base class, and one that is missing. -/
def crowdedDocument : ApiDocument where
  paths := [
    ("/cats", {
      operations := [
        (.get, { operationId := some "Cats_list" }),
        (.post, { operationId := some "Cats_list" })] }),
    ("/dogs", {
      operations := [
        (.get, { operationId := some "Dogs_list" }),
        (.put, { operationId := some "Cats_list_2" }),
        (.delete, {})] }),
    ("/init", { operations := [(.get, { operationId := some "init_all" })] })]

theorem generates_each_operation_once_crowdedDocument :
    ({} : Config).validate = .ok () ∧ ({} : Config).onInvalidOperationId = .skip ∧
      ∃ client declaration,
        crowdedDocument.generateClient {} = .ok client ∧
        (crowdedDocument.file {}).class? ({} : Config).clientName = some declaration ∧
        declaration.requests.Perm [(.get, "/cats"), (.post, "/cats"), (.get, "/dogs"),
          (.put, "/dogs")] ∧
        client.diagnostics.filter Diagnostic.isInvalidOperationId =
          [.invalidOperationId "/dogs" .delete none,
            .invalidOperationId "/init" .get (some "init_all")] := by
  obtain ⟨client, declaration, hrun, _, hclass, hperm, _, _, hreports, _⟩ :=
    crowdedDocument.generates_each_operation_once Config.validate_default rfl
  have haccepted : (crowdedDocument.accepted ({} : Config).operationIdSeparator).map
      Endpoint.request =
        [(.get, "/cats"), (.post, "/cats"), (.get, "/dogs"), (.put, "/dogs")] := by
    decide +kernel
  have hrejected : (crowdedDocument.rejected ({} : Config).operationIdSeparator).map
      Endpoint.rejection = [.invalidOperationId "/dogs" .delete none,
        .invalidOperationId "/init" .get (some "init_all")] := by
    decide +kernel
  rw [haccepted] at hperm
  rw [hrejected] at hreports
  exact ⟨rfl, rfl, client, declaration, hrun, hclass, hperm, hreports⟩

end ClientGen
