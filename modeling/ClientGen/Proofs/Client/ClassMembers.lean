import ClientGen.Proofs.Client.Balance
import ClientGen.Proofs.Endpoint.Ids

namespace ClientGen

namespace Script

def Member.name : Member → String
  | .constructor _ => "constructor"
  | .property p => p.name
  | .method m => m.name

def Member.property? : Member → Option Property
  | .property p => some p
  | _ => none

def ClassDeclaration.properties (c : ClassDeclaration) : List Property :=
  c.members.filterMap Member.property?

def Property.Reads (p : Property) (name : String) : Prop :=
  p.initializer = some (.raw ("this." ++ name))

end Script

open Client Script

theorem Client.toList_ownGroupName (n : String) : (ownGroupName n).toList = '_' :: n.toList := by
  simp [ownGroupName]

theorem Client.ownGroupName_injective {m n : String} (h : ownGroupName m = ownGroupName n) :
    m = n := by
  have hchars := congrArg String.toList h
  rw [toList_ownGroupName, toList_ownGroupName] at hchars
  exact String.toList_inj.1 (List.cons_inj_right '_' |>.1 hchars)

theorem Client.ownGroupName_ne (n : String) : ownGroupName n ≠ n := by
  intro h
  have hlength := congrArg (List.length ∘ String.toList) h
  simp [toList_ownGroupName] at hlength

theorem Client.ownGroupName_not_mem_takenMembers (n : String) : ownGroupName n ∉ takenMembers := by
  have hbar : ∀ t ∈ takenMembers, t.toList.head? ≠ some '_' := by decide
  intro h
  exact hbar _ h (by rw [toList_ownGroupName]; rfl)

theorem Client.nodup_groupNames_iff {names : List String} (h : names.Nodup) :
    (names.flatMap fun n => [ownGroupName n, n]).Nodup ↔ ∀ n ∈ names, ownGroupName n ∉ names := by
  rw [nodup_flatMap_iff h]
  constructor
  · rintro ⟨_, hdisjoint⟩ n hn hown
    exact hdisjoint n hn _ hown (ownGroupName_ne n).symm List.mem_cons_self
      (List.mem_cons_of_mem _ List.mem_cons_self)
  · intro hfree
    refine ⟨fun n _ => by simp [ownGroupName_ne], fun a ha b hb hne s hsa hsb => ?_⟩
    simp only [List.mem_cons, List.not_mem_nil, or_false] at hsa hsb
    rcases hsa with rfl | rfl
    · rcases hsb with hown | rfl
      · exact hne (ownGroupName_injective hown)
      · exact hfree a ha hb
    · rcases hsb with rfl | rfl
      · exact hfree b hb ha
      · exact hne rfl

theorem Client.mem_takenMembers_of_mem_baseClass {name : String} {m : Member}
    (h : m ∈ (baseClass name).members) : m.name ∈ takenMembers := by
  simp only [baseClass, List.mem_cons, List.not_mem_nil, or_false] at h
  rcases h with rfl | rfl | rfl | rfl | rfl <;> simp [Member.name, takenMembers]

/-- The two properties of each of these controllers, in their order. What shows a group reads the
property in front of it. -/
structure Script.ClassDeclaration.ShowsGroups (c : ClassDeclaration) (controllers : List String) :
    Prop where
  names : c.properties.map Property.name = controllers.flatMap fun n => [ownGroupName n, n]
  reads : ∀ n ∈ controllers, ∃ p ∈ c.properties, p.name = n ∧ p.Reads (ownGroupName n)
  declared_before_read : ∀ before p after, c.properties = before ++ p :: after →
    ∀ name, p.Reads name → name ∈ before.map Property.name

def Client.ownProperty (c : Controller) : Property :=
  { name := ownGroupName c.name, visibility := .owner, initializer := some (.object c.methods) }

def Client.shownProperty (c : Controller) : Property :=
  { name := c.name
    docs := c.docs
    readonly := true
    type := some (.generic "Readonly" [.typeOf ("this." ++ ownGroupName c.name)])
    initializer := some (.raw ("this." ++ ownGroupName c.name)) }

theorem Client.properties_clientClass (config : Config) (cs : List Controller) :
    (clientClass config cs).properties = cs.flatMap fun c => [ownProperty c, shownProperty c] := by
  unfold ClassDeclaration.properties clientClass
  rw [List.filterMap_cons_none rfl, List.filterMap_flatMap]
  rfl

theorem Client.eq_of_reads_shownProperty {c : Controller} {name : String}
    (h : (shownProperty c).Reads name) : name = ownGroupName c.name := by
  have htext : "this." ++ ownGroupName c.name = "this." ++ name := by
    simpa [Property.Reads, shownProperty] using h
  have hchars := congrArg String.toList htext
  rw [String.toList_append, String.toList_append] at hchars
  exact (String.toList_inj.1 (List.append_cancel_left hchars)).symm

theorem Client.declared_before_read {cs : List Controller} {before after : List Property}
    {p : Property}
    (h : (cs.flatMap fun c => [ownProperty c, shownProperty c]) = before ++ p :: after)
    {name : String} (hp : p.Reads name) : name ∈ before.map Property.name := by
  induction cs generalizing before with
  | nil => simp at h
  | cons c cs ih =>
    rw [List.flatMap_cons, List.cons_append, List.cons_append, List.nil_append] at h
    -- `p` is the own property, the one that shows it, or one of a later controller
    match before with
    | [] =>
      obtain ⟨rfl, _⟩ := List.cons.inj h
      simp [Property.Reads, ownProperty] at hp
    | [q] =>
      obtain ⟨rfl, htail⟩ := List.cons.inj h
      obtain ⟨rfl, _⟩ := List.cons.inj htail
      rw [eq_of_reads_shownProperty hp]
      exact List.mem_cons_self
    | q :: r :: before =>
      have hrest := (List.cons.inj (List.cons.inj h).2).2
      exact List.mem_cons_of_mem _ (List.mem_cons_of_mem _ (ih hrest))

theorem Client.showsGroups_clientClass (config : Config) (cs : List Controller) :
    (clientClass config cs).ShowsGroups (cs.map Controller.name) where
  names := by
    rw [properties_clientClass, List.map_flatMap, List.flatMap_map]
    rfl
  reads := by
    intro n hn
    obtain ⟨c, hc, rfl⟩ := List.mem_map.1 hn
    refine ⟨shownProperty c, ?_, rfl, rfl⟩
    rw [properties_clientClass]
    exact List.mem_flatMap.2 ⟨c, hc, List.mem_cons_of_mem _ List.mem_cons_self⟩
  declared_before_read := by
    intro before p after h name hp
    rw [properties_clientClass] at h
    exact declared_before_read h hp

namespace ApiDocument

variable {doc : ApiDocument} {separator : String}

/-- The controllers that methods are made for, in the order in which they are first asked for. -/
def controllerNames (doc : ApiDocument) (separator : String) : List String :=
  (doc.endpoints.filterMap (·.controller? separator)).eraseDups

theorem mem_controllerNames {c : String} :
    c ∈ doc.controllerNames separator ↔ ∃ e ∈ doc.endpoints, e.controller? separator = some c := by
  rw [controllerNames, List.mem_eraseDups, List.mem_filterMap]

theorem names_clientParts (doc : ApiDocument) (config : Config) :
    (doc.clientParts config).controllers.map Controller.name =
      doc.controllerNames config.operationIdSeparator := by
  rw [controllerNames, ← (doc.sorted_group config).keys]
  simp only [clientParts, Groups.makeControllers, List.map_map]
  rfl

theorem nodup_controllerNames (doc : ApiDocument) (config : Config) :
    (doc.controllerNames config.operationIdSeparator).Nodup := by
  rw [controllerNames, ← (doc.sorted_group config).keys]
  exact (doc.sorted_group config).nodup_keys

theorem not_mem_takenMembers {c : String} (h : c ∈ doc.controllerNames separator) :
    c ∉ takenMembers := by
  obtain ⟨e, _, he⟩ := mem_controllerNames.1 h
  obtain ⟨⟨_, _⟩, hnames, rfl⟩ := Option.map_eq_some_iff.1 he
  obtain ⟨_, _, _, htaken⟩ := Operation.names?_eq_some_iff.1 hnames
  exact htaken

theorem not_infix_controllerNames {c : String} (hsep : separator ≠ "")
    (h : c ∈ doc.controllerNames separator) : ¬ separator.toList <:+: c.toList := by
  obtain ⟨e, _, he⟩ := mem_controllerNames.1 h
  obtain ⟨⟨_, _⟩, hnames, rfl⟩ := Option.map_eq_some_iff.1 he
  obtain ⟨_, _, hhalves, _⟩ := Operation.names?_eq_some_iff.1 hnames
  exact not_infix_of_halvesOfId hsep hhalves

end ApiDocument

def twinDocument (separator : String) (c : Char) : ApiDocument where
  paths := [("/", {
    operations := [
      (.get, { operationId := some (idOfAll separator [c]) }),
      (.put, { operationId := some (idOfAll separator ['_', c]) })] })]

theorem exists_twins {separator : String} (hsep : separator ≠ "") (hbar : separator ≠ "_") :
    ∃ (doc : ApiDocument) (n : String), n ∈ doc.controllerNames separator ∧
      ownGroupName n ∈ doc.controllerNames separator := by
  obtain ⟨c, hl, hc⟩ := exists_letter separator.toList
  have hown : ownGroupName (String.ofList [c]) = String.ofList ['_', c] :=
    String.toList_inj.1 (by simp [toList_ownGroupName])
  refine ⟨twinDocument separator c, String.ofList [c], ?_, ?_⟩
  · apply ApiDocument.mem_controllerNames.2
    refine ⟨⟨.get, "/", { operationId := some (idOfAll separator [c]) }⟩, List.mem_cons_self, ?_⟩
    rw [Endpoint.controller?, Operation.names?_letter hsep hl hc rfl]
    rfl
  · rw [hown]
    apply ApiDocument.mem_controllerNames.2
    refine ⟨⟨.put, "/", { operationId := some (idOfAll separator ['_', c]) }⟩,
      List.mem_cons_of_mem _ List.mem_cons_self, ?_⟩
    rw [Endpoint.controller?, Operation.names?_underscoredLetter hsep hbar hl hc rfl]
    rfl

namespace ApiDocument

variable {config : Config}

theorem class?_baseClass (doc : ApiDocument) (config : Config) :
    (doc.file config).class? config.baseClassName = some (baseClass config.baseClassName) := by
  rw [File.class?, classes_file]
  exact List.find?_cons_of_pos (beq_self_eq_true _)

theorem showsGroups_clientParts (doc : ApiDocument) (config : Config) :
    (clientClass config (doc.clientParts config).controllers).ShowsGroups
      (doc.controllerNames config.operationIdSeparator) := by
  rw [← doc.names_clientParts config]
  exact showsGroups_clientClass config _

theorem nodup_propertyNames_iff (doc : ApiDocument) (config : Config) :
    ((clientClass config (doc.clientParts config).controllers).properties.map
        Property.name).Nodup ↔
      ∀ n ∈ doc.controllerNames config.operationIdSeparator,
        ownGroupName n ∉ doc.controllerNames config.operationIdSeparator := by
  rw [(doc.showsGroups_clientParts config).names]
  exact nodup_groupNames_iff (doc.nodup_controllerNames config)

theorem name_ne_of_mem_baseClass (doc : ApiDocument) (config : Config) {p : Property}
    (hp : p ∈ (clientClass config (doc.clientParts config).controllers).properties)
    {m : Member} (hm : m ∈ (baseClass config.baseClassName).members) : p.name ≠ m.name := by
  have hname := List.mem_map_of_mem (f := Property.name) hp
  rw [(doc.showsGroups_clientParts config).names, List.mem_flatMap] at hname
  obtain ⟨n, hn, hname⟩ := hname
  intro heq
  have htaken := mem_takenMembers_of_mem_baseClass hm
  rw [← heq] at htaken
  simp only [List.mem_cons, List.not_mem_nil, or_false] at hname
  rcases hname with hname | hname
  · exact ownGroupName_not_mem_takenMembers n (hname ▸ htaken)
  · exact not_mem_takenMembers hn (hname ▸ htaken)

/-- The client class has two properties for each controller, in the order in which the document
names them; none has the name of a member of the base class, and each that reads another stands
behind it. Their names are all different unless some controller is named like another behind `_`,
so for all documents they are exactly where the separator is `_`. -/
theorem propertyNames_distinct_iff (h : config.validate = .ok ()) :
    (∀ doc : ApiDocument, ∃ client base,
      (doc.file config).class? config.clientName = some client ∧
      (doc.file config).class? config.baseClassName = some base ∧
      client.base = some base.name ∧
      client.ShowsGroups (doc.controllerNames config.operationIdSeparator) ∧
      (∀ p ∈ client.properties, ∀ m ∈ base.members, p.name ≠ m.name) ∧
      ((client.properties.map Property.name).Nodup ↔
        ∀ n ∈ doc.controllerNames config.operationIdSeparator,
          "_" ++ n ∉ doc.controllerNames config.operationIdSeparator)) ∧
    ((∀ (doc : ApiDocument) (client : ClassDeclaration),
        (doc.file config).class? config.clientName = some client →
        (client.properties.map Property.name).Nodup) ↔
      config.operationIdSeparator = "_") := by
  have hc := Config.validate_eq_ok_iff.1 h
  constructor
  · intro doc
    exact ⟨_, _, doc.class?_file hc, doc.class?_baseClass config, rfl,
      doc.showsGroups_clientParts config,
      fun p hp m hm => doc.name_ne_of_mem_baseClass config hp hm,
      doc.nodup_propertyNames_iff config⟩
  constructor
  · intro hall
    by_contra hbar
    obtain ⟨doc, n, hn, hown⟩ := exists_twins hc.separator_ne hbar
    exact (doc.nodup_propertyNames_iff config).1 (hall doc _ (doc.class?_file hc)) n hn hown
  · intro hbar doc client hclient
    rw [doc.class?_file hc, Option.some_inj] at hclient
    subst hclient
    apply (doc.nodup_propertyNames_iff config).2
    intro n _ hown
    apply not_infix_controllerNames hc.separator_ne hown
    rw [hbar, toList_ownGroupName]
    exact (List.prefix_append ['_'] n.toList).isInfix

end ApiDocument

theorem propertyNames_distinct_default :
    ({} : Config).validate = .ok () ∧
      ∀ (doc : ApiDocument) (client : ClassDeclaration),
        (doc.file {}).class? ({} : Config).clientName = some client →
          (client.properties.map Property.name).Nodup :=
  ⟨rfl, (ApiDocument.propertyNames_distinct_iff Config.validate_default).2.2 rfl⟩

def dottedConfig : Config := { operationIdSeparator := "." }

def underscoredDocument : ApiDocument where
  paths := [
    ("/cats", { operations := [(.get, { operationId := some "cats.list" })] }),
    ("/hidden", { operations := [(.get, { operationId := some "_cats.list" })] })]

theorem propertyNames_underscoredDocument :
    dottedConfig.validate = .ok () ∧ ∃ client,
      (underscoredDocument.file dottedConfig).class? dottedConfig.clientName = some client ∧
      client.properties.map Property.name = ["_cats", "cats", "__cats", "_cats"] ∧
      ¬ (client.properties.map Property.name).Nodup := by
  have hc : dottedConfig.validate = .ok () := rfl
  have hnames : ((clientClass dottedConfig
      (underscoredDocument.clientParts dottedConfig).controllers).properties.map Property.name) =
        ["_cats", "cats", "__cats", "_cats"] := by
    decide +kernel
  refine ⟨hc, _, underscoredDocument.class?_file (Config.validate_eq_ok_iff.1 hc), hnames, ?_⟩
  rw [hnames]
  decide

end ClientGen
