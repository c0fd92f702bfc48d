import ClientGen.Proofs.Endpoint.Sorting
import ClientGen.Proofs.Client.ExactlyOnce
import ClientGen.Proofs.Client.ImportedSymbols

namespace ClientGen

/-- The controllers of `g` are the first of `h`, and the methods of each, under the same names,
the first of its group. -/
structure Groups.Grows (g h : Groups) : Prop where
  keys : g.controllers.keys <+: h.controllers.keys
  methods (c : String) : g.methods c <+: h.methods c

namespace Groups.Grows

theorem refl (g : Groups) : g.Grows g where
  keys := List.prefix_refl _
  methods _ := List.prefix_refl _

theorem trans {g h k : Groups} (hg : g.Grows h) (hh : h.Grows k) : g.Grows k where
  keys := hg.keys.trans hh.keys
  methods c := (hg.methods c).trans (hh.methods c)

theorem insert (g : Groups) (controller method : String) (e : Endpoint) :
    g.Grows (g.insert controller method e) where
  keys := by
    unfold Groups.insert
    rw [Table.keys_put]
    split
    · exact List.prefix_refl _
    · exact List.prefix_append _ _
  methods c := by
    by_cases hc : c = controller
    · subst hc
      rw [Groups.methods_insert]
      exact List.prefix_append _ _
    · exact (Groups.methods_insert_of_ne g hc method e).symm ▸ List.prefix_refl _

theorem add (separator : String) (g : Grouping) (entry : Entry) :
    g.groups.Grows (g.add separator entry).groups := by
  cases entry with
  | unsupported path verb => exact refl _
  | operation e =>
    cases he : e.operation.names? separator with
    | none =>
      simp only [Grouping.add, he, Grouping.groups_report]
      exact refl _
    | some names =>
      obtain ⟨controller, method⟩ := names
      have hinsert := insert g.groups controller method e
      simp only [Grouping.add, he]
      split <;> exact hinsert

theorem foldl_add (separator : String) (g : Grouping) (entries : List Entry) :
    g.groups.Grows (entries.foldl (Grouping.add separator) g).groups := by
  induction entries generalizing g with
  | nil => exact refl _
  | cons entry entries ih => exact (add separator g entry).trans (ih _)

end Groups.Grows

namespace ApiDocument

variable {d e : ApiDocument}

theorem prefix_entries (h : d.paths <+: e.paths) : d.entries <+: e.entries := by
  obtain ⟨more, hmore⟩ := h
  unfold entries
  rw [← hmore, List.flatMap_append]
  exact List.prefix_append _ _

theorem grows_group (h : d.paths <+: e.paths) (config : Config) :
    (d.group config).groups.Grows (e.group config).groups := by
  obtain ⟨more, hmore⟩ := prefix_entries h
  have hgroup : e.group config =
      more.foldl (Grouping.add config.operationIdSeparator) (d.group config) := by
    unfold group
    rw [← hmore, List.foldl_append]
  rw [hgroup]
  exact .foldl_add _ _ _

theorem prefix_accepted (h : d.paths <+: e.paths) (separator : String) :
    d.accepted separator <+: e.accepted separator := by
  have hendpoints := (prefix_entries h).filterMap Entry.endpoint?
  rw [filterMap_entries, filterMap_entries] at hendpoints
  exact hendpoints.filter _

end ApiDocument

namespace Script

/-- The first groups of `new` are those of `old`, and the first methods of each are those it had,
declared as they were. -/
def GroupsKept (old new : Table (List ArrowMethod)) : Prop :=
  ∃ kept added, new = kept ++ added ∧
    List.Forall₂ (fun g h => g.1 = h.1 ∧ g.2 <+: h.2) old kept

def File.ImportsFrom (f : File) (module symbol : String) : Prop :=
  ∃ i ∈ f.imports, i.module = module ∧ symbol ∈ i.symbols

end Script

open Client Script

namespace ApiDocument

variable {d e : ApiDocument} {config : Config}

theorem shownGroups_eq (doc : ApiDocument) (config : Config) :
    shownGroups (clientClass config (doc.clientParts config).controllers).members =
      (doc.group config).groups.controllers.map fun p =>
        (p.1, p.2.map fun q => (makeMethod config p.1 q.1 q.2).value) := by
  rw [shownGroups_clientClass]
  simp only [clientParts, Groups.makeControllers, List.map_map, Function.comp_def,
    makeController_methods]
  rfl

/-- A method is made of its endpoint, its name and its controller, and these stay. -/
theorem groupsKept_clientParts (h : d.paths <+: e.paths) (config : Config) :
    GroupsKept (shownGroups (clientClass config (d.clientParts config).controllers).members)
      (shownGroups (clientClass config (e.clientParts config).controllers).members) := by
  have hgrows := grows_group h config
  have hd := (d.sorted_group config).controllers_eq
  have he := (e.sorted_group config).controllers_eq
  rw [← (d.sorted_group config).keys] at hd
  rw [← (e.sorted_group config).keys] at he
  obtain ⟨more, hmore⟩ := hgrows.keys
  rw [← hmore, List.map_append] at he
  rw [shownGroups_eq, shownGroups_eq, hd, he, List.map_append]
  refine ⟨_, _, rfl, ?_⟩
  rw [List.map_map, List.map_map, List.forall₂_map_left_iff, List.forall₂_map_right_iff,
    List.forall₂_same]
  intro c _
  exact ⟨rfl, (hgrows.methods c).map _⟩

theorem importsFrom_file_iff {doc : ApiDocument} {m s : String} :
    (doc.file config).ImportsFrom m s ↔ (doc.clientParts config).imports.Has m s := by
  simp only [File.ImportsFrom, imports_file, importDecls, List.mem_map, exists_exists_and_eq_and]
  rfl

theorem Refers.extend {model : String} (hr : d.Refers config model) (h : d.paths <+: e.paths) :
    e.Refers config model := by
  obtain ⟨a, ha, hmodel⟩ := hr
  exact ⟨a, (prefix_accepted h _).subset ha, hmodel⟩

theorem Sends.extend {model : String} (hs : d.Sends config model) (h : d.paths <+: e.paths) :
    e.Sends config model := by
  obtain ⟨a, ha, hmodel⟩ := hs
  exact ⟨a, (prefix_accepted h _).subset ha, hmodel⟩

theorem importsFrom_extend (h : d.paths <+: e.paths) {m s : String}
    (hi : (d.file config).ImportsFrom m s) : (e.file config).ImportsFrom m s := by
  rw [importsFrom_file_iff, has_imports_iff] at hi ⊢
  rcases hi with ⟨hr, hm⟩ | ⟨model, hs, hv⟩
  · exact .inl ⟨hr.extend h, hm⟩
  · exact .inr ⟨model, hs.extend h, hv⟩

/-- Unless it is told to be strict, a run makes of a document with more paths behind its own a
client with the same groups in front, the same methods in front of each, and every import there
was. -/
theorem extended_client_keeps (h : config.validate = .ok ())
    (hpolicy : config.onInvalidOperationId = .skip) (hpaths : d.paths <+: e.paths) :
    ∃ old new oldClass newClass,
      d.generateClient config = .ok old ∧ e.generateClient config = .ok new ∧
      old.code = (d.file config).text ∧ new.code = (e.file config).text ∧
      (d.file config).class? config.clientName = some oldClass ∧
      (e.file config).class? config.clientName = some newClass ∧
      GroupsKept (shownGroups oldClass.members) (shownGroups newClass.members) ∧
      ∀ m s, (d.file config).ImportsFrom m s → (e.file config).ImportsFrom m s := by
  have hc := Config.validate_eq_ok_iff.1 h
  exact ⟨_, _, _, _, d.generateClient_of_skip h hpolicy, e.generateClient_of_skip h hpolicy,
    rfl, rfl, d.class?_file hc, e.class?_file hc, groupsKept_clientParts hpaths config,
    fun _ _ => importsFrom_extend hpaths⟩

end ApiDocument

/-- Behind the paths of `crowdedDocument`, whose names were made up for some methods, come a new
controller and one more method of a name that is taken twice. -/
def extendedDocument : ApiDocument where
  paths := crowdedDocument.paths ++ [
    ("/lions", {
      operations := [
        (.get, { operationId := some "Lions_list" }),
        (.put, { operationId := some "Cats_list" })] })]

theorem extended_client_keeps_extendedDocument :
    ({} : Config).validate = .ok () ∧ ({} : Config).onInvalidOperationId = .skip ∧
      crowdedDocument.paths <+: extendedDocument.paths ∧
      ∃ oldClass newClass,
        (crowdedDocument.file {}).class? ({} : Config).clientName = some oldClass ∧
        (extendedDocument.file {}).class? ({} : Config).clientName = some newClass ∧
        ((shownGroups oldClass.members).map fun g => (g.1, g.2.map ArrowMethod.name)) =
          [("Cats", ["list", "list_2", "list_2_2"]), ("Dogs", ["list"])] ∧
        ((shownGroups newClass.members).map fun g => (g.1, g.2.map ArrowMethod.name)) =
          [("Cats", ["list", "list_2", "list_2_2", "list_3"]), ("Dogs", ["list"]),
            ("Lions", ["list"])] ∧
        GroupsKept (shownGroups oldClass.members) (shownGroups newClass.members) := by
  have hpaths : crowdedDocument.paths <+: extendedDocument.paths := List.prefix_append _ _
  obtain ⟨_, _, oldClass, newClass, _, _, _, _, hold, hnew, hkept, _⟩ :=
    ApiDocument.extended_client_keeps Config.validate_default rfl hpaths
  have hc := Config.validate_eq_ok_iff.1 Config.validate_default
  have holdClass := Option.some.inj (hold.symm.trans (crowdedDocument.class?_file hc))
  have hnewClass := Option.some.inj (hnew.symm.trans (extendedDocument.class?_file hc))
  refine ⟨rfl, rfl, hpaths, oldClass, newClass, hold, hnew, ?_, ?_, hkept⟩
  · rw [holdClass]
    decide +kernel
  · rw [hnewClass]
    decide +kernel

end ClientGen
