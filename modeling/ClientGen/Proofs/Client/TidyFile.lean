import ClientGen.Proofs.Client.ArgumentFields
import ClientGen.Proofs.Script.LayoutLevel
import ClientGen.Proofs.Script.NeatLayout

namespace ClientGen

namespace Client

open Script
open Script.Layout (Neat)
open Text (isIdentifier)

theorem wellNamed_argumentFields (context : String) (e : Endpoint) :
    ∀ f ∈ (argumentFields context e).value, f.type.WellNamed := by
  rw [argumentFields_eq]
  exact List.forall_mem_append.2
    ⟨List.forall_mem_map.2 fun p _ => wellNamed_fieldType p,
      List.forall_mem_map.2 fun name _ => wellNamed_placeholderField name⟩

theorem wellNamed_queryArgument {fields : List Field} (h : ∀ f ∈ fields, f.type.WellNamed)
    (hasData : Bool) : ∀ p ∈ queryArgument fields hasData, p.WellNamed := by
  intro p hp
  unfold queryArgument at hp
  split at hp
  · cases hp
  · cases hp
    exact wellNamed_plainParam isIdentifier_queryName (.object h) _

theorem neat_makeMethod {config : Config} (hc : config.Accepted) (controller name : String)
    (e : Endpoint) : Neat (makeMethod config controller name e).value.layout := by
  rw [makeMethod_value]
  have hfields := wellNamed_argumentFields (methodContext controller name e) e
  have hdata := wellNamed_bodyArgument hc (methodContext controller name e) e.operation
  apply ArrowMethod.neat_layout
  · refine List.forall_mem_append.2 ⟨fun p hp => ?_, ?_⟩
    · exact wellNamed_queryArgument hfields _ p (Option.mem_toList.1 hp)
    · cases hd : bodyArgument config (methodContext controller name e) e.operation with
      | none => simp
      | some data => exact wellNamed_dataArguments (hdata data hd)
  · exact RequestCall.neat_layout (wellNamed_call _ _ _ _ hdata)

theorem isIdentifier_ownGroupName {name : String} (h : isIdentifier name = true) :
    isIdentifier (ownGroupName name) = true :=
  Text.isIdentifier_append (by decide) (Text.continuesIdentifier_of_isIdentifier h)

theorem neat_groupMembers {c : Controller} (hname : isIdentifier c.name = true)
    (hmethods : ∀ m ∈ c.methods, Neat m.layout) : ∀ m ∈ groupMembers c, Neat m.layout := by
  have hown := isIdentifier_ownGroupName hname
  have hthis : OneLine "this." := by decide
  have hread : (TypeTerm.typeOf ("this." ++ ownGroupName c.name)).WellNamed := by
    have hpath : "this." ++ ownGroupName c.name =
        Text.joinWith "." ["this", ownGroupName c.name] := by
      have hdot : "this." = "this" ++ "." := by decide
      rw [hdot]
      rfl
    rw [hpath]
    refine .typeOf (List.cons_ne_nil _ _) ?_
    simpa using ⟨by decide, hown⟩
  simp only [groupMembers, List.forall_mem_cons]
  refine ⟨?_, ?_, by simp⟩
  · refine Property.neat_layout hown (by simp) (by simp) ?_
    rintro ms ⟨⟩
    exact hmethods
  · refine Property.neat_layout hname ?_ ?_ (by simp)
    · simpa using wellNamed_generic (by decide) hread
    · rintro e ⟨⟩
      exact hthis.append (.of_isIdentifier hown)

theorem neat_clientClass {config : Config} (hc : config.Accepted) {cs : List Controller}
    (h : ∀ c ∈ cs, isIdentifier c.name = true ∧ ∀ m ∈ c.methods, Neat m.layout) :
    Neat (clientClass config cs).layout := by
  refine ClassDeclaration.neat_layout (.of_isIdentifier hc.clientName) ?_ ?_
  · simpa [clientClass] using OneLine.of_isIdentifier hc.baseClassName
  · refine List.forall_mem_cons.2 ⟨wellFormed_clientConstructor.neat_layout, fun m hm => ?_⟩
    obtain ⟨c, hc, hm⟩ := List.mem_flatMap.1 hm
    exact neat_groupMembers (h c hc).1 (h c hc).2 m hm

end Client

open Client Script
open Script.Layout (Neat)

theorem ApiDocument.neat_controllers (doc : ApiDocument) {config : Config} (hc : config.Accepted) :
    ∀ c ∈ (doc.clientParts config).controllers,
      Text.isIdentifier c.name = true ∧ ∀ m ∈ c.methods, Neat m.layout := by
  simp only [clientParts, Groups.makeControllers, List.map_map]
  refine List.forall_mem_map.2 fun p hp => ⟨isIdentifier_of_mem_group hp, ?_⟩
  dsimp only [Function.comp_apply]
  rw [makeController_methods]
  exact List.forall_mem_map.2 fun q _ => neat_makeMethod hc p.1 q.1 q.2

theorem ApiDocument.tidy_file (doc : ApiDocument) {config : Config} (hc : config.Accepted) :
    Tidy (doc.file config).text := by
  apply File.tidy_text (by rw [classes_file]; exact List.cons_ne_nil _ _)
  apply File.neat_code
  · exact fun i hi => Import.neat_layout fun s hs =>
      .of_continuesIdentifier (doc.continuesIdentifier_of_mem_importDecls hc hi hs)
  · exact fun i hi => (wellNamed_fixedInterfaces i hi).neat_layout
  · exact fun f hf => (wellFormed_fixedFunctions f hf).neat_layout
  · rw [classes_file, List.forall_mem_cons, List.forall_mem_singleton]
    exact ⟨neat_baseClass hc.baseClassName, neat_clientClass hc (doc.neat_controllers hc)⟩

/-- Everything that is written leaves the level of indentation as it finds it and steps back only
from a higher one. Under an accepted configuration the code of a run is not empty, ends with one
line feed and has no two blank lines next to each other; and only a strict run makes none, for the
id of an operation. -/
theorem keepsLevel_and_tidy :
    (∀ l, Written l → l.KeepsLevel) ∧
    (∀ f : File, f.layout.KeepsLevel) ∧
    ∀ (doc : ApiDocument) (config : Config), config.validate = .ok () →
      (∃ client, doc.generateClient config = .ok client ∧ Tidy client.code) ∨
        config.onInvalidOperationId = .abort ∧ ∃ path verb id diagnostics,
          doc.generateClient config =
            .error (.invalidOperationId path verb id config.operationIdSeparator diagnostics) := by
  refine ⟨fun l hl => hl.nested.keepsLevel, fun f => f.nested_layout.keepsLevel,
    fun doc config h => ?_⟩
  have htidy := doc.tidy_file (Config.validate_eq_ok_iff.1 h)
  rw [doc.generateClient_eq h]
  cases hs : strictFailure? config (doc.clientParts config).diagnostics with
  | none => exact .inl ⟨doc.client config, rfl, htidy⟩
  | some e =>
    obtain ⟨hpolicy, path, verb, id, _, rfl⟩ := strictFailure?_eq_some hs
    exact .inr ⟨hpolicy, path, verb, id, _, rfl⟩

theorem keepsLevel_and_tidy_hostileDocument :
    Written (clientClass {} (hostileDocument.clientParts {}).controllers).layout ∧
      (clientClass {} (hostileDocument.clientParts {}).controllers).layout.KeepsLevel ∧
      (hostileDocument.file {}).layout.KeepsLevel ∧
      ({} : Config).validate = .ok () ∧
      ∃ client, hostileDocument.generateClient {} = .ok client ∧ Tidy client.code := by
  obtain ⟨hwritten, hfile, htidy⟩ := keepsLevel_and_tidy
  have hclass := Written.classDeclaration
    (clientClass {} (hostileDocument.clientParts {}).controllers)
  refine ⟨hclass, hwritten _ hclass, hfile _, rfl, ?_⟩
  exact (htidy hostileDocument {} rfl).resolve_right fun h => nomatch h.1

end ClientGen
