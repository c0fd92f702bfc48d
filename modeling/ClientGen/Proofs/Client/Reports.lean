import ClientGen.Proofs.Client.ArgumentFields
import ClientGen.Proofs.Text.Split
/-! Which reports of a run are about which method. The text by which a report names a method belongs
to that method alone, so what is reported under it is what came along with the method. -/
namespace ClientGen

open Client Script

def Diagnostic.context? : Diagnostic → Option String
  | .unresolvableReference _ context => some context
  | .unclassifiedModel _ context => some context
  | .untypedBody context => some context
  | .skippedParameter context _ _ => some context
  | _ => none

namespace Grouping

variable {separator : String} {g : Grouping}

theorem isIdentifier_of_mem_add {c : String}
    (h : ∀ p ∈ g.groups.methods c, Text.isIdentifier p.1 = true) (entry : Entry) :
    ∀ p ∈ (g.add separator entry).groups.methods c, Text.isIdentifier p.1 = true := by
  cases entry with
  | unsupported path verb => exact h
  | operation e =>
    cases he : e.operation.names? separator with
    | none => simpa only [add, he, groups_report] using h
    | some n =>
      obtain ⟨d, m⟩ := n
      obtain ⟨id, _, hhalves, _⟩ := Operation.names?_eq_some_iff.1 he
      have hinsert : ∀ p ∈ (g.groups.insert d m e).methods c, Text.isIdentifier p.1 = true := by
        by_cases hd : c = d
        · subst hd
          have hname : Text.isIdentifier (g.groups.storedName c m) = true :=
            Text.isIdentifier_freeName (halvesOfId_eq_some hhalves).2.1 _
          rw [Groups.methods_insert]
          exact List.forall_mem_append.2 ⟨h, List.forall_mem_singleton.2 hname⟩
        · rwa [Groups.methods_insert_of_ne _ hd]
      simp only [add, he]
      split <;> exact hinsert

theorem context?_of_mem_add (h : ∀ d ∈ g.diagnostics, d.context? = none) (entry : Entry) :
    ∀ d ∈ (g.add separator entry).diagnostics, d.context? = none := by
  have hreport : ∀ (k : Grouping) (d : Diagnostic), k.diagnostics = g.diagnostics →
      d.context? = none → ∀ r ∈ (k.report d).diagnostics, r.context? = none := by
    intro k d hk hd
    rw [report, hk]
    exact List.forall_mem_append.2 ⟨h, List.forall_mem_singleton.2 hd⟩
  cases entry with
  | unsupported path verb => exact hreport g _ rfl rfl
  | operation e =>
    cases he : e.operation.names? separator with
    | none =>
      simp only [add, he]
      exact hreport g _ rfl rfl
    | some n =>
      simp only [add, he]
      split
      · exact h
      · exact hreport _ _ rfl rfl

end Grouping

namespace ApiDocument

variable (doc : ApiDocument) (config : Config)

theorem isIdentifier_of_mem_methods (c : String) :
    ∀ p ∈ (doc.group config).groups.methods c, Text.isIdentifier p.1 = true :=
  List.foldlRecOn
    (motive := fun g : Grouping => ∀ p ∈ g.groups.methods c, Text.isIdentifier p.1 = true)
    doc.entries _ (fun _ hp => absurd hp List.not_mem_nil)
    fun _ h entry _ => Grouping.isIdentifier_of_mem_add h entry

theorem context?_of_mem_group : ∀ d ∈ (doc.group config).diagnostics, d.context? = none :=
  List.foldlRecOn (motive := fun g : Grouping => ∀ d ∈ g.diagnostics, d.context? = none)
    doc.entries _ (fun _ hd => absurd hd List.not_mem_nil)
    fun _ h entry _ => Grouping.context?_of_mem_add h entry

end ApiDocument

theorem Text.not_mem_of_isIdentifier {name : String} (h : isIdentifier name = true) {c : Char}
    (hc : continuesIdentifier c = false) : c ∉ name.toList := by
  intro hmem
  rw [continuesIdentifier_of_isIdentifier h c hmem] at hc
  cases hc

namespace Client

theorem methodContext_inj {c c' m m' : String} {e e' : Endpoint}
    (hc : Text.isIdentifier c = true) (hc' : Text.isIdentifier c' = true)
    (hm : Text.isIdentifier m = true) (hm' : Text.isIdentifier m' = true)
    (h : methodContext c m e = methodContext c' m' e') : c = c' ∧ m = m' := by
  have hchars : ∀ (c m : String) (e : Endpoint), (methodContext c m e).toList =
      c.toList ++ '.' :: (m.toList ++ ' ' :: ('(' :: (e.place.toList ++ [')']))) := by
    intro c m e
    simp [methodContext]
  have hdot : Text.continuesIdentifier '.' = false := by decide
  have hblank : Text.continuesIdentifier ' ' = false := by decide
  have hlist := congrArg String.toList h
  rw [hchars, hchars] at hlist
  obtain ⟨hcontroller, hrest⟩ := Text.append_cons_inj (Text.not_mem_of_isIdentifier hc hdot)
    (Text.not_mem_of_isIdentifier hc' hdot) hlist
  obtain ⟨hmethod, _⟩ := Text.append_cons_inj (Text.not_mem_of_isIdentifier hm hblank)
    (Text.not_mem_of_isIdentifier hm' hblank) hrest
  exact ⟨String.toList_inj.1 hcontroller, String.toList_inj.1 hmethod⟩

theorem context?_of_mem_makeMethod {config : Config} {controller name : String} {e : Endpoint}
    {d : Diagnostic} (h : d ∈ (makeMethod config controller name e).diagnostics) :
    d.context? = none ∨ d.context? = some (methodContext controller name e) := by
  rcases cases_of_mem_makeMethod h with htype | ⟨p, -, rfl⟩ | ⟨_, rfl⟩
  · cases htype <;> exact .inr rfl
  · exact .inr rfl
  · exact .inl rfl

end Client

namespace ApiDocument

variable {doc : ApiDocument} {config : Config}

/-- The reports of a run that name a method are those that came along with it. -/
theorem filter_context?_clientParts {c : String} {methods : Table Endpoint}
    (hc : (c, methods) ∈ (doc.group config).groups.controllers) {name : String} {e : Endpoint}
    (he : (name, e) ∈ methods) :
    (doc.clientParts config).diagnostics.filter (·.context? == some (methodContext c name e)) =
      (makeMethod config c name e).diagnostics.filter
        (·.context? == some (methodContext c name e)) := by
  have hs := doc.sorted_group config
  have hmethods := hs.methods_of_mem hc
  set context := methodContext c name e
  -- nothing that came along with another method names this one
  have hother : ∀ d methods', (d, methods') ∈ (doc.group config).groups.controllers →
      ∀ m e', (m, e') ∈ methods' → ¬ (d = c ∧ m = name) →
        (makeMethod config d m e').diagnostics.filter (·.context? == some context) = [] := by
    intro d methods' hd m e' hm hne
    rw [List.filter_eq_nil_iff]
    intro r hr hcontext
    have hcontext : r.context? = some context := by simpa using hcontext
    rcases context?_of_mem_makeMethod hr with hnone | hsome
    · rw [hnone] at hcontext
      cases hcontext
    · rw [hsome] at hcontext
      rw [← hs.methods_of_mem hd] at hm
      rw [← hmethods] at he
      exact hne (methodContext_inj (isIdentifier_of_mem_group hd) (isIdentifier_of_mem_group hc)
        (doc.isIdentifier_of_mem_methods config d _ hm)
        (doc.isIdentifier_of_mem_methods config c _ he) (Option.some.inj hcontext))
  have hsorting : (doc.group config).diagnostics.filter (·.context? == some context) = [] := by
    rw [List.filter_eq_nil_iff]
    intro r hr
    simp [doc.context?_of_mem_group config r hr]
  unfold clientParts
  simp only [Groups.makeControllers, List.flatMap_map, makeController_diagnostics]
  rw [List.filter_append, hsorting, List.nil_append, List.filter_flatMap,
    Table.flatMap_of_mem hs.nodup_keys hc, List.filter_flatMap,
    Table.flatMap_of_mem (hmethods ▸ hs.nodup_names c) he]
  · exact fun q hq hne => hother c methods hc q.1 q.2 hq fun h => hne h.2
  · intro p hp hne
    rw [List.filter_flatMap, List.flatMap_eq_nil_iff]
    exact fun q hq => hother p.1 p.2 hp q.1 q.2 hq fun h => hne h.1

end ApiDocument

end ClientGen
