import ClientGen.Proofs.Endpoint.Accepted
import ClientGen.Proofs.Table
import ClientGen.Proofs.Text.Name

namespace ClientGen

theorem flatMap_filter_perm {α : Type} {keys : List String} (h : keys.Nodup)
    (key? : α → Option String) {l : List α} (hl : ∀ a ∈ l, ∀ c, key? a = some c → c ∈ keys) :
    (keys.flatMap fun c => l.filter fun a => key? a == some c).Perm
      (l.filter fun a => (key? a).isSome) := by
  induction keys generalizing l with
  | nil =>
    have hnone : l.filter (fun a => (key? a).isSome) = [] := by
      rw [List.filter_eq_nil_iff]
      intro a ha hsome
      obtain ⟨c, hc⟩ := Option.isSome_iff_exists.1 hsome
      exact absurd (hl a ha c hc) List.not_mem_nil
    rw [hnone]
    exact .nil
  | cons c cs ih =>
    obtain ⟨hc, hcs⟩ := List.nodup_cons.1 h
    -- what the first key leaves is sorted by the others
    set others := l.filter fun a => !(key? a == some c)
    have hothers : ∀ a ∈ others, ∀ d, key? a = some d → d ∈ cs := by
      intro a ha d hd
      obtain ⟨ha, hne⟩ := List.mem_filter.1 ha
      rcases List.mem_cons.1 (hl a ha d hd) with rfl | hmem
      · simp [hd] at hne
      · exact hmem
    have hrest : (cs.flatMap fun d => l.filter fun a => key? a == some d) =
        cs.flatMap fun d => others.filter fun a => key? a == some d := by
      apply List.flatMap_congr
      intro d hd
      rw [List.filter_filter]
      apply List.filter_congr
      intro a _
      by_cases had : key? a = some d
      · have hdc : d ≠ c := fun heq => hc (heq ▸ hd)
        simp [had, hdc]
      · simp [had]
    rw [List.flatMap_cons, hrest]
    apply ((ih hcs hothers).append_left _).trans
    have hsplit := List.filter_append_perm (fun a => key? a == some c)
      (l.filter fun a => (key? a).isSome)
    rw [List.filter_filter, List.filter_filter] at hsplit
    have hfirst : (l.filter fun a => (key? a == some c) && (key? a).isSome) =
        l.filter fun a => key? a == some c := by
      apply List.filter_congr
      intro a _
      cases key? a <;> simp
    rw [hfirst] at hsplit
    rw [List.filter_filter]
    simpa only [Bool.and_comm] using hsplit

theorem Groups.methods_insert (g : Groups) (controller method : String) (e : Endpoint) :
    (g.insert controller method e).methods controller =
      g.methods controller ++ [(g.storedName controller method, e)] := by
  have hput := Table.put_of_not_mem (Text.freeName_not_mem (g.methods controller).keys method) e
  unfold methods insert
  rw [Table.get?_put_self]
  exact hput

theorem Groups.methods_insert_of_ne (g : Groups) {controller other : String}
    (h : other ≠ controller) (method : String) (e : Endpoint) :
    (g.insert controller method e).methods other = g.methods other := by
  unfold methods insert
  rw [Table.get?_put_of_ne _ h]

theorem eraseDups_snoc (cs : List String) (c : String) :
    (cs ++ [c]).eraseDups = if c ∈ cs.eraseDups then cs.eraseDups else cs.eraseDups ++ [c] := by
  rw [List.eraseDups_append]
  by_cases h : c ∈ cs <;> simp [List.removeAll, List.mem_eraseDups, List.eraseDups_cons, h]

@[simp] theorem Grouping.groups_report (g : Grouping) (d : Diagnostic) :
    (g.report d).groups = g.groups := rfl

/-- The groups hold these operations, of each controller and of all in the order in which they
were first seen, and in no group a name twice. -/
structure Sorted (separator : String) (es : List Endpoint) (g : Groups) : Prop where
  keys : g.controllers.keys = (es.filterMap (·.controller? separator)).eraseDups
  nodup_keys : g.controllers.keys.Nodup
  endpoints (c : String) :
    (g.methods c).map Prod.snd = es.filter fun e => e.controller? separator == some c
  nodup_names (c : String) : (g.methods c).keys.Nodup

namespace Sorted

variable {separator : String} {es : List Endpoint} {g : Groups}

theorem empty (separator : String) : Sorted separator [] {} where
  keys := rfl
  nodup_keys := List.nodup_nil
  endpoints _ := rfl
  nodup_names _ := List.nodup_nil

theorem insert (h : Sorted separator es g) {e : Endpoint} {controller method : String}
    (he : e.operation.names? separator = some (controller, method)) :
    Sorted separator (es ++ [e]) (g.insert controller method e) where
  keys := by
    have hc : e.controller? separator = some controller := by simp [Endpoint.controller?, he]
    rw [List.filterMap_append, List.filterMap_cons_some hc, List.filterMap_nil, eraseDups_snoc,
      ← h.keys]
    exact Table.keys_put _ _ _
  nodup_keys := Table.nodup_keys_put h.nodup_keys _ _
  endpoints c := by
    have hc : e.controller? separator = some controller := by simp [Endpoint.controller?, he]
    rw [List.filter_append, ← h.endpoints c]
    by_cases heq : c = controller
    · subst heq
      rw [Groups.methods_insert]
      simp [hc]
    · rw [Groups.methods_insert_of_ne _ heq]
      simp [hc, Ne.symm heq]
  nodup_names c := by
    by_cases heq : c = controller
    · subst heq
      have hfree := Text.freeName_not_mem (g.methods c).keys method
      rw [Groups.methods_insert, Groups.storedName, ← Table.put_of_not_mem hfree e]
      exact Table.nodup_keys_put (h.nodup_names c) _ _
    · rw [Groups.methods_insert_of_ne _ heq]
      exact h.nodup_names c

theorem reject (h : Sorted separator es g) {e : Endpoint}
    (he : e.operation.names? separator = none) : Sorted separator (es ++ [e]) g where
  keys := by
    have hc : e.controller? separator = none := by simp [Endpoint.controller?, he]
    rw [List.filterMap_append, List.filterMap_cons_none hc, List.filterMap_nil, List.append_nil,
      h.keys]
  nodup_keys := h.nodup_keys
  endpoints c := by
    have hc : e.controller? separator = none := by simp [Endpoint.controller?, he]
    rw [List.filter_append, h.endpoints c]
    simp [hc]
  nodup_names := h.nodup_names

theorem add {g : Grouping} (h : Sorted separator es g.groups) (entry : Entry) :
    Sorted separator (es ++ entry.endpoint?.toList) (g.add separator entry).groups := by
  cases entry with
  | unsupported path verb => simpa [Entry.endpoint?, Grouping.add] using h
  | operation e =>
    cases he : e.operation.names? separator with
    | none => simpa [Entry.endpoint?, Grouping.add, he] using h.reject he
    | some names =>
      obtain ⟨controller, method⟩ := names
      have hinsert := h.insert he
      simp only [Grouping.add, he, Entry.endpoint?, Option.toList_some]
      split <;> exact hinsert

theorem foldl_add {g : Grouping} (h : Sorted separator es g.groups) (entries : List Entry) :
    Sorted separator (es ++ entries.filterMap Entry.endpoint?)
      (entries.foldl (Grouping.add separator) g).groups := by
  induction entries generalizing es g with
  | nil => simpa using h
  | cons entry entries ih =>
    have hrest := ih (h.add entry)
    rw [List.append_assoc] at hrest
    cases he : entry.endpoint? <;> simpa [he] using hrest

theorem controllers_eq (h : Sorted separator es g) :
    g.controllers =
      (es.filterMap (·.controller? separator)).eraseDups.map fun c => (c, g.methods c) := by
  rw [← h.keys]
  exact Table.eq_map_get? h.nodup_keys []

theorem methods_of_mem (h : Sorted separator es g) {c : String}
    {methods : Table Endpoint} (hc : (c, methods) ∈ g.controllers) : g.methods c = methods := by
  rw [h.controllers_eq] at hc
  obtain ⟨_, _, heq⟩ := List.mem_map.1 hc
  cases heq
  rfl

theorem exists_controller? (h : Sorted separator es g) {c : String} {methods : Table Endpoint}
    (hc : (c, methods) ∈ g.controllers) : ∃ e ∈ es, e.controller? separator = some c := by
  have hkey : c ∈ g.controllers.keys := List.mem_map.2 ⟨_, hc, rfl⟩
  rw [h.keys, List.mem_eraseDups, List.mem_filterMap] at hkey
  exact hkey

theorem perm (h : Sorted separator es g) :
    (g.controllers.flatMap fun p => p.2.map Prod.snd).Perm
      (es.filter fun e => (e.controller? separator).isSome) := by
  have hgroups : (g.controllers.flatMap fun p => p.2.map Prod.snd) =
      g.controllers.keys.flatMap fun c => es.filter fun e => e.controller? separator == some c := by
    conv => lhs; rw [h.controllers_eq]
    rw [h.keys, List.flatMap_map]
    simp only [h.endpoints]
  rw [hgroups]
  apply flatMap_filter_perm h.nodup_keys
  intro e he c hc
  rw [h.keys, List.mem_eraseDups]
  exact List.mem_filterMap.2 ⟨e, he, hc⟩

end Sorted

theorem ApiDocument.sorted_group (doc : ApiDocument) (config : Config) :
    Sorted config.operationIdSeparator doc.endpoints (doc.group config).groups := by
  have h := (Sorted.empty config.operationIdSeparator).foldl_add (g := {}) doc.entries
  rw [doc.filterMap_entries] at h
  exact h

theorem ApiDocument.isIdentifier_of_mem_group {doc : ApiDocument} {config : Config} {c : String}
    {methods : Table Endpoint} (h : (c, methods) ∈ (doc.group config).groups.controllers) :
    Text.isIdentifier c = true := by
  obtain ⟨_, _, he⟩ := (doc.sorted_group config).exists_controller? h
  exact Endpoint.isIdentifier_of_controller? he

theorem ApiDocument.mem_accepted_iff {doc : ApiDocument} {config : Config} {e : Endpoint} :
    e ∈ doc.accepted config.operationIdSeparator ↔
      ∃ c methods, (c, methods) ∈ (doc.group config).groups.controllers ∧
        ∃ name, (name, e) ∈ methods := by
  have hperm := (doc.sorted_group config).perm.mem_iff (a := e)
  rw [accepted, ← hperm]
  simp only [List.mem_flatMap, List.mem_map, Prod.exists, exists_eq_right]

def Entry.rejections (separator : String) (entry : Entry) : List Diagnostic :=
  (entry.endpoint?.toList.filter fun e => !(e.controller? separator).isSome).map Endpoint.rejection

theorem Grouping.filter_diagnostics_add (separator : String) (g : Grouping) (entry : Entry) :
    (g.add separator entry).diagnostics.filter Diagnostic.isInvalidOperationId =
      g.diagnostics.filter Diagnostic.isInvalidOperationId ++ entry.rejections separator := by
  cases entry with
  | unsupported path verb =>
    simp [add, report, Entry.rejections, Entry.endpoint?, Diagnostic.isInvalidOperationId]
  | operation e =>
    cases he : e.operation.names? separator with
    | none =>
      simp [add, report, Entry.rejections, Entry.endpoint?, Diagnostic.isInvalidOperationId,
        Endpoint.controller?, Endpoint.rejection, he]
    | some names =>
      obtain ⟨controller, method⟩ := names
      simp only [add, he]
      split <;>
        simp [report, Entry.rejections, Entry.endpoint?, Diagnostic.isInvalidOperationId,
          Endpoint.controller?, he]

theorem Grouping.filter_diagnostics_foldl (separator : String) (g : Grouping)
    (entries : List Entry) :
    (entries.foldl (add separator) g).diagnostics.filter Diagnostic.isInvalidOperationId =
      g.diagnostics.filter Diagnostic.isInvalidOperationId
        ++ entries.flatMap (·.rejections separator) := by
  induction entries generalizing g with
  | nil => simp
  | cons entry entries ih =>
    rw [List.foldl_cons, ih, filter_diagnostics_add, List.flatMap_cons, List.append_assoc]

/-- Each operation left out is reported once, in the order of the document. -/
theorem ApiDocument.filter_diagnostics_group (doc : ApiDocument) (config : Config) :
    (doc.group config).diagnostics.filter Diagnostic.isInvalidOperationId =
      (doc.rejected config.operationIdSeparator).map Endpoint.rejection := by
  have hfold := Grouping.filter_diagnostics_foldl config.operationIdSeparator {} doc.entries
  apply hfold.trans
  rw [List.filter_nil, List.nil_append, rejected, ← doc.filterMap_entries]
  induction doc.entries with
  | nil => rfl
  | cons entry entries ih =>
    rw [List.flatMap_cons, ih]
    cases he : entry.endpoint? with
    | none => simp [Entry.rejections, he]
    | some e =>
      rw [List.filterMap_cons_some he, Entry.rejections, he, ← List.map_append,
        ← List.filter_append]
      rfl

end ClientGen
