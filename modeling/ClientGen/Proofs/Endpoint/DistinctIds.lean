import ClientGen.Proofs.Endpoint.Ids
import ClientGen.Proofs.Endpoint.Sorting

namespace ClientGen

/-- The controllers and methods that operations ask for, where they can be made at all. -/
def askedNames (separator : String) (es : List Endpoint) : List (String × String) :=
  es.filterMap fun e => e.operation.names? separator

def ApiDocument.acceptedIds (doc : ApiDocument) (separator : String) : List String :=
  (doc.accepted separator).filterMap (·.operation.operationId)

def Groups.names (g : Groups) : Table (List String) := g.controllers.mapValues Table.keys

/-- The controllers, and the methods of each, in the order in which the ids name them first. -/
def namesOfIds (separator : String) (ids : List String) : Table (List String) :=
  let halves := ids.filterMap (halvesOfId separator)
  (halves.map Prod.fst).eraseDups.map fun c => (c, (halves.filter (·.1 == c)).map Prod.snd)

def idsOfNames (separator : String) (names : Table (List String)) : List String :=
  names.flatMap fun p => p.2.map fun method => p.1 ++ separator ++ method

section Asked

variable (separator : String)

theorem Operation.operationId_of_names? {separator : String} {op : Operation} {c m : String}
    (h : op.names? separator = some (c, m)) : op.operationId = some (c ++ separator ++ m) := by
  obtain ⟨id, hid, hhalves, _⟩ := Operation.names?_eq_some_iff.1 h
  rw [hid, (halvesOfId_eq_some hhalves).2.2]

theorem acceptedIds_eq_map_askedNames (doc : ApiDocument) :
    doc.acceptedIds separator =
      (askedNames separator doc.endpoints).map fun n => n.1 ++ separator ++ n.2 := by
  unfold ApiDocument.acceptedIds ApiDocument.accepted askedNames
  simp only [Endpoint.controller?, Option.isSome_map]
  induction doc.endpoints with
  | nil => rfl
  | cons e es ih =>
    cases he : e.operation.names? separator with
    | none => simp [he, ih]
    | some n => simp [he, ih, Operation.operationId_of_names? he]

theorem halves_acceptedIds (doc : ApiDocument) :
    (doc.acceptedIds separator).filterMap (halvesOfId separator) =
      askedNames separator doc.endpoints := by
  have hhalves : ∀ n ∈ askedNames separator doc.endpoints,
      halvesOfId separator (n.1 ++ separator ++ n.2) = some n := by
    intro n hn
    obtain ⟨e, _, he⟩ := List.mem_filterMap.1 hn
    obtain ⟨id, _, hhalves, _⟩ := Operation.names?_eq_some_iff.1 he
    rwa [← (halvesOfId_eq_some hhalves).2.2]
  rw [acceptedIds_eq_map_askedNames, List.filterMap_map]
  calc (askedNames separator doc.endpoints).filterMap
        (halvesOfId separator ∘ fun n => n.1 ++ separator ++ n.2)
      = (askedNames separator doc.endpoints).filterMap some := List.filterMap_congr hhalves
    _ = askedNames separator doc.endpoints := List.filterMap_some

end Asked

/-- Each method has the name its operation asks for, and none is reported to be renamed. -/
structure Grouping.Literal (separator : String) (g : Grouping) : Prop where
  names : ∀ c, ∀ p ∈ g.groups.methods c, p.2.operation.names? separator = some (c, p.1)
  reports : ∀ c asked renamed path verb,
    .methodRenamed c asked renamed path verb ∉ g.diagnostics

namespace Grouping.Literal

variable {separator : String} {g : Grouping} {es : List Endpoint}

theorem empty (separator : String) : Literal separator {} where
  names _ _ hp := absurd hp List.not_mem_nil
  reports _ _ _ _ _ := List.not_mem_nil

theorem report (h : g.Literal separator) {d : Diagnostic}
    (hd : ∀ c asked renamed path verb, d ≠ .methodRenamed c asked renamed path verb) :
    (g.report d).Literal separator where
  names := h.names
  reports c asked renamed path verb hmem := by
    rcases List.mem_append.1 hmem with hmem | hmem
    · exact h.reports _ _ _ _ _ hmem
    · exact hd _ _ _ _ _ (List.mem_singleton.1 hmem).symm

theorem storedName_eq (h : g.Literal separator) (hs : Sorted separator es g.groups) {c m : String}
    (hnew : (c, m) ∉ askedNames separator es) : g.groups.storedName c m = m := by
  apply Text.freeName_of_not_mem
  intro hmem
  obtain ⟨p, hp, rfl⟩ := List.mem_map.1 hmem
  have hes : p.2 ∈ es.filter (·.controller? separator == some c) := by
    rw [← hs.endpoints c]
    exact List.mem_map_of_mem hp
  exact hnew (List.mem_filterMap.2 ⟨p.2, (List.mem_filter.1 hes).1, h.names c p hp⟩)

theorem add (h : g.Literal separator) (hs : Sorted separator es g.groups) {entry : Entry}
    (hnew : ∀ n ∈ askedNames separator entry.endpoint?.toList, n ∉ askedNames separator es) :
    (g.add separator entry).Literal separator := by
  cases entry with
  | unsupported path verb => exact h.report (by simp)
  | operation e =>
    cases he : e.operation.names? separator with
    | none =>
      simp only [Grouping.add, he]
      exact h.report (by simp)
    | some n =>
      obtain ⟨c, m⟩ := n
      have hname : g.groups.storedName c m = m :=
        h.storedName_eq hs (hnew _ (by simp [askedNames, Entry.endpoint?, he]))
      simp only [Grouping.add, he, hname, if_true]
      refine ⟨fun d p hp => ?_, h.reports⟩
      by_cases hd : d = c
      · subst hd
        rw [Groups.methods_insert, hname] at hp
        rcases List.mem_append.1 hp with hp | hp
        · exact h.names d p hp
        · rw [List.mem_singleton.1 hp]
          exact he
      · rw [Groups.methods_insert_of_ne _ hd] at hp
        exact h.names d p hp

theorem foldl_add (h : g.Literal separator) (hs : Sorted separator es g.groups)
    {entries : List Entry}
    (hn : (askedNames separator (es ++ entries.filterMap Entry.endpoint?)).Nodup) :
    (entries.foldl (Grouping.add separator) g).Literal separator := by
  induction entries generalizing es g with
  | nil => exact h
  | cons entry entries ih =>
    have hsplit : es ++ (entry :: entries).filterMap Entry.endpoint? =
        es ++ entry.endpoint?.toList ++ entries.filterMap Entry.endpoint? := by
      cases he : entry.endpoint? <;> simp [he]
    rw [hsplit] at hn
    refine ih (h.add hs fun n hfirst hbefore => ?_) (hs.add entry) hn
    simp only [askedNames, List.filterMap_append] at hn
    exact List.disjoint_of_nodup_append (List.nodup_append.1 hn).1 hbefore hfirst

end Grouping.Literal

theorem map_fst_askedNames (separator : String) (es : List Endpoint) :
    (askedNames separator es).map Prod.fst = es.filterMap (·.controller? separator) :=
  List.map_filterMap

theorem filter_askedNames (separator : String) (es : List Endpoint) (c : String) :
    (askedNames separator es).filter (·.1 == c) =
      askedNames separator (es.filter (·.controller? separator == some c)) := by
  unfold askedNames Endpoint.controller?
  induction es with
  | nil => rfl
  | cons e es ih =>
    cases he : e.operation.names? separator with
    | none => simp [he, ih]
    | some n => by_cases hc : n.1 = c <;> simp [he, ih, hc]

namespace Sorted

variable {separator : String} {es : List Endpoint} {g : Grouping}

theorem keys_methods (hs : Sorted separator es g.groups) (h : g.Literal separator) (c : String) :
    (g.groups.methods c).keys =
      ((askedNames separator es).filter (·.1 == c)).map Prod.snd := by
  rw [filter_askedNames, ← hs.endpoints c, askedNames, List.filterMap_map, List.map_filterMap]
  calc (g.groups.methods c).keys
      = (g.groups.methods c).filterMap (some ∘ Prod.fst) := (congrFun List.filterMap_eq_map _).symm
    _ = _ := List.filterMap_congr fun p hp => by simp [h.names c p hp]

theorem names_eq (hs : Sorted separator es g.groups) (h : g.Literal separator) :
    g.groups.names =
      ((askedNames separator es).map Prod.fst).eraseDups.map fun c =>
        (c, ((askedNames separator es).filter (·.1 == c)).map Prod.snd) := by
  unfold Groups.names Table.mapValues
  rw [hs.controllers_eq, List.map_map, map_fst_askedNames]
  apply List.map_congr_left
  intro c _
  rw [Function.comp_apply, hs.keys_methods h]

theorem idsOfNames_perm (hs : Sorted separator es g.groups) (h : g.Literal separator) :
    (idsOfNames separator g.groups.names).Perm
      ((askedNames separator es).map fun n => n.1 ++ separator ++ n.2) := by
  have hkeys : ((askedNames separator es).map Prod.fst).eraseDups.Nodup := by
    rw [map_fst_askedNames, ← hs.keys]
    exact hs.nodup_keys
  have hgroups := flatMap_filter_perm hkeys (fun n => some n.1) (l := askedNames separator es)
    fun n hn c hc => List.mem_eraseDups.2 (List.mem_map.2 ⟨n, hn, Option.some.inj hc⟩)
  simp only [Option.some_beq_some, Option.isSome_some, List.filter_true] at hgroups
  have hids : idsOfNames separator g.groups.names =
      (((askedNames separator es).map Prod.fst).eraseDups.flatMap fun c =>
        (askedNames separator es).filter (·.1 == c)).map fun n => n.1 ++ separator ++ n.2 := by
    rw [hs.names_eq h, idsOfNames, List.flatMap_map, List.map_flatMap]
    apply List.flatMap_congr
    intro c _
    rw [List.map_map]
    apply List.map_congr_left
    intro n hn
    rw [Function.comp_apply, eq_of_beq (List.mem_filter.1 hn).2]
  rw [hids]
  exact hgroups.map _

end Sorted

/-- Where all accepted operations have different ids, none is renamed: its id is the name of its
controller, the separator that stands first in it, and the name of its method. The names then
follow from the ids in their order, and the names give all ids back. -/
theorem ApiDocument.names_of_distinct_ids {doc : ApiDocument} {config : Config}
    (h : (doc.acceptedIds config.operationIdSeparator).Nodup) :
    (∀ c asked renamed path verb,
      .methodRenamed c asked renamed path verb ∉ (doc.group config).diagnostics) ∧
    (∀ c methods, (c, methods) ∈ (doc.group config).groups.controllers →
      ∀ name e, (name, e) ∈ methods →
        ∃ id, e.operation.operationId = some id ∧
          id = c ++ config.operationIdSeparator ++ name ∧
          ∀ before after, id.toList = before ++ config.operationIdSeparator.toList ++ after →
            c.toList.length ≤ before.length) ∧
    (doc.group config).groups.names =
      namesOfIds config.operationIdSeparator (doc.acceptedIds config.operationIdSeparator) ∧
    (idsOfNames config.operationIdSeparator (doc.group config).groups.names).Perm
      (doc.acceptedIds config.operationIdSeparator) := by
  set separator := config.operationIdSeparator
  have hs : Sorted separator doc.endpoints (doc.group config).groups := doc.sorted_group config
  have hliteral : (doc.group config).Literal separator := by
    rw [acceptedIds_eq_map_askedNames, ← doc.filterMap_entries] at h
    exact (Grouping.Literal.empty separator).foldl_add (Sorted.empty separator) h.of_map
  refine ⟨hliteral.reports, ?_, ?_, ?_⟩
  · intro c methods hc name e he
    rw [← hs.methods_of_mem hc] at he
    obtain ⟨id, hid, hhalves, _⟩ := Operation.names?_eq_some_iff.1 (hliteral.names c _ he)
    exact ⟨id, hid, (halvesOfId_eq_some hhalves).2.2,
      fun _ _ hcut => length_le_of_halvesOfId hhalves hcut⟩
  · rw [namesOfIds, halves_acceptedIds]
    exact hs.names_eq hliteral
  · rw [acceptedIds_eq_map_askedNames]
    exact hs.idsOfNames_perm hliteral

/-- Ids that differ in what looks like a number behind a taken name, and one in which the separator
stands twice, one over the other. -/
def overlappingDocument : ApiDocument where
  paths := [
    ("/cats", {
      operations := [
        (.get, { operationId := some "cats__list_2" }),
        (.put, { operationId := some "cats_list" }),
        (.post, { operationId := some "cats__list" })] }),
    ("/dogs", { operations := [(.get, { operationId := some "dogs___list" })] })]

theorem names_of_distinct_ids_overlappingDocument :
    (overlappingDocument.acceptedIds "__").Nodup ∧
      (overlappingDocument.group { operationIdSeparator := "__" }).groups.names =
        [("cats", ["list_2", "list"]), ("dogs", ["_list"])] ∧
      ∀ c asked renamed path verb, .methodRenamed c asked renamed path verb ∉
        (overlappingDocument.group { operationIdSeparator := "__" }).diagnostics := by
  have hids : overlappingDocument.acceptedIds "__" =
      ["cats__list_2", "cats__list", "dogs___list"] := by
    decide +kernel
  have hdistinct : (overlappingDocument.acceptedIds "__").Nodup := by
    rw [hids]
    decide
  obtain ⟨hreports, _, hnames, _⟩ :=
    @ApiDocument.names_of_distinct_ids _ { operationIdSeparator := "__" } hdistinct
  refine ⟨hdistinct, ?_, hreports⟩
  rw [hnames, hids]
  decide +kernel

end ClientGen
