import ClientGen.Proofs.Document.PathMembers

namespace ClientGen

namespace Parameter

def SameKey (p q : Parameter) : Prop := p.name = q.name ∧ p.location = q.location

instance (p q : Parameter) : Decidable (p.SameKey q) := inferInstanceAs (Decidable (_ ∧ _))

theorem same_iff {p q : Parameter} : p.same q = true ↔ p.SameKey q := by
  simp [same, SameKey]

end Parameter

namespace Operation

/-- The second operation is the first one with what it takes over from its path. -/
structure Inherits (shared : List Parameter) (own merged : Operation) : Prop where
  parameters : merged.parameters =
    (shared.filter fun p => ∀ q ∈ own.parameters, ¬ q.SameKey p) ++ own.parameters
  kept : own.parameters <:+ merged.parameters
  overridden : ∀ p ∈ merged.parameters, (∃ q ∈ own.parameters, q.SameKey p) → p ∈ own.parameters
  present : ∀ p ∈ shared ++ own.parameters, ∃ q ∈ merged.parameters, q.SameKey p
  others : { merged with parameters := own.parameters } = own
  again : merged.inherit shared = merged

variable {shared : List Parameter} {op : Operation}

theorem parameters_inherit (shared : List Parameter) (op : Operation) :
    (op.inherit shared).parameters =
      (shared.filter fun p => ∀ q ∈ op.parameters, ¬ q.SameKey p) ++ op.parameters := by
  have hfree : (shared.filter fun p => !op.parameters.any (·.same p)) =
      shared.filter fun p => ∀ q ∈ op.parameters, ¬ q.SameKey p := by
    apply List.filter_congr
    intro p _
    rw [Bool.eq_iff_iff]
    simp [Parameter.same_iff]
  rw [← hfree]
  rfl

theorem exists_sameKey_inherit {p : Parameter} (hp : p ∈ shared ++ op.parameters) :
    ∃ q ∈ (op.inherit shared).parameters, q.SameKey p := by
  rw [parameters_inherit]
  by_cases hown : ∃ q ∈ op.parameters, q.SameKey p
  · obtain ⟨q, hq, hkey⟩ := hown
    exact ⟨q, List.mem_append_right _ hq, hkey⟩
  · refine ⟨p, ?_, rfl, rfl⟩
    rcases List.mem_append.1 hp with hp | hp
    · apply List.mem_append_left
      simpa [hp] using hown
    · exact List.mem_append_right _ hp

theorem inherit_of_present (h : ∀ p ∈ shared, ∃ q ∈ op.parameters, q.SameKey p) :
    op.inherit shared = op := by
  have hnone : (shared.filter fun p => ∀ q ∈ op.parameters, ¬ q.SameKey p) = [] := by
    simpa using h
  have hparameters := parameters_inherit shared op
  rw [hnone, List.nil_append] at hparameters
  calc op.inherit shared = { op with parameters := (op.inherit shared).parameters } := rfl
    _ = op := by rw [hparameters]

theorem inherits_inherit (shared : List Parameter) (op : Operation) :
    op.Inherits shared (op.inherit shared) where
  parameters := parameters_inherit shared op
  kept := by
    rw [parameters_inherit]
    exact List.suffix_append _ _
  overridden := by
    intro p hp ⟨q, hq, hkey⟩
    rw [parameters_inherit, List.mem_append] at hp
    rcases hp with hp | hp
    · have hfree : ∀ q ∈ op.parameters, ¬ q.SameKey p := by
        simpa using (List.mem_filter.1 hp).2
      exact absurd hkey (hfree q hq)
    · exact hp
  present := fun _ hp => exists_sameKey_inherit hp
  others := rfl
  again := inherit_of_present fun _ hp => exists_sameKey_inherit (List.mem_append_left _ hp)

end Operation

namespace PathItem

/-- Every path item that is read has the verbs of its raw object in their order, and under each
the operation that stands there with what it inherits. -/
theorem inherits_ofMembers {members : Table Json} {item : PathItem}
    (hkeys : members.keys.Nodup) (h : ofMembers members = .ok item) :
    ∃ declared shared, Declares members declared shared ∧
      item.unsupportedVerbs = unsupportedVerbsOf members ∧
      List.Forall₂ (fun own merged => own.1 = merged.1 ∧ own.2.Inherits shared merged.2)
        declared item.operations := by
  obtain ⟨declared, shared, hdeclares, rfl⟩ := (ofMembers_eq_ok_iff hkeys).1 h
  refine ⟨declared, shared, hdeclares, rfl, ?_⟩
  rw [inherit, List.forall₂_map_right_iff]
  exact List.forall₂_same.2 fun p _ => ⟨rfl, p.2.inherits_inherit shared⟩

/-- One operation has a parameter of its own for `id` in the path, which is shared twice. -/
def sharedIdMembers : Table Json :=
  [("get", .object [("parameters", .list [.object [("name", .text "id"), ("in", .text "path"),
      ("required", .bool true)]])]),
    ("parameters", .list [.object [("name", .text "id"), ("in", .text "path")],
      .object [("name", .text "id"), ("in", .text "query")],
      .object [("name", .text "id"), ("in", .text "path")]]),
    ("delete", .object [])]

theorem inherits_ofMembers_sharedIdMembers :
    sharedIdMembers.keys.Nodup ∧ ∃ item, ofMembers sharedIdMembers = .ok item ∧
      (item.operations.map fun p => p.2.parameters.map fun q => (q.location, q.required)) =
        [[(.query, false), (.path, true)],
          [(.path, false), (.query, false), (.path, false)]] ∧
      ∃ declared shared, Declares sharedIdMembers declared shared ∧
        item.unsupportedVerbs = unsupportedVerbsOf sharedIdMembers ∧
        List.Forall₂ (fun own merged => own.1 = merged.1 ∧ own.2.Inherits shared merged.2)
          declared item.operations := by
  have hkeys : sharedIdMembers.keys.Nodup := by decide +kernel
  refine ⟨hkeys, _, rfl, rfl, ?_⟩
  exact inherits_ofMembers hkeys rfl

end PathItem

end ClientGen
