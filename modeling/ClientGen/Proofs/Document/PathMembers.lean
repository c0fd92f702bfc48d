import ClientGen.Document.Decode
import ClientGen.Json.Decoder
import ClientGen.Proofs.Table
import Mathlib.Data.List.Forall2

namespace ClientGen.PathItem

open Json (Problem)

/-- A key that has no say in what is read. -/
structure Ignored (key : String) : Prop where
  noVerb : Verb.ofName? key = none
  noParameters : key ≠ "parameters"
  noUnsupported : key ∉ Verb.unsupported

instance : DecidablePred Ignored := fun key =>
  decidable_of_iff (Verb.ofName? key = none ∧ key ≠ "parameters" ∧ key ∉ Verb.unsupported)
    ⟨fun h => ⟨h.1, h.2.1, h.2.2⟩, fun h => ⟨h.noVerb, h.noParameters, h.noUnsupported⟩⟩

def hasVerb (member : String × Json) : Bool := (Verb.ofName? member.1).isSome

structure HoldsOperation (member : String × Json) (declared : Verb × Operation) : Prop where
  verb : Verb.ofName? member.1 = some declared.1
  operation : Json.decodeValue Operation.decoder member.2 = .ok declared.2

/-- These parameters are shared behind the members, if those were shared in front of them. -/
inductive SharedAfter (members : Table Json) (before : List Parameter) : List Parameter → Prop
  | kept (h : "parameters" ∉ members.keys) : SharedAfter members before before
  | read {value : Json} {shared : List Parameter} (h : members.get? "parameters" = some value)
      (hread : Json.decodeValue Parameter.decoder.list value = .ok shared) :
      SharedAfter members before shared

/-- The operations that the members hold under verbs, in their order and with nothing inherited
yet, and the parameters for all of them. -/
structure Declares (members : Table Json) (declared : List (Verb × Operation))
    (shared : List Parameter) : Prop where
  operations : List.Forall₂ HoldsOperation (members.filter hasVerb) declared
  shared : SharedAfter members [] shared

def unsupportedVerbsOf (members : Table Json) : List String :=
  members.keys.filter (· ∈ Verb.unsupported)

inductive Unmerged.Adds (key : String) (value : Json) (acc : Unmerged) : Unmerged → Prop
  | operation {verb : Verb} {op : Operation} (hverb : Verb.ofName? key = some verb)
      (hop : Json.decodeValue Operation.decoder value = .ok op) :
      Adds key value acc
        { acc with item.operations := acc.item.operations ++ [(verb, op)] }
  | shared {shared : List Parameter} (hkey : key = "parameters")
      (hshared : Json.decodeValue Parameter.decoder.list value = .ok shared) :
      Adds key value acc { acc with shared }
  | unsupported (hkey : key ∈ Verb.unsupported) :
      Adds key value acc
        { acc with item.unsupportedVerbs := acc.item.unsupportedVerbs ++ [key] }
  | ignored (hkey : Ignored key) : Adds key value acc acc

theorem ofName?_parameters : Verb.ofName? "parameters" = none := by decide

theorem parameters_not_unsupported : "parameters" ∉ Verb.unsupported := by decide

theorem Unmerged.add_eq_ok_iff {key : String} {value : Json} {acc after : Unmerged} :
    acc.add key value = .ok after ↔ Adds key value acc after := by
  constructor
  · intro h
    unfold add at h
    split at h
    · next verb hverb =>
      obtain ⟨op, hop, h⟩ := bind_eq_ok_iff.1 h
      cases h
      exact .operation hverb hop
    · next hverb =>
      split at h
      · next hkey =>
        obtain ⟨shared, hshared, h⟩ := bind_eq_ok_iff.1 h
        cases h
        exact .shared hkey hshared
      · next hkey =>
        split at h
        · next hunsupported =>
          cases h
          exact .unsupported hunsupported
        · next hunsupported =>
          cases h
          exact .ignored ⟨hverb, hkey, hunsupported⟩
  · intro h
    cases h with
    | operation hverb hop =>
      simp only [add, hverb, hop]
      rfl
    | shared hkey hshared =>
      subst hkey
      simp only [add, ofName?_parameters, hshared, if_true]
      rfl
    | unsupported hkey =>
      have hparameters : key ≠ "parameters" :=
        fun heq => parameters_not_unsupported (heq ▸ hkey)
      simp only [add, Verb.ofName?_of_mem_unsupported hkey, if_neg hparameters, if_pos hkey]
      rfl
    | ignored hkey =>
      simp only [add, hkey.noVerb, if_neg hkey.noParameters, if_neg hkey.noUnsupported]
      rfl

section SharedAfter

variable {members : Table Json} {key : String} {value : Json} {before shared : List Parameter}

theorem sharedAfter_iff_of_not_mem (h : "parameters" ∉ members.keys) :
    SharedAfter members before shared ↔ shared = before := by
  constructor
  · intro hs
    cases hs with
    | kept => rfl
    | read hvalue =>
      rw [Table.get?_eq_none_iff.2 h] at hvalue
      cases hvalue
  · rintro rfl
    exact .kept h

theorem sharedAfter_cons_of_ne (h : key ≠ "parameters") :
    SharedAfter ((key, value) :: members) before shared ↔ SharedAfter members before shared := by
  have hb : ("parameters" == key) = false := beq_false_of_ne (Ne.symm h)
  have hget : Table.get? ((key, value) :: members) "parameters" = members.get? "parameters" := by
    simp [Table.get?, List.lookup_cons, hb]
  have hmem : "parameters" ∈ Table.keys ((key, value) :: members) ↔
      "parameters" ∈ members.keys := by
    simp [Table.keys, Ne.symm h]
  constructor
  · intro hs
    cases hs with
    | kept hs => exact .kept (mt hmem.2 hs)
    | read hs hread => exact .read (hget ▸ hs) hread
  · intro hs
    cases hs with
    | kept hs => exact .kept (mt hmem.1 hs)
    | read hs hread => exact .read (hget ▸ hs) hread

theorem sharedAfter_cons_parameters :
    SharedAfter (("parameters", value) :: members) before shared ↔
      Json.decodeValue Parameter.decoder.list value = .ok shared := by
  have hget : Table.get? (("parameters", value) :: members) "parameters" = some value := by
    simp [Table.get?]
  constructor
  · intro hs
    cases hs with
    | kept hs => exact absurd (by simp [Table.keys]) hs
    | read hs hread =>
      rw [hget] at hs
      cases hs
      exact hread
  · exact fun hread => .read hget hread

end SharedAfter

def Unmerged.AddsAll (members : Table Json) (acc after : Unmerged) : Prop :=
  ∃ declared shared, List.Forall₂ HoldsOperation (members.filter hasVerb) declared ∧
    SharedAfter members acc.shared shared ∧
    after = ⟨⟨acc.item.operations ++ declared,
      acc.item.unsupportedVerbs ++ unsupportedVerbsOf members⟩, shared⟩

namespace Unmerged

theorem addsAll_nil_iff {acc after : Unmerged} : AddsAll [] acc after ↔ after = acc := by
  constructor
  · rintro ⟨declared, shared, hoperations, hshared, rfl⟩
    cases hoperations
    rw [(sharedAfter_iff_of_not_mem List.not_mem_nil).1 hshared]
    simp [unsupportedVerbsOf, Table.keys]
  · rintro rfl
    exact ⟨[], _, .nil, .kept List.not_mem_nil, by simp [unsupportedVerbsOf, Table.keys]⟩

variable {key : String} {value : Json} {members : Table Json} {acc mid after : Unmerged}

theorem unsupportedVerbsOf_cons_of_not_mem (h : key ∉ Verb.unsupported) :
    unsupportedVerbsOf ((key, value) :: members) = unsupportedVerbsOf members := by
  simp [unsupportedVerbsOf, Table.keys, h]

theorem unsupportedVerbsOf_cons_of_mem (h : key ∈ Verb.unsupported) :
    unsupportedVerbsOf ((key, value) :: members) = key :: unsupportedVerbsOf members := by
  simp [unsupportedVerbsOf, Table.keys, h]

theorem not_mem_unsupported_of_ofName? {verb : Verb} (h : Verb.ofName? key = some verb) :
    key ∉ Verb.unsupported := by
  intro hkey
  rw [Verb.ofName?_of_mem_unsupported hkey] at h
  cases h

theorem ne_parameters_of_ofName? {verb : Verb} (h : Verb.ofName? key = some verb) :
    key ≠ "parameters" := by
  rintro rfl
  rw [ofName?_parameters] at h
  cases h

theorem filter_hasVerb_cons_of_none (h : Verb.ofName? key = none) :
    ((key, value) :: members).filter hasVerb = members.filter hasVerb :=
  List.filter_cons_of_neg (by simp [hasVerb, h])

theorem filter_hasVerb_cons_of_some {verb : Verb} (h : Verb.ofName? key = some verb) :
    ((key, value) :: members).filter hasVerb = (key, value) :: members.filter hasVerb :=
  List.filter_cons_of_pos (by simp [hasVerb, h])

theorem Adds.cons (hadds : Adds key value acc mid) (hkey : key ∉ members.keys)
    (hrest : AddsAll members mid after) : AddsAll ((key, value) :: members) acc after := by
  obtain ⟨declared, shared, hoperations, hshared, rfl⟩ := hrest
  cases hadds with
  | @operation verb op hverb hop =>
    have hholds : HoldsOperation (key, value) (verb, op) := ⟨hverb, hop⟩
    refine ⟨(verb, op) :: declared, shared, ?_,
      (sharedAfter_cons_of_ne (ne_parameters_of_ofName? hverb)).2 hshared, ?_⟩
    · rw [filter_hasVerb_cons_of_some hverb]
      exact .cons hholds hoperations
    · simp [unsupportedVerbsOf_cons_of_not_mem (not_mem_unsupported_of_ofName? hverb)]
  | shared hparameters hread =>
    subst hparameters
    obtain rfl := (sharedAfter_iff_of_not_mem hkey).1 hshared
    refine ⟨declared, _, ?_, sharedAfter_cons_parameters.2 hread, ?_⟩
    · rwa [filter_hasVerb_cons_of_none ofName?_parameters]
    · rw [unsupportedVerbsOf_cons_of_not_mem parameters_not_unsupported]
  | unsupported hunsupported =>
    have hparameters : key ≠ "parameters" :=
      fun heq => parameters_not_unsupported (heq ▸ hunsupported)
    refine ⟨declared, shared, ?_, (sharedAfter_cons_of_ne hparameters).2 hshared, ?_⟩
    · rwa [filter_hasVerb_cons_of_none (Verb.ofName?_of_mem_unsupported hunsupported)]
    · simp [unsupportedVerbsOf_cons_of_mem hunsupported]
  | ignored hignored =>
    refine ⟨declared, shared, ?_, (sharedAfter_cons_of_ne hignored.noParameters).2 hshared, ?_⟩
    · rwa [filter_hasVerb_cons_of_none hignored.noVerb]
    · rw [unsupportedVerbsOf_cons_of_not_mem hignored.noUnsupported]

theorem AddsAll.uncons (h : AddsAll ((key, value) :: members) acc after)
    (hkey : key ∉ members.keys) : ∃ mid, Adds key value acc mid ∧ AddsAll members mid after := by
  obtain ⟨declared, shared, hoperations, hshared, rfl⟩ := h
  cases hverb : Verb.ofName? key with
  | some verb =>
    rw [filter_hasVerb_cons_of_some hverb] at hoperations
    rw [sharedAfter_cons_of_ne (ne_parameters_of_ofName? hverb)] at hshared
    rw [unsupportedVerbsOf_cons_of_not_mem (not_mem_unsupported_of_ofName? hverb)]
    cases hoperations with
    | cons hfirst hoperations =>
      refine ⟨_, .operation hfirst.verb hfirst.operation, _, _, hoperations, hshared, ?_⟩
      simp
  | none =>
    rw [filter_hasVerb_cons_of_none hverb] at hoperations
    by_cases hparameters : key = "parameters"
    · subst hparameters
      rw [sharedAfter_cons_parameters] at hshared
      rw [unsupportedVerbsOf_cons_of_not_mem parameters_not_unsupported]
      exact ⟨_, .shared rfl hshared, _, _, hoperations, .kept hkey, rfl⟩
    rw [sharedAfter_cons_of_ne hparameters] at hshared
    by_cases hunsupported : key ∈ Verb.unsupported
    · rw [unsupportedVerbsOf_cons_of_mem hunsupported]
      refine ⟨_, .unsupported hunsupported, _, _, hoperations, hshared, ?_⟩
      simp
    · rw [unsupportedVerbsOf_cons_of_not_mem hunsupported]
      exact ⟨acc, .ignored ⟨hverb, hparameters, hunsupported⟩, _, _, hoperations, hshared, rfl⟩

theorem foldlM_add_eq_ok_iff (hkeys : members.keys.Nodup) :
    members.foldlM (fun acc p => acc.add p.1 p.2) acc = .ok after ↔
      AddsAll members acc after := by
  induction members generalizing acc with
  | nil =>
    rw [addsAll_nil_iff, List.foldlM_nil]
    exact ⟨fun h => by cases h; rfl, fun h => by rw [h]; rfl⟩
  | cons p members ih =>
    obtain ⟨key, value⟩ := p
    obtain ⟨hkey, hkeys⟩ := List.nodup_cons.1 hkeys
    rw [List.foldlM_cons, bind_eq_ok_iff]
    simp only [add_eq_ok_iff, ih hkeys]
    constructor
    · rintro ⟨mid, hadds, hrest⟩
      exact hadds.cons hkey hrest
    · exact fun h => h.uncons hkey

end Unmerged

/-- A path item is read exactly where each verb holds an operation and the shared parameters can
be read, and then each operation inherits the latter. -/
theorem ofMembers_eq_ok_iff {members : Table Json} {item : PathItem}
    (hkeys : members.keys.Nodup) :
    ofMembers members = .ok item ↔ ∃ declared shared, Declares members declared shared ∧
      item = inherit shared ⟨declared, unsupportedVerbsOf members⟩ := by
  rw [ofMembers, bind_eq_ok_iff]
  simp only [Unmerged.foldlM_add_eq_ok_iff hkeys]
  constructor
  · rintro ⟨_, ⟨declared, shared, hoperations, hshared, rfl⟩, h⟩
    cases h
    exact ⟨declared, shared, ⟨hoperations, hshared⟩, rfl⟩
  · rintro ⟨declared, shared, ⟨hoperations, hshared⟩, rfl⟩
    exact ⟨_, ⟨declared, shared, hoperations, hshared, rfl⟩, rfl⟩

end ClientGen.PathItem
