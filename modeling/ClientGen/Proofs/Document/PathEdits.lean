import ClientGen.Proofs.Document.PathMembers
import Mathlib.Logic.Relation
/-! Changes of a raw path object that its path item does not notice: what counts is what stands
under each verb and under `parameters`, the order of the verbs, and the order of the verbs that
are not supported. -/
namespace ClientGen.PathItem

inductive Edit : Table Json → Table Json → Prop
  /-- The verbs keep their order among themselves, and so do those that are not supported. -/
  | reorder {members others : Table Json} (hperm : members.Perm others)
      (hverbs : members.filter hasVerb = others.filter hasVerb)
      (hunsupported : unsupportedVerbsOf members = unsupportedVerbsOf others) :
      Edit members others
  /-- Members with ignored keys come, go, or take other keys and values. -/
  | ignored {members others : Table Json} (hkeys : others.keys.Nodup)
      (hrest : members.filter (¬ Ignored ·.1) = others.filter (¬ Ignored ·.1)) :
      Edit members others
  | unsupported (before after : Table Json) {key : String} (hkey : key ∈ Verb.unsupported)
      (old new : Json) : Edit (before ++ (key, old) :: after) (before ++ (key, new) :: after)

/-- All that decides what is read is the same in the two objects. -/
structure SameDeclarations (members others : Table Json) : Prop where
  verbs : members.filter hasVerb = others.filter hasVerb
  unsupported : unsupportedVerbsOf members = unsupportedVerbsOf others
  parameters : members.get? "parameters" = others.get? "parameters"

variable {members others : Table Json}

namespace SameDeclarations

theorem symm (h : SameDeclarations members others) : SameDeclarations others members :=
  ⟨h.verbs.symm, h.unsupported.symm, h.parameters.symm⟩

theorem trans {between : Table Json} (h : SameDeclarations members between)
    (h' : SameDeclarations between others) : SameDeclarations members others :=
  ⟨h.verbs.trans h'.verbs, h.unsupported.trans h'.unsupported,
    h.parameters.trans h'.parameters⟩

theorem declares (h : SameDeclarations members others) {declared : List (Verb × Operation)}
    {shared : List Parameter} (hdeclares : Declares members declared shared) :
    Declares others declared shared := by
  obtain ⟨hoperations, hshared⟩ := hdeclares
  refine ⟨h.verbs ▸ hoperations, ?_⟩
  cases hshared with
  | kept habsent =>
    rw [← Table.get?_eq_none_iff, h.parameters, Table.get?_eq_none_iff] at habsent
    exact .kept habsent
  | read hvalue hread => exact .read (h.parameters ▸ hvalue) hread

theorem ofMembers (h : SameDeclarations members others) (hmembers : members.keys.Nodup)
    (hothers : others.keys.Nodup) {item : PathItem} (hitem : ofMembers members = .ok item) :
    PathItem.ofMembers others = .ok item := by
  obtain ⟨declared, shared, hdeclares, rfl⟩ := (ofMembers_eq_ok_iff hmembers).1 hitem
  exact (ofMembers_eq_ok_iff hothers).2
    ⟨declared, shared, h.declares hdeclares, by rw [h.unsupported]⟩

end SameDeclarations

theorem filter_filter_of_not_ignored {p : String × Json → Bool}
    (hp : ∀ member, Ignored member.1 → p member = false) (members : Table Json) :
    (members.filter (¬ Ignored ·.1)).filter p = members.filter p := by
  rw [List.filter_filter]
  apply List.filter_congr
  intro member _
  by_cases h : Ignored member.1
  · simp [h, hp member h]
  · simp [h]

theorem unsupportedVerbsOf_eq_map (members : Table Json) :
    unsupportedVerbsOf members = (members.filter (·.1 ∈ Verb.unsupported)).map Prod.fst := by
  rw [unsupportedVerbsOf, Table.keys, List.filter_map]
  rfl

namespace Edit

theorem nodup_keys (h : Edit members others) (hkeys : members.keys.Nodup) :
    others.keys.Nodup := by
  cases h with
  | reorder hperm => exact (hperm.map Prod.fst).nodup_iff.1 hkeys
  | ignored hothers => exact hothers
  | unsupported => simpa [Table.keys] using hkeys

theorem sameDeclarations (h : Edit members others) (hkeys : members.keys.Nodup) :
    SameDeclarations members others := by
  cases h with
  | reorder hperm hverbs hunsupported =>
    exact ⟨hverbs, hunsupported, Table.get?_eq_of_perm hkeys hperm _⟩
  | ignored _ hrest =>
    constructor
    case verbs =>
      have hp : ∀ member : String × Json, Ignored member.1 → hasVerb member = false :=
        fun member h => by simp [hasVerb, h.noVerb]
      rw [← filter_filter_of_not_ignored hp, hrest, filter_filter_of_not_ignored hp]
    case unsupported =>
      have hp : ∀ member : String × Json, Ignored member.1 →
          decide (member.1 ∈ Verb.unsupported) = false :=
        fun member h => by simp [h.noUnsupported]
      rw [unsupportedVerbsOf_eq_map, unsupportedVerbsOf_eq_map,
        ← filter_filter_of_not_ignored hp members, hrest, filter_filter_of_not_ignored hp]
    case parameters =>
      have hget : ∀ t : Table Json,
          Table.get? (t.filter (¬ Ignored ·.1)) "parameters" = t.get? "parameters" :=
        fun _ => Table.get?_filter fun _ => decide_eq_true fun h => h.noParameters rfl
      rw [← hget, hrest, hget]
  | unsupported before after hkey old new =>
    have hverb := Verb.ofName?_of_mem_unsupported hkey
    constructor
    case verbs => simp [hasVerb, hverb]
    case unsupported => simp [unsupportedVerbsOf, Table.keys]
    case parameters =>
      have hget : ∀ t : Table Json,
          Table.get? (t.filter (·.1 ∉ Verb.unsupported)) "parameters" = t.get? "parameters" :=
        fun _ => Table.get?_filter fun _ => decide_eq_true parameters_not_unsupported
      rw [← hget, ← hget (before ++ _)]
      simp [hkey]

end Edit

theorem sameDeclarations_of_edits (h : Relation.ReflTransGen Edit members others)
    (hkeys : members.keys.Nodup) : others.keys.Nodup ∧ SameDeclarations members others := by
  induction h with
  | refl => exact ⟨hkeys, rfl, rfl, rfl⟩
  | tail _ hedit ih => exact ⟨hedit.nodup_keys ih.1, ih.2.trans (hedit.sameDeclarations ih.1)⟩

/-- From two raw objects that such changes lead from one to the other, the same path item is read,
if any. -/
theorem ofMembers_eq_ok_of_edits (h : Relation.ReflTransGen Edit members others)
    (hkeys : members.keys.Nodup) (item : PathItem) :
    ofMembers members = .ok item ↔ ofMembers others = .ok item := by
  obtain ⟨hothers, hsame⟩ := sameDeclarations_of_edits h hkeys
  exact ⟨hsame.ofMembers hkeys hothers, hsame.symm.ofMembers hothers hkeys⟩

def ordersMembers : Table Json :=
  [("get", .object [("operationId", .text "orders_list")]),
    ("patch", .null),
    ("x-owner", .text "shop"),
    ("put", .object [("operationId", .text "orders_put")]),
    ("parameters", .list [.object [("name", .text "id"), ("in", .text "path")]])]

def movedMembers : Table Json :=
  [("parameters", .list [.object [("name", .text "id"), ("in", .text "path")]]),
    ("get", .object [("operationId", .text "orders_list")]),
    ("patch", .bool true),
    ("summary", .text "Orders"),
    ("put", .object [("operationId", .text "orders_put")])]

theorem ofMembers_eq_ok_of_edits_ordersMembers :
    Relation.ReflTransGen Edit ordersMembers movedMembers ∧ ordersMembers.keys.Nodup ∧
      ∃ item, ofMembers ordersMembers = .ok item ∧ ofMembers movedMembers = .ok item := by
  have hvalue : Edit ordersMembers
      (ordersMembers.take 1 ++ ("patch", .bool true) :: ordersMembers.drop 2) :=
    .unsupported (ordersMembers.take 1) _ (by decide) _ _
  have hmember : Edit (ordersMembers.take 1 ++ ("patch", .bool true) :: ordersMembers.drop 2)
      (movedMembers.drop 1 ++ movedMembers.take 1) :=
    .ignored (by decide +kernel) rfl
  have horder : Edit (movedMembers.drop 1 ++ movedMembers.take 1) movedMembers :=
    .reorder List.perm_append_comm rfl rfl
  have hedits := ((Relation.ReflTransGen.single hvalue).tail hmember).tail horder
  have hkeys : ordersMembers.keys.Nodup := by decide +kernel
  obtain ⟨item, hitem⟩ : ∃ item, ofMembers ordersMembers = .ok item := ⟨_, rfl⟩
  exact ⟨hedits, hkeys, item, hitem, (ofMembers_eq_ok_of_edits hedits hkeys item).1 hitem⟩

end ClientGen.PathItem
