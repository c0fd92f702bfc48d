import ClientGen.Proofs.Endpoint.Accepted
import ClientGen.Proofs.Text.Split
import Mathlib.Data.List.Perm.Subperm
/-! The controllers that ids can name under a given separator. There is one for every separator,
and for all but `_` there are two that differ in a leading `_` alone. -/
namespace ClientGen

open Text (isIdentifier)

theorem halvesOfId_append {separator controller method : String}
    (hc : isIdentifier controller = true) (hm : isIdentifier method = true)
    (h : ∀ s, s <:+ controller.toList → s ≠ [] →
      ¬ separator.toList <+: s ++ (separator.toList ++ method.toList)) :
    halvesOfId separator (controller ++ separator ++ method) = some (controller, method) := by
  have hcut := Text.cutFirst_append h
  simp [halvesOfId, hcut, hc, hm]

theorem not_infix_of_halvesOfId {separator id controller method : String}
    (hsep : separator ≠ "") (h : halvesOfId separator id = some (controller, method)) :
    ¬ separator.toList <:+: controller.toList := by
  have hne : separator.toList ≠ [] := fun hnil => hsep (String.toList_eq_nil_iff.1 hnil)
  unfold halvesOfId at h
  obtain ⟨⟨l, r⟩, hcut, h⟩ := Option.bind_eq_some_iff.1 h
  dsimp only at h
  split at h
  · cases h
    rw [String.toList_ofList]
    exact Text.not_infix_of_cutFirst hne hcut
  · cases h

theorem length_le_of_halvesOfId {separator id controller method : String}
    (h : halvesOfId separator id = some (controller, method)) {before after : List Char}
    (hid : id.toList = before ++ separator.toList ++ after) :
    controller.toList.length ≤ before.length := by
  unfold halvesOfId at h
  obtain ⟨⟨l, r⟩, hcut, h⟩ := Option.bind_eq_some_iff.1 h
  dsimp only at h
  split at h
  · cases h
    rw [String.toList_ofList]
    exact Text.length_le_of_cutFirst hcut hid
  · cases h

def idOfAll (separator : String) (controller : List Char) : String :=
  String.ofList controller ++ separator ++ "all"

theorem Operation.names?_idOfAll {separator : String} {controller : List Char} {op : Operation}
    (hid : op.operationId = some (idOfAll separator controller))
    (hc : isIdentifier (String.ofList controller) = true)
    (htaken : String.ofList controller ∉ Client.takenMembers)
    (h : ∀ s, s <:+ controller → s ≠ [] →
      ¬ separator.toList <+: s ++ (separator.toList ++ "all".toList)) :
    op.names? separator = some (String.ofList controller, "all") := by
  apply Operation.names?_eq_some_iff.2
  refine ⟨_, hid, halvesOfId_append hc (by decide) ?_, htaken⟩
  rwa [String.toList_ofList]

/-- Of three letters one is not among the first two characters of a separator. -/
theorem exists_letter (separator : List Char) :
    ∃ c ∈ ['a', 'b', 'c'], c ∉ separator.take 2 := by
  by_contra! hall
  have hlength := ((by decide : ['a', 'b', 'c'].Nodup).subperm hall).length_le
  rw [List.length_take] at hlength
  simp only [List.length_cons, List.length_nil] at hlength
  omega

theorem names_of_letter : ∀ c ∈ ['a', 'b', 'c'],
    (isIdentifier (String.ofList [c]) = true ∧ String.ofList [c] ∉ Client.takenMembers) ∧
      isIdentifier (String.ofList ['_', c]) = true ∧
        String.ofList ['_', c] ∉ Client.takenMembers := by
  intro c hc
  simp only [List.mem_cons, List.not_mem_nil, or_false] at hc
  rcases hc with rfl | rfl | rfl <;> decide

section Letter

variable {separator : String} {c : Char}

theorem not_prefix_letter (hsep : separator ≠ "") (hc : c ∉ separator.toList.take 2)
    {s r : List Char} (hs : s <:+ [c]) (hne : s ≠ []) : ¬ separator.toList <+: s ++ r := by
  have hs : s = [c] := (List.suffix_cons_iff.1 hs).resolve_right (by simpa using hne)
  subst hs
  cases htext : separator.toList with
  | nil => exact absurd (String.toList_eq_nil_iff.1 htext) hsep
  | cons d ds =>
    rw [htext, List.take_succ_cons] at hc
    intro hpre
    have hd : d = c := by simpa using (List.cons_prefix_cons.1 hpre).1
    exact hc (hd ▸ List.mem_cons_self)

theorem Operation.names?_letter (hsep : separator ≠ "") (hl : c ∈ ['a', 'b', 'c'])
    (hc : c ∉ separator.toList.take 2) {op : Operation}
    (hid : op.operationId = some (idOfAll separator [c])) :
    op.names? separator = some (String.ofList [c], "all") := by
  obtain ⟨⟨hname, htaken⟩, _⟩ := names_of_letter c hl
  apply Operation.names?_idOfAll hid hname htaken
  exact fun s hs hne => not_prefix_letter hsep hc hs hne

theorem Operation.names?_underscoredLetter (hsep : separator ≠ "") (hbar : separator ≠ "_")
    (hl : c ∈ ['a', 'b', 'c']) (hc : c ∉ separator.toList.take 2) {op : Operation}
    (hid : op.operationId = some (idOfAll separator ['_', c])) :
    op.names? separator = some (String.ofList ['_', c], "all") := by
  obtain ⟨_, hname, htaken⟩ := names_of_letter c hl
  apply Operation.names?_idOfAll hid hname htaken
  intro s hs hne
  rcases List.suffix_cons_iff.1 hs with rfl | hs
  · intro hpre
    cases htext : separator.toList with
    | nil => exact hsep (String.toList_eq_nil_iff.1 htext)
    | cons d ds =>
      rw [htext] at hpre hc
      obtain ⟨rfl, hpre⟩ := List.cons_prefix_cons.1 hpre
      cases ds with
      | nil => exact hbar (String.toList_inj.1 htext)
      | cons e es =>
        have he : e = c := (List.cons_prefix_cons.1 hpre).1
        exact hc (by simp [he])
  · exact not_prefix_letter hsep hc hs hne

end Letter

end ClientGen
