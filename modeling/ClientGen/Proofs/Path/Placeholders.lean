import ClientGen.Client.Scaffold
import ClientGen.Path.Template
import ClientGen.Proofs.Path.Pattern
import Mathlib.Data.List.Basic

namespace ClientGen.Path

/-- A brace, one character or more up to the next closing brace, and that brace. -/
def placeholderPattern : Pattern :=
  .seq (.char '{') (.seq (.capture (.run '}')) (.char '}'))

theorem matches_placeholderPattern_iff {text : List Char} {captures : List (List Char)} :
    placeholderPattern.Matches text captures ↔
      ∃ name, name ≠ [] ∧ '}' ∉ name ∧ text = '{' :: (name ++ ['}']) ∧ captures = [name] := by
  constructor
  · intro h
    cases h with
    | seq opening rest =>
      cases opening
      cases rest with
      | seq inner closing =>
        cases closing
        cases inner with
        | capture part =>
          cases part with
          | run nonempty outside => exact ⟨_, nonempty, outside, rfl, rfl⟩
  · rintro ⟨name, hname, hclosing, rfl, rfl⟩
    exact .seq (.char '{') (.seq (.capture (.run hname hclosing)) (.char '}'))

theorem not_mem_of_closing? {s name rest : List Char} (h : closing? s = some (name, rest)) :
    '}' ∉ name := by
  fun_induction closing? s generalizing name with
  | case1 => cases h
  | case2 cs =>
    cases h
    exact List.not_mem_nil
  | case3 c cs hc ih =>
    obtain ⟨⟨n, r⟩, hp, hq⟩ := Option.map_eq_some_iff.1 h
    cases hq
    exact List.not_mem_cons_of_ne_of_not_mem (fun heq => hc heq.symm) (ih hp)

theorem closing?_append {name : List Char} (h : '}' ∉ name) (rest : List Char) :
    closing? (name ++ '}' :: rest) = some (name, rest) := by
  induction name with
  | nil => rfl
  | cons c name ih =>
    have hc : c ≠ '}' := (List.ne_of_not_mem_cons h).symm
    rw [List.cons_append, closing?, ih (List.not_mem_of_not_mem_cons h)]
    · rfl
    · exact hc

theorem begins_placeholderPattern_iff {s : List Char} :
    placeholderPattern.Begins s ↔
      ∃ cs name rest, s = '{' :: cs ∧ name ≠ [] ∧ closing? cs = some (name, rest) := by
  constructor
  · rintro ⟨text, captures, rest, h, rfl⟩
    obtain ⟨name, hname, hclosing, rfl, rfl⟩ := matches_placeholderPattern_iff.1 h
    refine ⟨name ++ '}' :: rest, name, rest, ?_, hname, closing?_append hclosing rest⟩
    simp
  · rintro ⟨cs, name, rest, rfl, hname, h⟩
    refine ⟨'{' :: (name ++ ['}']), [name], rest, ?_, ?_⟩
    · exact matches_placeholderPattern_iff.2 ⟨name, hname, not_mem_of_closing? h, rfl, rfl⟩
    · simp [append_of_closing? h]

theorem definite_placeholderPattern : placeholderPattern.Definite := by
  intro text other captures captured rest behind h h' heq
  obtain ⟨name, _, hclosing, rfl, rfl⟩ := matches_placeholderPattern_iff.1 h
  obtain ⟨name', _, hclosing', rfl, rfl⟩ := matches_placeholderPattern_iff.1 h'
  have hnext : name ++ '}' :: rest = name' ++ '}' :: behind := by simpa using heq
  have hfirst := closing?_append hclosing rest
  rw [hnext, closing?_append hclosing' behind] at hfirst
  cases hfirst
  exact ⟨rfl, rfl⟩

namespace Piece

def segment : Piece → Segment
  | char c => .char c
  | placeholder name => .found (placeholder name).source [name]

theorem map_toList_name? (p : Piece) : (p.name?.map String.toList).toList = p.segment.captures := by
  cases p <;> simp [name?, segment, Segment.captures]

end Piece

theorem scans_pieces (s : List Char) :
    placeholderPattern.Scans s ((pieces s).map Piece.segment) := by
  fun_induction pieces s with
  | case1 => exact .done
  | case2 cs n name rest h _ ih =>
    have htext : '{' :: cs = '{' :: (n :: name ++ ['}']) ++ rest := by
      simp [append_of_closing? h]
    rw [htext]
    exact .found (matches_placeholderPattern_iff.2
      ⟨n :: name, List.cons_ne_nil _ _, not_mem_of_closing? h, rfl, rfl⟩) ih
  | case3 cs hnone ih =>
    refine .skip ?_ ih
    rw [begins_placeholderPattern_iff]
    rintro ⟨cs', name, rest, heq, hname, h⟩
    cases heq
    cases name with
    | nil => exact hname rfl
    | cons n name => exact hnone n name rest h
  | case4 c cs hc ih =>
    refine .skip ?_ ih
    rw [begins_placeholderPattern_iff]
    rintro ⟨cs', name, rest, heq, _, _⟩
    cases heq
    exact hc rfl

/-- What stands in a path for a match: the value of the captured name, if that is a text or a
number, and otherwise the match itself. -/
def filling (values : Table Json) (text : List Char) (captures : List (List Char)) : List Char :=
  match captures.head?.bind fun name => values.get? (String.ofList name) with
  | some (.text s) => s.toList
  | some (.number n) => n.text.toList
  | _ => text

theorem replaced_segment (values : Table Json) (p : Piece) :
    p.segment.replaced (filling values) = p.fill values := by
  cases p with
  | char c => rfl
  | placeholder name =>
    simp only [Piece.segment, Segment.replaced, filling, Piece.fill, Piece.name?, List.head?_cons,
      Option.bind_some]
    cases values.get? (String.ofList name) with
    | none => rfl
    | some v => cases v <;> rfl

def searchLine (p : Pattern) : String :=
  "return path.replace(new RegExp(" ++ Script.textLiteral p.source
    ++ ", 'g'), (match: string, param: string) => \x7b"

theorem searchLine_mem_replacePathParams :
    Client.replacePathParams ∈ Client.fixedFunctions ∧
      ∃ lines, Client.replacePathParams.body = .statements lines ∧
        searchLine placeholderPattern ∈ lines := by
  refine ⟨by simp [Client.fixedFunctions], _, rfl, ?_⟩
  refine List.mem_cons_of_mem _ (List.mem_cons.2 (.inl ?_))
  decide +kernel

/-- A template is filled where the search of the emitted client finds the placeholder pattern,
and the names of its placeholders are what that search captures. -/
theorem substitute_eq_replaced (path : String) (values : Table Json) :
    (Client.replacePathParams ∈ Client.fixedFunctions ∧
      ∃ lines, Client.replacePathParams.body = .statements lines ∧
        searchLine placeholderPattern ∈ lines) ∧
    ∃ segments,
      (∀ found, placeholderPattern.Scans path.toList found ↔ found = segments) ∧
      (substitute path values).toList = segments.flatMap (Segment.replaced (filling values)) ∧
      (placeholders path).map String.toList = segments.flatMap Segment.captures := by
  refine ⟨searchLine_mem_replacePathParams, (pieces path.toList).map Piece.segment, ?_, ?_, ?_⟩
  · intro found
    constructor
    · intro h
      have hempty : ¬ placeholderPattern.Begins [] := by
        rw [begins_placeholderPattern_iff]
        rintro ⟨cs, name, rest, heq, _⟩
        cases heq
      exact h.unique definite_placeholderPattern hempty (scans_pieces path.toList)
    · rintro rfl
      exact scans_pieces path.toList
  · rw [substitute, String.toList_ofList, List.flatMap_map]
    exact List.flatMap_congr fun p _ => (replaced_segment values p).symm
  · rw [placeholders, List.flatMap_map, List.map_filterMap, List.filterMap_eq_flatMap_toList]
    exact List.flatMap_congr fun p _ => p.map_toList_name?

end ClientGen.Path
