import ClientGen.Path.Template
import ClientGen.Proofs.Json.NumberText
import ClientGen.Proofs.Path.Placeholders
import ClientGen.Proofs.Table
/-! A filled template, taken apart again. Where no value brings a brace with it, its pieces are
those of the template, with the characters of a value in place of each placeholder that has one. -/
namespace ClientGen.Path

def HasValue (values : Table Json) (name : String) : Prop :=
  (∃ s, values.get? name = some (.text s)) ∨ ∃ n, values.get? name = some (.number n)

theorem hasValue_iff {values : Table Json} {name : String} :
    HasValue values name ↔ ((values.get? name).bind valueText).isSome = true := by
  unfold HasValue
  cases values.get? name with
  | none => simp
  | some v => cases v <;> simp [valueText]

instance (values : Table Json) : DecidablePred (HasValue values) :=
  fun _ => decidable_of_iff _ hasValue_iff.symm

/-- No text among the values opens a placeholder. -/
def OpensNothing (values : Table Json) : Prop :=
  ∀ name s, values.get? name = some (.text s) → '{' ∉ s.toList

theorem pieces_cons_of_ne {c : Char} (h : c ≠ '{') (s : List Char) :
    pieces (c :: s) = .char c :: pieces s := by
  rw [pieces, if_neg h]

theorem pieces_append_of_not_mem {t : List Char} (h : '{' ∉ t) (s : List Char) :
    pieces (t ++ s) = t.map Piece.char ++ pieces s := by
  induction t with
  | nil => rfl
  | cons c t ih =>
    have hc : c ≠ '{' := (List.ne_of_not_mem_cons h).symm
    rw [List.cons_append, pieces_cons_of_ne hc, ih (List.not_mem_of_not_mem_cons h)]
    rfl

theorem pieces_placeholder {name : List Char} (hname : name ≠ []) (hclosing : '}' ∉ name)
    (s : List Char) :
    pieces ((Piece.placeholder name).source ++ s) = .placeholder name :: pieces s := by
  obtain ⟨n, name, rfl⟩ := List.exists_cons_of_ne_nil hname
  have htext : (Piece.placeholder (n :: name)).source ++ s = '{' :: (n :: name ++ '}' :: s) := by
    simp [Piece.source]
  have hclose := closing?_append hclosing s
  rw [htext, pieces, if_pos rfl]
  split
  · next h =>
    rw [hclose] at h
    cases h
    rfl
  · next h => exact absurd hclose (h n name s)

theorem pieces_brace {s : List Char}
    (h : closing? s = none ∨ ∃ rest, closing? s = some ([], rest)) :
    pieces ('{' :: s) = .char '{' :: pieces s := by
  rw [pieces, if_pos rfl]
  split
  · next n name rest hclose =>
    rw [hclose] at h
    rcases h with h | ⟨_, h⟩ <;> cases h
  · rfl

theorem closing?_eq_none_iff {s : List Char} : closing? s = none ↔ '}' ∉ s := by
  fun_induction closing? s with
  | case1 => simp
  | case2 cs => simp
  | case3 c cs hc ih =>
    have hne : '}' ≠ c := fun heq => hc heq.symm
    simp [ih, hne]

theorem pieces_of_not_mem {s : List Char} (h : '}' ∉ s) : pieces s = s.map Piece.char := by
  induction s with
  | nil => simp [pieces]
  | cons c s ih =>
    have hs := List.not_mem_of_not_mem_cons h
    by_cases hc : c = '{'
    · subst hc
      rw [pieces_brace (.inl (closing?_eq_none_iff.2 hs)), ih hs, List.map_cons]
    · rw [pieces_cons_of_ne hc, ih hs, List.map_cons]

def Piece.filled (values : Table Json) (p : Piece) : List Piece :=
  match (p.name?.bind values.get?).bind valueText with
  | some s => s.toList.map .char
  | none => [p]

namespace Piece

variable {values : Table Json}

@[simp] theorem filled_char (c : Char) : (char c).filled values = [char c] := rfl

@[simp] theorem fill_char (c : Char) : (char c).fill values = [c] := rfl

theorem filled_of_value {name : List Char} {s : String}
    (h : (values.get? (String.ofList name)).bind valueText = some s) :
    (placeholder name).filled values = s.toList.map char := by
  simp [filled, name?, h]

theorem fill_of_value {name : List Char} {s : String}
    (h : (values.get? (String.ofList name)).bind valueText = some s) :
    (placeholder name).fill values = s.toList := by
  simp [fill, name?, h]

theorem filled_of_none {name : List Char}
    (h : (values.get? (String.ofList name)).bind valueText = none) :
    (placeholder name).filled values = [placeholder name] := by
  simp [filled, name?, h]

theorem fill_of_none {name : List Char}
    (h : (values.get? (String.ofList name)).bind valueText = none) :
    (placeholder name).fill values = (placeholder name).source := by
  simp [fill, name?, h]

/-- What is filled once is filled for good. -/
theorem flatMap_fill_filled (p : Piece) :
    (p.filled values).flatMap (fill values) = p.fill values := by
  cases p with
  | char c => simp
  | placeholder name =>
    cases hvalue : (values.get? (String.ofList name)).bind valueText with
    | none => simp [filled_of_none hvalue]
    | some s => simp [filled_of_value hvalue, fill_of_value hvalue, List.flatMap_map]

theorem filterMap_name?_map_char (s : List Char) : (s.map char).filterMap name? = [] := by
  simp [List.filterMap_map, Function.comp_def, name?]

theorem filterMap_name?_filled (p : Piece) :
    (p.filled values).filterMap name? = p.name?.toList.filter (¬ HasValue values ·) := by
  cases p with
  | char c => simp [name?]
  | placeholder name =>
    have hname : (placeholder name).name? = some (String.ofList name) := rfl
    have hiff : HasValue values (String.ofList name) ↔ _ := hasValue_iff
    cases hvalue : (values.get? (String.ofList name)).bind valueText with
    | none =>
      rw [hvalue] at hiff
      simp [filled_of_none hvalue, hname, hiff]
    | some s =>
      rw [hvalue] at hiff
      rw [filled_of_value hvalue, filterMap_name?_map_char]
      simp [hname, hiff]

end Piece

theorem not_mem_of_valueText {values : Table Json} (h : OpensNothing values) {name s : String}
    (hvalue : (values.get? name).bind valueText = some s) : '{' ∉ s.toList := by
  obtain ⟨v, hget, hv⟩ := Option.bind_eq_some_iff.1 hvalue
  cases v with
  | text t =>
    cases hv
    exact h name s hget
  | number n =>
    cases hv
    intro hc
    exact absurd (Json.isNumberChar_of_mem_text hc) (by decide)
  | null | bool _ | list _ | object _ => cases hv

theorem pieces_flatMap_fill {values : Table Json} (h : OpensNothing values) (s : List Char) :
    pieces ((pieces s).flatMap (Piece.fill values)) = (pieces s).flatMap (Piece.filled values) := by
  fun_induction pieces s with
  | case1 => simp [pieces]
  | case2 cs n name rest hclose _ ih =>
    rw [List.flatMap_cons, List.flatMap_cons]
    cases hvalue : (values.get? (String.ofList (n :: name))).bind valueText with
    | none =>
      rw [Piece.fill_of_none hvalue, Piece.filled_of_none hvalue,
        pieces_placeholder (List.cons_ne_nil _ _) (not_mem_of_closing? hclose), ih]
      rfl
    | some t =>
      rw [Piece.fill_of_value hvalue, Piece.filled_of_value hvalue,
        pieces_append_of_not_mem (not_mem_of_valueText h hvalue), ih]
  | case3 cs hnone ih =>
    rw [List.flatMap_cons, List.flatMap_cons, Piece.filled_char, Piece.fill_char, ← ih]
    -- no placeholder stands behind this brace, or the one that closes it stays where it is
    apply pieces_brace
    cases hclose : closing? cs with
    | none =>
      have hmem := closing?_eq_none_iff.1 hclose
      have hfill : (pieces cs).flatMap (Piece.fill values) = cs := by
        rw [pieces_of_not_mem hmem, List.flatMap_map]
        simp
      left
      rw [hfill]
      exact hclose
    | some p =>
      obtain ⟨name, rest⟩ := p
      cases name with
      | cons n name => exact absurd hclose (hnone n name rest)
      | nil =>
        have hcs : cs = '}' :: rest := append_of_closing? hclose
        right
        rw [hcs, pieces_cons_of_ne (by decide), List.flatMap_cons, Piece.fill_char]
        exact ⟨_, rfl⟩
  | case4 c cs hc ih =>
    rw [List.flatMap_cons, List.flatMap_cons, Piece.filled_char, Piece.fill_char,
      List.singleton_append, pieces_cons_of_ne hc, ih]
    rfl

/-- Filling a template leaves those placeholders without a value and no others, so filling it again
changes nothing; where no placeholder has a value, there is nothing to fill. -/
theorem substitute_stable (path : String) {values : Table Json} (h : OpensNothing values) :
    substitute (substitute path values) values = substitute path values ∧
      placeholders (substitute path values) =
        (placeholders path).filter (¬ HasValue values ·) ∧
      ((∀ name ∈ placeholders path, ¬ HasValue values name) → substitute path values = path) := by
  have hpieces : pieces (substitute path values).toList =
      (pieces path.toList).flatMap (Piece.filled values) := by
    rw [substitute, String.toList_ofList, pieces_flatMap_fill h]
  refine ⟨?_, ?_, ?_⟩
  · rw [substitute, hpieces, List.flatMap_assoc, substitute]
    simp only [Piece.flatMap_fill_filled]
  · rw [placeholders, hpieces, List.filterMap_flatMap, placeholders]
    simp only [Piece.filterMap_name?_filled]
    rw [List.filterMap_eq_flatMap_toList, List.filter_flatMap]
  · intro hnone
    have hfill : ∀ p ∈ pieces path.toList, p.fill values = p.source := by
      intro p hp
      cases p with
      | char c => rfl
      | placeholder name =>
        have hname : String.ofList name ∈ placeholders path := List.mem_filterMap.2 ⟨_, hp, rfl⟩
        apply Piece.fill_of_none
        simpa [hasValue_iff] using hnone _ hname
    rw [substitute, List.flatMap_congr hfill, flatMap_source_pieces, String.ofList_toList]

def orderValues : Table Json :=
  [("id", .text "a\x7db"), ("line", .number (.integer (-7))), ("draft", .bool true)]

def orderPath : String := "/\x7b\x7d\x7bid\x7d\x7bline\x7d/\x7bdraft\x7d/\x7bid"

theorem substitute_stable_orderPath :
    OpensNothing orderValues ∧
      substitute orderPath orderValues = "/\x7b\x7da\x7db-7/\x7bdraft\x7d/\x7bid" ∧
      substitute "/\x7b\x7da\x7db-7/\x7bdraft\x7d/\x7bid" orderValues =
        "/\x7b\x7da\x7db-7/\x7bdraft\x7d/\x7bid" ∧
      placeholders "/\x7b\x7da\x7db-7/\x7bdraft\x7d/\x7bid" = ["draft"] := by
  have hopens : OpensNothing orderValues := by
    intro name s h
    rw [Table.get?_eq_some_iff_mem (by decide +kernel)] at h
    simp only [orderValues, List.mem_cons, Prod.mk.injEq, Json.text.injEq, reduceCtorEq,
      and_false, or_false, List.not_mem_nil] at h
    rw [h.2]
    decide
  have hfilled : substitute orderPath orderValues =
      "/\x7b\x7da\x7db-7/\x7bdraft\x7d/\x7bid" := by decide +kernel
  have hleft : (placeholders orderPath).filter (¬ HasValue orderValues ·) = ["draft"] := by
    decide +kernel
  obtain ⟨htwice, hnames, _⟩ := substitute_stable orderPath hopens
  rw [hfilled] at htwice hnames
  exact ⟨hopens, hfilled, htwice, hnames.trans hleft⟩

end ClientGen.Path
