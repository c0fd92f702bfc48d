import ClientGen.Json.Basic
/-! Path templates: a name in braces is a placeholder. A brace with nothing between it and
the next closing one, or with no closing one behind it, is an ordinary character. -/
namespace ClientGen.Path

inductive Piece
  | char (c : Char)
  | placeholder (name : List Char)
deriving DecidableEq, Repr

def closing? : List Char → Option (List Char × List Char)
  | [] => none
  | '}' :: cs => some ([], cs)
  | c :: cs => (closing? cs).map fun p => (c :: p.1, p.2)

theorem append_of_closing? {s name rest : List Char} (h : closing? s = some (name, rest)) :
    s = name ++ '}' :: rest := by
  fun_induction closing? s generalizing name with
  | case1 => cases h
  | case2 cs => cases h; rfl
  | case3 c cs _ ih =>
    obtain ⟨⟨n, r⟩, hp, hq⟩ := Option.map_eq_some_iff.1 h
    cases hq
    simp [ih hp]

theorem length_le_of_closing? {s name rest : List Char} (h : closing? s = some (name, rest)) :
    rest.length ≤ s.length := by
  rw [append_of_closing? h]
  simp
  omega

/-- From left to right; what is inside a placeholder is not looked at again. -/
def pieces (s : List Char) : List Piece :=
  match s with
  | [] => []
  | c :: cs =>
    if c = '{' then
      match h : closing? cs with
      | some (n :: name, rest) =>
        have := length_le_of_closing? h
        .placeholder (n :: name) :: pieces rest
      | _ => .char c :: pieces cs
    else .char c :: pieces cs
termination_by s.length

namespace Piece

def source : Piece → List Char
  | char c => [c]
  | placeholder name => '{' :: name ++ ['}']

def name? : Piece → Option String
  | char _ => none
  | placeholder name => some (String.ofList name)

end Piece

def placeholders (path : String) : List String :=
  (pieces path.toList).filterMap Piece.name?

/-- The text a value puts into a path; only texts and numbers have one. -/
def valueText : Json → Option String
  | .text s => some s
  | .number n => some n.text
  | _ => none

def Piece.fill (values : Table Json) (p : Piece) : List Char :=
  match (p.name?.bind values.get?).bind valueText with
  | some s => s.toList
  | none => p.source

/-- A placeholder without a text or number to its name is left as it stands. -/
def substitute (path : String) (values : Table Json) : String :=
  String.ofList ((pieces path.toList).flatMap (Piece.fill values))

theorem flatMap_source_pieces (s : List Char) : (pieces s).flatMap Piece.source = s := by
  fun_induction pieces s with
  | case1 => rfl
  | case2 cs n name rest h _ ih =>
    simp [Piece.source, ih, append_of_closing? h]
  | case3 cs _ ih => simp [Piece.source, ih]
  | case4 c cs _ ih => simp [Piece.source, ih]

end ClientGen.Path
