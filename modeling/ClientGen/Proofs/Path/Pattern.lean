import ClientGen.Script.TypeText
/-! Search patterns, told by the texts they match, and the global search for one: from left to
right, at each place a match that begins there or else the character alone, and on behind it. -/
namespace ClientGen.Path

/-- The regular expressions that the client needs: no alternatives, no nested repetition. -/
inductive Pattern
  | char (c : Char)
  /-- One character or more, any but the one given. -/
  | run (excluded : Char)
  | capture (part : Pattern)
  | seq (first second : Pattern)

namespace Pattern

def escaped (special : List Char) (c : Char) : List Char :=
  if c ∈ special then ['\\', c] else [c]

/-- Characters with a meaning of their own in a pattern. -/
def syntaxCharacters : List Char :=
  ['^', '$', '\\', '.', '*', '+', '?', '(', ')', '[', ']', '{', '}', '|']

/-- Characters with a meaning of their own between square brackets. -/
def classCharacters : List Char := ['\\', ']', '^', '-']

def chars : Pattern → List Char
  | .char c => escaped syntaxCharacters c
  | .run c => '[' :: '^' :: (escaped classCharacters c ++ [']', '+'])
  | .capture p => '(' :: (p.chars ++ [')'])
  | .seq p q => p.chars ++ q.chars

def source (p : Pattern) : String := String.ofList p.chars

/-- The pattern matches the text, and captures these parts of it, in order. -/
inductive Matches : Pattern → List Char → List (List Char) → Prop
  | char (c : Char) : Matches (.char c) [c] []
  | run {c : Char} {s : List Char} (nonempty : s ≠ []) (outside : c ∉ s) : Matches (.run c) s []
  | capture {p : Pattern} {s : List Char} {captures : List (List Char)}
      (part : Matches p s captures) : Matches (.capture p) s (s :: captures)
  | seq {p q : Pattern} {s t : List Char} {captures others : List (List Char)}
      (first : Matches p s captures) (second : Matches q t others) :
      Matches (.seq p q) (s ++ t) (captures ++ others)

variable {p : Pattern}

def Begins (p : Pattern) (s : List Char) : Prop :=
  ∃ text captures rest, p.Matches text captures ∧ s = text ++ rest

/-- At one place at most one match begins, so it does not matter which one is tried first. -/
def Definite (p : Pattern) : Prop :=
  ∀ ⦃text other captures captured rest behind⦄, p.Matches text captures →
    p.Matches other captured → text ++ rest = other ++ behind → text = other ∧ captures = captured

end Pattern

inductive Segment
  | char (c : Char)
  | found (text : List Char) (captures : List (List Char))

namespace Segment

def captures : Segment → List (List Char)
  | .char _ => []
  | .found _ captures => captures

def replaced (f : (text : List Char) → (captures : List (List Char)) → List Char) :
    Segment → List Char
  | .char c => [c]
  | .found text captures => f text captures

end Segment

namespace Pattern

variable {p : Pattern} {s : List Char}

/-- How a text falls apart in the leftmost matches that do not overlap. -/
inductive Scans (p : Pattern) : List Char → List Segment → Prop
  | done : Scans p [] []
  | found {text rest : List Char} {captures : List (List Char)} {segments : List Segment}
      (here : p.Matches text captures) (behind : Scans p rest segments) :
      Scans p (text ++ rest) (.found text captures :: segments)
  | skip {c : Char} {rest : List Char} {segments : List Segment}
      (here : ¬ p.Begins (c :: rest)) (behind : Scans p rest segments) :
      Scans p (c :: rest) (.char c :: segments)

theorem Scans.unique (hp : p.Definite) (hempty : ¬ p.Begins []) {segments others : List Segment}
    (h : p.Scans s segments) (h' : p.Scans s others) : segments = others := by
  -- along the first search; the second one has no choice but to do the same at each place
  induction h generalizing others with
  | done =>
    generalize hs : ([] : List Char) = s at h'
    cases h' with
    | done => rfl
    | found here _ => exact absurd ⟨_, _, _, here, hs⟩ hempty
    | skip _ _ => cases hs
  | @found text rest captures segments here behind ih =>
    generalize hs : text ++ rest = s at h'
    cases h' with
    | done => exact absurd ⟨_, _, _, here, hs.symm⟩ hempty
    | found here' behind' =>
      obtain ⟨rfl, rfl⟩ := hp here here' hs
      rw [List.append_cancel_left_eq] at hs
      subst hs
      rw [ih behind']
    | skip none _ => exact absurd ⟨_, _, _, here, hs.symm⟩ none
  | @skip c rest segments none behind ih =>
    generalize hs : c :: rest = s at h'
    cases h' with
    | done => cases hs
    | found here' _ => exact absurd ⟨_, _, _, here', hs⟩ none
    | skip _ behind' =>
      cases hs
      rw [ih behind']

end Pattern

end ClientGen.Path
