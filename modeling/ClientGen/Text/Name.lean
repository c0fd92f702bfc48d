/-! Names of the generated code, and where a longer name is cut. Identifiers are ASCII letters,
digits, `_` and `$`, with no digit in front; characters beyond ASCII never belong to one. -/
namespace ClientGen.Text

def startsIdentifier (c : Char) : Bool :=
  c.isAlpha || c == '_' || c == '$'

def continuesIdentifier (c : Char) : Bool :=
  c.isAlphanum || c == '_' || c == '$'

def isIdentifier (name : String) : Bool :=
  match name.toList with
  | [] => false
  | c :: cs => startsIdentifier c && cs.all continuesIdentifier

theorem continuesIdentifier_of_startsIdentifier {c : Char} (h : startsIdentifier c = true) :
    continuesIdentifier c = true := by
  simp only [startsIdentifier, continuesIdentifier, Char.isAlphanum, Bool.or_eq_true] at h ⊢
  rcases h with (h | h) | h <;> simp [h]

theorem continuesIdentifier_of_isIdentifier {name : String} (h : isIdentifier name = true) :
    ∀ c ∈ name.toList, continuesIdentifier c = true := by
  intro c hc
  unfold isIdentifier at h
  split at h
  · cases h
  · next d ds hd =>
    obtain ⟨hstart, hrest⟩ := (Bool.and_eq_true _ _).mp h
    rw [hd] at hc
    rcases List.mem_cons.1 hc with rfl | hc
    · exact continuesIdentifier_of_startsIdentifier hstart
    · exact List.all_eq_true.1 hrest c hc

@[simp] theorem isIdentifier_empty : isIdentifier "" = false := by decide

def suffixed (base : String) (n : Nat) : String := base ++ "_" ++ n.repr

/-- The first of `base_n`, `base_(n+1)`, … that is not taken, looking at `tries` of them. -/
def firstFree (taken : List String) (base : String) (n : Nat) : (tries : Nat) → String
  | 0 => suffixed base n
  | tries + 1 =>
    if suffixed base n ∈ taken then firstFree taken base (n + 1) tries else suffixed base n

/-- `base`, or else the first free one of `base_2`, `base_3`, …; of as many candidates as
there are taken names one is free, since `base` itself is among those names. -/
def freeName (taken : List String) (base : String) : String :=
  if base ∈ taken then firstFree taken base 2 taken.length else base

def cutFirst (sep : List Char) : List Char → Option (List Char × List Char)
  | [] => if sep.isEmpty then some ([], []) else none
  | c :: cs =>
    if sep.isPrefixOf (c :: cs) then some ([], (c :: cs).drop sep.length)
    else (cutFirst sep cs).map fun p => (c :: p.1, p.2)

def cutLast (mark : Char) : List Char → Option (List Char × List Char)
  | [] => none
  | c :: cs =>
    match cutLast mark cs with
    | some (l, r) => some (c :: l, r)
    | none => if c = mark then some ([], cs) else none

def withoutSuffix (suffix cs : List Char) : Option (List Char) :=
  if suffix.isSuffixOf cs then some (cs.take (cs.length - suffix.length)) else none

theorem append_of_cutFirst {sep s l r : List Char} (h : cutFirst sep s = some (l, r)) :
    s = l ++ sep ++ r := by
  induction s generalizing l with
  | nil =>
    simp only [cutFirst] at h
    split at h
    · cases h; simp_all
    · cases h
  | cons c cs ih =>
    simp only [cutFirst] at h
    split at h
    · next hp =>
      cases h
      obtain ⟨t, ht⟩ := List.isPrefixOf_iff_prefix.1 hp
      simp [← ht]
    · obtain ⟨⟨l', r'⟩, hp, hq⟩ := Option.map_eq_some_iff.1 h
      cases hq
      simp [ih hp]

theorem append_of_cutLast {mark : Char} {s l r : List Char} (h : cutLast mark s = some (l, r)) :
    s = l ++ mark :: r := by
  induction s generalizing l r with
  | nil => cases h
  | cons c cs ih =>
    simp only [cutLast] at h
    split at h
    · next l' r' hp => cases h; simp [ih hp]
    · split at h
      · next hc => cases h; simp [hc]
      · cases h

theorem append_of_withoutSuffix {suffix s l : List Char} (h : withoutSuffix suffix s = some l) :
    s = l ++ suffix := by
  simp only [withoutSuffix] at h
  split at h
  · next hs =>
    cases h
    obtain ⟨t, rfl⟩ := List.isSuffixOf_iff_suffix.1 hs
    simp
  · cases h

end ClientGen.Text
