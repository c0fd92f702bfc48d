import ClientGen.Json.Basic

namespace ClientGen.Json

def isNumberChar (c : Char) : Bool := c.isDigit || c ∈ ['-', '+', '.', 'e']

variable {c : Char}

theorem isNumberChar_of_mem_toDigits {n : Nat} (h : c ∈ Nat.toDigits 10 n) :
    isNumberChar c = true := by
  simp [isNumberChar, Nat.isDigit_of_mem_toDigits (by decide) (by decide) h]

theorem mem_of_mem_dropTrailingZeros {digits : List Char} (h : c ∈ dropTrailingZeros digits) :
    c ∈ digits := by
  rw [dropTrailingZeros, List.mem_reverse] at h
  exact List.mem_reverse.1 ((List.dropWhile_sublist _).subset h)

theorem mem_positional {digits : List Char} {point : Int} (h : c ∈ positional digits point) :
    c ∈ digits ∨ c = '0' ∨ c = '.' := by
  unfold positional at h
  split at h
  · simp only [List.mem_cons, List.mem_append, List.mem_replicate] at h
    grind
  · dsimp only at h
    split at h
    · simp only [List.mem_cons, List.mem_append, List.mem_replicate, List.not_mem_nil] at h
      grind
    · rcases List.mem_append.1 h with h | h
      · exact .inl (List.mem_of_mem_take h)
      · rcases List.mem_cons.1 h with h | h
        · exact .inr (.inr h)
        · exact .inl (List.mem_of_mem_drop h)

theorem mem_scientific {digits : List Char} {exponent : Int}
    (h : c ∈ scientific digits exponent) :
    c ∈ digits ∨ c ∈ Nat.toDigits 10 exponent.natAbs ∨ c ∈ ['-', '+', '.', 'e'] := by
  unfold scientific at h
  rcases List.mem_append.1 h with h | h
  · split at h
    · simp only [List.mem_cons] at h ⊢
      grind
    · exact .inl h
  · simp only [List.mem_cons] at h ⊢
    grind

theorem isNumberChar_of_mem_magnitudeText {x : ClientGen.Number.Magnitude}
    (h : c ∈ magnitudeText x) : isNumberChar c = true := by
  unfold magnitudeText at h
  split at h
  · simp only [List.mem_cons, List.not_mem_nil, or_false] at h
    rcases h with rfl | rfl | rfl <;> decide
  · dsimp only at h
    split at h
    · rcases mem_positional h with h | rfl | rfl
      · exact isNumberChar_of_mem_toDigits (mem_of_mem_dropTrailingZeros h)
      · decide
      · decide
    · rcases mem_scientific h with h | h | h
      · exact isNumberChar_of_mem_toDigits (mem_of_mem_dropTrailingZeros h)
      · exact isNumberChar_of_mem_toDigits h
      · simp only [isNumberChar, h, decide_true, Bool.or_true]

theorem isNumberChar_of_mem_text {n : Number} (h : c ∈ n.text.toList) :
    isNumberChar c = true := by
  unfold Number.text at h
  cases n with
  | integer i =>
    have hdigits : c ∈ i.natAbs.repr.toList → isNumberChar c = true := by
      rw [Nat.toList_repr]
      exact isNumberChar_of_mem_toDigits
    dsimp only at h
    split at h
    · rw [String.toList_append, List.mem_append] at h
      rcases h with h | h
      · rw [List.mem_singleton.1 h]
        decide
      · exact hdigits h
    · exact hdigits h
  | real x =>
    rw [String.toList_ofList] at h
    split at h
    · rcases List.mem_cons.1 h with rfl | h
      · decide
      · exact isNumberChar_of_mem_magnitudeText h
    · exact isNumberChar_of_mem_magnitudeText h

end ClientGen.Json
