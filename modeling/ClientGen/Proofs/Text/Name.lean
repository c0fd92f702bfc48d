import ClientGen.Text.Name
import Mathlib.Data.List.Nodup
import Mathlib.Data.List.Perm.Subperm
import Mathlib.Order.Bounds.Defs
/-! What is behind a name may be any characters of identifiers: the first character alone decides
whether an identifier begins. A free name is none of the taken ones: the candidates are all
different, so the taken names run out first, and of the candidates it is the first that is free. -/
namespace ClientGen.Text

theorem ne_empty_of_isIdentifier {name : String} (h : isIdentifier name = true) : name ≠ "" := by
  rintro rfl
  rw [isIdentifier_empty] at h
  cases h

theorem exists_start_of_isIdentifier {name : String} (h : isIdentifier name = true) :
    ∃ c cs, name.toList = c :: cs ∧ startsIdentifier c = true := by
  unfold isIdentifier at h
  split at h
  · cases h
  · next c cs hname => exact ⟨c, cs, hname, ((Bool.and_eq_true _ _).mp h).1⟩

theorem isIdentifier_of_start {name : String} {c : Char} {cs : List Char}
    (hname : name.toList = c :: cs) (hstart : startsIdentifier c = true)
    (h : ∀ d ∈ cs, continuesIdentifier d = true) : isIdentifier name = true := by
  unfold isIdentifier
  rw [hname]
  exact (Bool.and_eq_true _ _).mpr ⟨hstart, List.all_eq_true.2 h⟩

theorem isIdentifier_append {name rest : String} (hname : isIdentifier name = true)
    (hrest : ∀ c ∈ rest.toList, continuesIdentifier c = true) :
    isIdentifier (name ++ rest) = true := by
  obtain ⟨c, cs, hlist, hstart⟩ := exists_start_of_isIdentifier hname
  have hchars := continuesIdentifier_of_isIdentifier hname
  rw [hlist] at hchars
  have htext : (name ++ rest).toList = c :: (cs ++ rest.toList) := by
    rw [String.toList_append, hlist, List.cons_append]
  refine isIdentifier_of_start htext hstart fun d hd => ?_
  rcases List.mem_append.1 hd with hd | hd
  · exact hchars d (List.mem_cons_of_mem c hd)
  · exact hrest d hd

theorem toNat_of_isAlphanum {c : Char} (h : c.isAlphanum = true) :
    48 ≤ c.toNat ∧ c.toNat < 0x80 := by
  have hclasses : ((65 ≤ c.toNat ∧ c.toNat ≤ 90) ∨ (97 ≤ c.toNat ∧ c.toNat ≤ 122)) ∨
      (48 ≤ c.toNat ∧ c.toNat ≤ 57) := by
    rcases (Bool.or_eq_true _ _).mp h with halpha | hdigit
    · rcases (Bool.or_eq_true _ _).mp halpha with hupper | hlower
      · exact .inl (.inl (of_decide_eq_true hupper))
      · obtain ⟨hlow, hhigh⟩ := (Bool.and_eq_true _ _).mp hlower
        exact .inl (.inr ⟨of_decide_eq_true hlow, of_decide_eq_true hhigh⟩)
    · obtain ⟨hlow, hhigh⟩ := (Bool.and_eq_true _ _).mp hdigit
      exact .inr ⟨of_decide_eq_true hlow, of_decide_eq_true hhigh⟩
  omega

theorem repr_injective {m n : Nat} (h : m.repr = n.repr) : m = n := by
  have hm := Nat.ofDigitChars_toDigits (b := 10) (n := m) (by decide) (by decide)
  have hn := Nat.ofDigitChars_toDigits (b := 10) (n := n) (by decide) (by decide)
  rw [← Nat.toList_repr] at hm hn
  rw [← hm, ← hn, h]

theorem suffixed_injective (base : String) {m n : Nat} (h : suffixed base m = suffixed base n) :
    m = n := by
  have hchars := congrArg String.toList h
  simp only [suffixed, String.toList_append, List.append_assoc,
    List.append_cancel_left_eq] at hchars
  exact repr_injective (String.toList_inj.1 hchars)

theorem suffixed_ne (base : String) (n : Nat) : suffixed base n ≠ base := by
  intro h
  have hlength := congrArg String.length h
  have hbar : "_".length = 1 := rfl
  simp only [suffixed, String.length_append] at hlength
  omega

/-- The search goes over taken candidates only, and it ends at one that is free or with its last
try. -/
theorem firstFree_eq (taken : List String) (base : String) (n tries : Nat) :
    ∃ k, firstFree taken base n tries = suffixed base (n + k) ∧
      (∀ i < k, suffixed base (n + i) ∈ taken) ∧
      (suffixed base (n + k) ∉ taken ∨ k = tries) := by
  induction tries generalizing n with
  | zero => exact ⟨0, rfl, fun i hi => absurd hi (Nat.not_lt_zero i), .inr rfl⟩
  | succ tries ih =>
    unfold firstFree
    split
    · next hn =>
      obtain ⟨k, hname, htaken, hend⟩ := ih (n + 1)
      rw [Nat.add_right_comm] at hname hend
      refine ⟨k + 1, hname, fun i hi => ?_, hend.imp id (congrArg (· + 1))⟩
      cases i with
      | zero => exact hn
      | succ i =>
        have hnext := htaken i (by omega)
        rwa [Nat.add_right_comm] at hnext
    · next hn => exact ⟨0, rfl, fun i hi => absurd hi (Nat.not_lt_zero i), .inl hn⟩

theorem lt_length_of_taken {taken : List String} {base : String} {k : Nat} (hbase : base ∈ taken)
    (h : ∀ i < k, suffixed base (2 + i) ∈ taken) : k < taken.length := by
  set names := base :: (List.range k).map fun i => suffixed base (2 + i)
  have hnodup : names.Nodup := by
    refine List.nodup_cons.2 ⟨?_, List.nodup_range.map ?_⟩
    · intro hmem
      obtain ⟨i, _, hi⟩ := List.mem_map.1 hmem
      exact suffixed_ne base _ hi
    · intro i j hij
      have heq := suffixed_injective base hij
      omega
  have hsubset : names ⊆ taken := by
    intro s hs
    rcases List.mem_cons.1 hs with rfl | hs
    · exact hbase
    · obtain ⟨i, hi, rfl⟩ := List.mem_map.1 hs
      exact h i (List.mem_range.1 hi)
  have hlength := (hnodup.subperm hsubset).length_le
  simp only [names, List.length_cons, List.length_map, List.length_range] at hlength
  omega

def freeNumbers (taken : List String) (base : String) : Set Nat :=
  { n | 2 ≤ n ∧ suffixed base n ∉ taken }

/-- In the place of a name that is taken stands the candidate with the least number; to find it,
as many candidates as there are taken names are enough. -/
theorem freeName_of_mem {taken : List String} {base : String} (h : base ∈ taken) :
    ∃ n, IsLeast (freeNumbers taken base) n ∧ n - 1 ≤ taken.length ∧
      freeName taken base = suffixed base n := by
  obtain ⟨k, hname, htaken, hend⟩ := firstFree_eq taken base 2 taken.length
  have hlength := lt_length_of_taken h htaken
  refine ⟨2 + k, ⟨⟨by omega, hend.resolve_right (by omega)⟩, ?_⟩, by omega, ?_⟩
  · rintro m ⟨hm, hfree⟩
    by_contra! hlt
    obtain ⟨i, rfl⟩ := Nat.exists_eq_add_of_le hm
    exact hfree (htaken i (by omega))
  · rw [freeName, if_pos h, hname]

theorem freeName_of_not_mem {taken : List String} {base : String} (h : base ∉ taken) :
    freeName taken base = base := if_neg h

theorem freeName_not_mem (taken : List String) (base : String) :
    freeName taken base ∉ taken := by
  by_cases h : base ∈ taken
  · obtain ⟨n, hleast, _, hname⟩ := freeName_of_mem h
    rw [hname]
    exact hleast.1.2
  · rwa [freeName_of_not_mem h]

theorem freeName_eq (taken : List String) (base : String) :
    freeName taken base = base ∨ ∃ n, freeName taken base = suffixed base n := by
  by_cases h : base ∈ taken
  · obtain ⟨n, _, _, hname⟩ := freeName_of_mem h
    exact .inr ⟨n, hname⟩
  · exact .inl (freeName_of_not_mem h)

theorem isIdentifier_suffixed {base : String} (h : isIdentifier base = true) (n : Nat) :
    isIdentifier (suffixed base n) = true := by
  rw [suffixed, String.append_assoc]
  refine isIdentifier_append h fun c hc => ?_
  rw [String.toList_append, List.mem_append, Nat.toList_repr] at hc
  rcases hc with hc | hc
  · rw [List.mem_singleton.1 hc]
    decide
  · have hdigit := Nat.isDigit_of_mem_toDigits (by decide) (by decide) hc
    simp [continuesIdentifier, Char.isAlphanum, hdigit]

theorem isIdentifier_freeName {base : String} (h : isIdentifier base = true)
    (taken : List String) : isIdentifier (freeName taken base) = true := by
  rcases freeName_eq taken base with hname | ⟨n, hname⟩
  · rwa [hname]
  · rw [hname]
    exact isIdentifier_suffixed h n

end ClientGen.Text
