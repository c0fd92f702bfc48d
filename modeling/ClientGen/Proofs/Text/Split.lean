import ClientGen.Text.Lines
import ClientGen.Text.Name

namespace ClientGen.Text

theorem not_infix_of_cutFirst {sep s l r : List Char} (hsep : sep ≠ [])
    (h : cutFirst sep s = some (l, r)) : ¬ sep <:+: l := by
  induction s generalizing l with
  | nil =>
    simp only [cutFirst] at h
    split at h
    · next hempty => exact absurd (List.isEmpty_iff.1 hempty) hsep
    · cases h
  | cons c cs ih =>
    simp only [cutFirst] at h
    split at h
    · cases h
      rwa [List.infix_nil]
    · next hp =>
      obtain ⟨⟨l', r'⟩, hcut, heq⟩ := Option.map_eq_some_iff.1 h
      cases heq
      rw [List.infix_cons_iff, not_or]
      refine ⟨fun hpre => hp (List.isPrefixOf_iff_prefix.2 ?_), ih hcut⟩
      -- what begins the part in front begins the whole text
      rw [append_of_cutFirst hcut, List.append_assoc, ← List.cons_append]
      exact hpre.trans (List.prefix_append _ _)

theorem not_infix_of_cutFirst_eq_none {sep s : List Char} (h : cutFirst sep s = none) :
    ¬ sep <:+: s := by
  induction s with
  | nil =>
    simp only [cutFirst] at h
    split at h
    · cases h
    · next hempty => simpa [List.infix_nil] using hempty
  | cons c cs ih =>
    simp only [cutFirst] at h
    split at h
    · cases h
    · next hp =>
      rw [List.infix_cons_iff, not_or]
      exact ⟨fun hpre => hp (List.isPrefixOf_iff_prefix.2 hpre), ih (Option.map_eq_none_iff.1 h)⟩

theorem length_le_of_cutFirst {sep s l r before after : List Char}
    (h : cutFirst sep s = some (l, r)) (hs : s = before ++ sep ++ after) :
    l.length ≤ before.length := by
  induction s generalizing l before with
  | nil =>
    simp only [cutFirst] at h
    split at h
    · cases h
      exact Nat.zero_le _
    · cases h
  | cons c cs ih =>
    simp only [cutFirst] at h
    split at h
    · cases h
      exact Nat.zero_le _
    · next hp =>
      obtain ⟨⟨l', r'⟩, hcut, heq⟩ := Option.map_eq_some_iff.1 h
      cases heq
      cases before with
      | nil =>
        rw [List.nil_append] at hs
        exact absurd (List.isPrefixOf_iff_prefix.2 (hs ▸ List.prefix_append sep after)) hp
      | cons b before =>
        rw [List.cons_append, List.cons_append] at hs
        exact Nat.succ_le_succ (ih hcut (List.cons.inj hs).2)

theorem cutFirst_append_self (sep r : List Char) : cutFirst sep (sep ++ r) = some ([], r) := by
  cases sep with
  | nil => cases r <;> simp [cutFirst]
  | cons d ds => simp [cutFirst]

theorem cutFirst_append {sep l r : List Char}
    (h : ∀ s, s <:+ l → s ≠ [] → ¬ sep <+: s ++ (sep ++ r)) :
    cutFirst sep (l ++ (sep ++ r)) = some (l, r) := by
  induction l with
  | nil => exact cutFirst_append_self sep r
  | cons c cs ih =>
    have hhead := h (c :: cs) (List.suffix_refl _) (List.cons_ne_nil _ _)
    have htail := ih fun s hs hne => h s (hs.trans (List.suffix_cons c cs)) hne
    rw [List.cons_append] at hhead ⊢
    rw [cutFirst, if_neg (by rwa [List.isPrefixOf_iff_prefix]), htail]
    rfl

theorem cutLast_eq_none {mark : Char} {cs : List Char} (h : mark ∉ cs) :
    cutLast mark cs = none := by
  induction cs with
  | nil => rfl
  | cons c cs ih =>
    rw [List.mem_cons, not_or] at h
    rw [cutLast, ih h.2]
    exact if_neg (Ne.symm h.1)

theorem cutLast_append {mark : Char} {cs : List Char} (h : mark ∉ cs) (l : List Char) :
    cutLast mark (l ++ mark :: cs) = some (l, cs) := by
  induction l with
  | nil =>
    rw [List.nil_append, cutLast, cutLast_eq_none h]
    exact if_pos rfl
  | cons d ds ih => rw [List.cons_append, cutLast, ih]

theorem append_cons_inj {mark : Char} {l l' r r' : List Char} (hl : mark ∉ l) (hl' : mark ∉ l')
    (h : l ++ mark :: r = l' ++ mark :: r') : l = l' ∧ r = r' := by
  induction l generalizing l' with
  | nil =>
    cases l' with
    | nil => exact ⟨rfl, (List.cons.inj h).2⟩
    | cons d ds => exact absurd (List.mem_cons.2 (.inl (List.cons.inj h).1)) hl'
  | cons c cs ih =>
    cases l' with
    | nil => exact absurd (List.mem_cons.2 (.inl (List.cons.inj h).1.symm)) hl
    | cons d ds =>
      obtain ⟨rfl, htail⟩ := List.cons.inj h
      obtain ⟨rfl, rfl⟩ :=
        ih (mt (List.mem_cons_of_mem _) hl) (mt (List.mem_cons_of_mem _) hl') htail
      exact ⟨rfl, rfl⟩

theorem isSome_withoutSuffix (suffix cs : List Char) :
    (withoutSuffix suffix cs).isSome = true ↔ suffix <:+ cs := by
  unfold withoutSuffix
  rw [← List.isSuffixOf_iff_suffix]
  split <;> simp_all

theorem joinWith_cons (sep s : String) {ts : List String} (ht : ts ≠ []) :
    joinWith sep (s :: ts) = s ++ sep ++ joinWith sep ts := by
  obtain ⟨t, ts, rfl⟩ := List.exists_cons_of_ne_nil ht
  rfl

theorem joinWith_append (sep : String) {ss ts : List String} (hs : ss ≠ []) (ht : ts ≠ []) :
    joinWith sep (ss ++ ts) = joinWith sep ss ++ sep ++ joinWith sep ts := by
  induction ss with
  | nil => exact absurd rfl hs
  | cons s ss ih =>
    rw [List.cons_append]
    by_cases hss : ss = []
    · subst hss
      exact joinWith_cons sep s ht
    · rw [joinWith_cons sep s (List.append_ne_nil_of_left_ne_nil hss ts), ih hss,
        joinWith_cons sep s hss]
      simp only [String.append_assoc]

theorem joinWith_map_joinWith {α : Type} {sep : String} {parts : α → List String} {as : List α}
    (h : ∀ a ∈ as, parts a ≠ []) :
    joinWith sep (as.map fun a => joinWith sep (parts a)) = joinWith sep (as.flatMap parts) := by
  induction as with
  | nil => rfl
  | cons a as ih =>
    rw [List.map_cons, List.flatMap_cons]
    cases as with
    | nil => simp [joinWith]
    | cons b bs =>
      have hrest : (b :: bs).flatMap parts ≠ [] :=
        List.append_ne_nil_of_left_ne_nil (h b (by simp)) _
      rw [joinWith_cons sep _ (by simp), ih fun c hc => h c (List.mem_cons_of_mem a hc),
        joinWith_append sep (h a List.mem_cons_self) hrest]

theorem length_le_joinWith (sep : String) {s : String} {ss : List String} (h : s ∈ ss) :
    s.length ≤ (joinWith sep ss).length := by
  induction ss with
  | nil => cases h
  | cons t ts ih =>
    by_cases hts : ts = []
    · subst hts
      obtain rfl := List.mem_singleton.1 h
      exact Nat.le_refl _
    · rw [joinWith_cons sep t hts, String.length_append, String.length_append]
      rcases List.mem_cons.1 h with rfl | h
      · omega
      · have := ih h
        omega

theorem mem_joinWith {sep : String} {ss : List String} {c : Char}
    (h : c ∈ (joinWith sep ss).toList) : c ∈ sep.toList ∨ ∃ s ∈ ss, c ∈ s.toList := by
  induction ss with
  | nil => cases h
  | cons t ts ih =>
    by_cases hts : ts = []
    · subst hts
      exact .inr ⟨t, List.mem_cons_self, h⟩
    · rw [joinWith_cons sep t hts] at h
      simp only [String.toList_append, List.mem_append] at h
      rcases h with (h | h) | h
      · exact .inr ⟨t, List.mem_cons_self, h⟩
      · exact .inl h
      · exact (ih h).imp_right fun ⟨s, hs, hc⟩ => ⟨s, List.mem_cons_of_mem t hs, hc⟩

end ClientGen.Text
