import ClientGen.Table

namespace ClientGen

namespace Table

variable {α β : Type}

theorem keys_put (t : Table α) (key : String) (value : α) :
    (t.put key value).keys = if key ∈ t.keys then t.keys else t.keys ++ [key] := by
  split
  · next h => exact keys_put_of_mem h value
  · next h => simp [put_of_not_mem h, keys]

theorem exists_append_cons {t : Table α} {key : String} (h : key ∈ t.keys) :
    ∃ (before : Table α) (value : α) (after : Table α),
      t = before ++ (key, value) :: after ∧ key ∉ before.keys := by
  induction t with
  | nil => cases h
  | cons p rest ih =>
    obtain ⟨k, v⟩ := p
    by_cases hk : k = key
    · subst hk
      exact ⟨[], v, rest, rfl, List.not_mem_nil⟩
    · have hrest : key ∈ keys rest := (List.mem_cons.1 h).resolve_left (Ne.symm hk)
      obtain ⟨before, value, after, rfl, hbefore⟩ := ih hrest
      exact ⟨(k, v) :: before, value, after, rfl,
        List.not_mem_cons_of_ne_of_not_mem (Ne.symm hk) hbefore⟩

theorem get?_append_cons {before : Table α} {key : String} (h : key ∉ before.keys) (value : α)
    (after : Table α) : get? (before ++ (key, value) :: after) key = some value := by
  have hbefore : before.lookup key = none := get?_eq_none_iff.2 h
  rw [get?, List.lookup_append, hbefore, Option.none_or, List.lookup_cons_self]

theorem put_append_cons {before : Table α} {key : String} (h : key ∉ before.keys) (old value : α)
    (after : Table α) :
    put (before ++ (key, old) :: after) key value = before ++ (key, value) :: after := by
  induction before with
  | nil => simp [put]
  | cons p rest ih =>
    obtain ⟨hp, hrest⟩ := not_or.1 (mt List.mem_cons.2 h)
    rw [List.cons_append, put, if_neg (Ne.symm hp), ih hrest, List.cons_append]

theorem get?_eq_some_iff_mem {t : Table α} (h : t.keys.Nodup) {key : String} {value : α} :
    t.get? key = some value ↔ (key, value) ∈ t := by
  induction t with
  | nil => simp [get?]
  | cons p rest ih =>
    obtain ⟨k, v⟩ := p
    obtain ⟨hk, hrest⟩ := List.nodup_cons.1 h
    by_cases hkey : key = k
    · subst hkey
      have hmem : (key, value) ∉ rest := fun hp => hk (List.mem_map.2 ⟨_, hp, rfl⟩)
      simp [get?, hmem, eq_comm]
    · have hb : (key == k) = false := beq_false_of_ne hkey
      unfold get? at ih ⊢
      rw [List.lookup_cons, hb, List.mem_cons, ih hrest]
      simp [hkey]

theorem get?_eq_of_perm {t u : Table α} (h : t.keys.Nodup) (hperm : t.Perm u) (key : String) :
    t.get? key = u.get? key := by
  have hu : u.keys.Nodup := (hperm.map Prod.fst).nodup_iff.1 h
  apply Option.ext
  intro value
  rw [get?_eq_some_iff_mem h, get?_eq_some_iff_mem hu, hperm.mem_iff]

theorem get?_filter {t : Table α} {p : String × α → Bool} {key : String}
    (hp : ∀ value, p (key, value) = true) : get? (t.filter p) key = t.get? key := by
  induction t with
  | nil => rfl
  | cons q rest ih =>
    obtain ⟨k, v⟩ := q
    unfold get? at ih ⊢
    by_cases hkey : key = k
    · subst hkey
      rw [List.filter_cons_of_pos (hp v), List.lookup_cons_self, List.lookup_cons_self]
    · have hb : (key == k) = false := beq_false_of_ne hkey
      rw [List.filter_cons]
      split
      · rw [List.lookup_cons, List.lookup_cons, hb, ih]
      · rw [List.lookup_cons, hb, ih]

theorem eq_map_get? {t : Table α} (h : t.keys.Nodup) (missing : α) :
    t = t.keys.map fun k => (k, (t.get? k).getD missing) := by
  induction t with
  | nil => rfl
  | cons p rest ih =>
    obtain ⟨k, v⟩ := p
    obtain ⟨hk, hrest⟩ := List.nodup_cons.1 h
    have htail : ∀ c ∈ keys rest, get? ((k, v) :: rest) c = get? rest c := by
      intro c hc
      have hne : (c == k) = false := beq_false_of_ne fun heq => hk (heq ▸ hc)
      simp [get?, List.lookup_cons, hne]
    have hmap : (keys rest).map (fun c => (c, (get? ((k, v) :: rest) c).getD missing)) = rest := by
      refine Eq.trans ?_ (ih hrest).symm
      apply List.map_congr_left
      intro c hc
      rw [htail c hc]
    simp only [keys, List.map_cons] at hmap ⊢
    rw [hmap]
    simp [get?]

theorem flatMap_of_mem {t : Table α} (h : t.keys.Nodup) {key : String} {value : α}
    (hmem : (key, value) ∈ t) {f : String × α → List β} (hf : ∀ p ∈ t, p.1 ≠ key → f p = []) :
    t.flatMap f = f (key, value) := by
  induction t with
  | nil => cases hmem
  | cons p rest ih =>
    obtain ⟨hp, hrest⟩ := List.nodup_cons.1 h
    rw [List.flatMap_cons]
    rcases List.mem_cons.1 hmem with rfl | hmem
    · have hothers : rest.flatMap f = [] := by
        rw [List.flatMap_eq_nil_iff]
        intro q hq
        apply hf q (List.mem_cons_of_mem _ hq)
        exact fun hkey => hp (List.mem_map.2 ⟨q, hq, hkey⟩)
      rw [hothers, List.append_nil]
    · have hne : p.1 ≠ key := fun hkey => hp (List.mem_map.2 ⟨(key, value), hmem, hkey.symm⟩)
      rw [hf p List.mem_cons_self hne, List.nil_append]
      exact ih hrest hmem fun q hq => hf q (List.mem_cons_of_mem _ hq)

section MapValues

variable (f : α → β)

def mapValues (t : Table α) : Table β := t.map fun p => (p.1, f p.2)

@[simp] theorem mapValues_cons (p : String × α) (t : Table α) :
    mapValues f (p :: t) = (p.1, f p.2) :: mapValues f t := rfl

theorem map_mapValues {γ : Type} (t : Table α) (g : String × β → γ) :
    (t.mapValues f).map g = t.map fun p => g (p.1, f p.2) := by
  simp [mapValues, Function.comp_def]

@[simp] theorem keys_mapValues (t : Table α) : (t.mapValues f).keys = t.keys := by
  simp [keys, mapValues, Function.comp_def]

theorem get?_mapValues (t : Table α) (key : String) :
    (t.mapValues f).get? key = (t.get? key).map f := by
  induction t with
  | nil => rfl
  | cons p rest ih =>
    obtain ⟨k, v⟩ := p
    unfold get? at ih ⊢
    rw [mapValues_cons, List.lookup_cons, List.lookup_cons]
    cases key == k
    · exact ih
    · rfl

theorem put_mapValues (t : Table α) (key : String) (value : α) :
    (t.mapValues f).put key (f value) = (t.put key value).mapValues f := by
  induction t with
  | nil => rfl
  | cons p rest ih =>
    obtain ⟨k, v⟩ := p
    rw [mapValues_cons, put, put]
    split
    · rfl
    · rw [ih, mapValues_cons]

end MapValues

section Distinct

/-- The keys are all different, and each value is fit. -/
def Distinct (fit : α → Prop) (t : Table α) : Prop := t.keys.Nodup ∧ ∀ p ∈ t, fit p.2

variable {fit : α → Prop} {t : Table α}

theorem Distinct.nil : Distinct fit [] := ⟨List.nodup_nil, fun _ => (nomatch ·)⟩

theorem mem_or_eq_of_mem_put {key : String} {value : α} {p : String × α}
    (h : p ∈ t.put key value) : p ∈ t ∨ p = (key, value) := by
  induction t with
  | nil => exact .inr (List.mem_singleton.1 h)
  | cons q rest ih =>
    obtain ⟨k, v⟩ := q
    rw [put] at h
    split at h
    · next hk =>
      subst hk
      rcases List.mem_cons.1 h with rfl | h
      · exact .inr rfl
      · exact .inl (List.mem_cons_of_mem _ h)
    · rcases List.mem_cons.1 h with rfl | h
      · exact .inl List.mem_cons_self
      · exact (ih h).imp (List.mem_cons_of_mem _) id

theorem Distinct.put {key : String} {value : α} (h : t.Distinct fit) (hvalue : fit value) :
    (t.put key value).Distinct fit := by
  refine ⟨nodup_keys_put h.1 key value, fun p hp => ?_⟩
  rcases mem_or_eq_of_mem_put hp with hp | rfl
  · exact h.2 p hp
  · exact hvalue

end Distinct

end Table

end ClientGen
