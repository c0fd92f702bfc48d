/-! Maps that remember the order in which their keys were first seen. -/
namespace ClientGen

abbrev Table (α : Type) := List (String × α)

namespace Table

def keys (t : Table α) : List String := t.map Prod.fst

def get? (t : Table α) (key : String) : Option α := t.lookup key

def contains (t : Table α) (key : String) : Bool := (t.get? key).isSome

/-- A key that is present keeps its place and takes the new value. -/
def put (t : Table α) (key : String) (value : α) : Table α :=
  match t with
  | [] => [(key, value)]
  | (k, v) :: rest => if k = key then (k, value) :: rest else (k, v) :: put rest key value

theorem get?_eq_none_iff {t : Table α} {key : String} : t.get? key = none ↔ key ∉ t.keys := by
  induction t with
  | nil => simp [get?, keys]
  | cons p rest ih =>
    obtain ⟨k, v⟩ := p
    simp only [get?, keys, List.lookup_cons, List.map_cons, List.mem_cons, not_or] at ih ⊢
    by_cases h : key = k
    · simp [h]
    · have hb : (key == k) = false := beq_false_of_ne h
      simp [hb, h, ih]

theorem put_of_not_mem {t : Table α} {key : String} (h : key ∉ t.keys) (value : α) :
    t.put key value = t ++ [(key, value)] := by
  induction t with
  | nil => rfl
  | cons p rest ih =>
    obtain ⟨k, v⟩ := p
    simp only [keys, List.map_cons, List.mem_cons, not_or] at h
    rw [put, if_neg (Ne.symm h.1), ih h.2, List.cons_append]

theorem keys_put_of_mem {t : Table α} {key : String} (h : key ∈ t.keys) (value : α) :
    (t.put key value).keys = t.keys := by
  induction t with
  | nil => cases h
  | cons p rest ih =>
    obtain ⟨k, v⟩ := p
    by_cases hk : k = key
    · simp [put, hk, keys]
    · have : key ∈ keys rest := by
        rcases List.mem_cons.1 h with h | h
        · exact absurd h.symm hk
        · exact h
      rw [put, if_neg hk]
      simp only [keys, List.map_cons] at ih this ⊢
      rw [ih this]

@[simp] theorem get?_put_self (t : Table α) (key : String) (value : α) :
    (t.put key value).get? key = some value := by
  induction t with
  | nil => simp [put, get?]
  | cons p rest ih =>
    obtain ⟨k, v⟩ := p
    by_cases hk : k = key
    · simp [put, hk, get?]
    · have hb : (key == k) = false := beq_false_of_ne (Ne.symm hk)
      simpa [put, hk, get?, List.lookup_cons, hb] using ih

theorem get?_put_of_ne (t : Table α) {key other : String} (h : other ≠ key) (value : α) :
    (t.put key value).get? other = t.get? other := by
  have ho : (other == key) = false := beq_false_of_ne h
  induction t with
  | nil => simp [put, get?, List.lookup_cons, ho]
  | cons p rest ih =>
    obtain ⟨k, v⟩ := p
    by_cases hk : k = key
    · subst hk
      simp [put, get?, List.lookup_cons, ho]
    · simp only [get?] at ih
      simp only [put, if_neg hk, get?, List.lookup_cons, ih]

theorem nodup_keys_put {t : Table α} (h : t.keys.Nodup) (key : String) (value : α) :
    (t.put key value).keys.Nodup := by
  by_cases hk : key ∈ t.keys
  · rw [keys_put_of_mem hk]
    exact h
  · rw [put_of_not_mem hk]
    simp only [keys, List.map_append, List.map_cons, List.map_nil]
    exact List.nodup_append.2 ⟨h, by simp, fun a ha b hb => by
      rw [List.mem_singleton.1 hb]
      rintro rfl
      exact hk ha⟩

end Table

end ClientGen
