import ClientGen.Model.Imports
import ClientGen.Model.Convention
import Mathlib.Data.List.Nodup
import Mathlib.Data.List.Pairwise

namespace ClientGen

open Text (continuesIdentifier isIdentifier)

theorem nodup_flatMap_iff {α β : Type} {f : α → List β} {l : List α} (h : l.Nodup) :
    (l.flatMap f).Nodup ↔
      (∀ a ∈ l, (f a).Nodup) ∧ ∀ a ∈ l, ∀ b ∈ l, a ≠ b → (f a).Disjoint (f b) := by
  have : Std.Symm (Function.onFun List.Disjoint f) := ⟨fun _ _ => List.disjoint_symm⟩
  rw [List.nodup_flatMap]
  refine and_congr_right fun _ => ⟨fun hl a ha b hb hne => hl.forall ha hb hne, fun hl => ?_⟩
  exact h.pairwise_of_forall_ne fun a ha b hb hne => hl a ha b hb hne

theorem nodup_of_increasing {l : List String} (h : l.Pairwise (· < ·)) : l.Nodup := by
  apply h.imp
  rintro a _ hlt rfl
  exact String.lt_irrefl a hlt

namespace Imports

def Has (i : Imports) (module symbol : String) : Prop :=
  ∃ p ∈ i.modules, p.1 = module ∧ symbol ∈ p.2

theorem has_insert {i : Imports} {module symbol m s : String} :
    (i.insert module symbol).Has m s ↔ (m = module ∧ s = symbol) ∨ i.Has m s := by
  unfold Has insert
  induction i.modules with
  | nil => simp [insertInto, eq_comm]
  | cons p rest ih =>
    obtain ⟨n, symbols⟩ := p
    simp only [insertInto]
    split
    · next h =>
      subst h
      simp only [List.mem_cons, exists_eq_or_imp, mem_insertIncreasing]
      grind
    · split
      · simp only [List.mem_cons, exists_eq_or_imp, List.not_mem_nil, or_false]
        grind
      · simp only [List.mem_cons, exists_eq_or_imp] at ih ⊢
        rw [ih]
        exact or_left_comm

theorem map_fst_insertInto (module symbol : String) (ms : List (String × List String)) :
    (insertInto module symbol ms).map Prod.fst = insertIncreasing module (ms.map Prod.fst) := by
  induction ms with
  | nil => rfl
  | cons p rest ih =>
    obtain ⟨m, symbols⟩ := p
    simp only [insertInto, List.map_cons, insertIncreasing]
    split
    · rfl
    · split
      · rfl
      · rw [List.map_cons, ih]

theorem pairwise_symbols_insertInto {module symbol : String} {ms : List (String × List String)}
    (h : ∀ p ∈ ms, p.2.Pairwise (· < ·)) :
    ∀ p ∈ insertInto module symbol ms, p.2.Pairwise (· < ·) := by
  induction ms with
  | nil => simp [insertInto]
  | cons q rest ih =>
    obtain ⟨m, symbols⟩ := q
    obtain ⟨hm, hrest⟩ := List.forall_mem_cons.1 h
    simp only [insertInto]
    split
    · exact List.forall_mem_cons.2 ⟨pairwise_insertIncreasing hm symbol, hrest⟩
    · split
      · exact List.forall_mem_cons.2 ⟨List.pairwise_singleton _ _, h⟩
      · exact List.forall_mem_cons.2 ⟨hm, ih hrest⟩

structure Increasing (i : Imports) : Prop where
  modules : (i.modules.map Prod.fst).Pairwise (· < ·)
  symbols : ∀ p ∈ i.modules, p.2.Pairwise (· < ·)

namespace Increasing

theorem insert {i : Imports} (h : i.Increasing) (module symbol : String) :
    (i.insert module symbol).Increasing where
  modules := by
    have hstep := pairwise_insertIncreasing h.modules module
    rwa [← map_fst_insertInto module symbol] at hstep
  symbols := pairwise_symbols_insertInto h.symbols

theorem insertAll {i : Imports} (h : i.Increasing) (pairs : List (String × String)) :
    (i.insertAll pairs).Increasing := by
  unfold Imports.insertAll
  induction pairs generalizing i with
  | nil => exact h
  | cons p pairs ih => exact ih (h.insert p.1 p.2)

theorem empty : Increasing {} where
  modules := List.Pairwise.nil
  symbols := by simp

theorem nodup_modules {i : Imports} (h : i.Increasing) : (i.modules.map Prod.fst).Nodup :=
  nodup_of_increasing h.modules

theorem nodup_symbols {i : Imports} (h : i.Increasing) {p : String × List String}
    (hp : p ∈ i.modules) : p.2.Nodup := nodup_of_increasing (h.symbols p hp)

/-- All imports together name a symbol once, unless it stands in those of two modules. -/
theorem nodup_flatMap_symbols_iff {i : Imports} (h : i.Increasing) :
    (i.modules.flatMap Prod.snd).Nodup ↔ ∀ m n s, i.Has m s → i.Has n s → m = n := by
  rw [nodup_flatMap_iff h.nodup_modules.of_map]
  constructor
  · rintro ⟨_, hdisjoint⟩ _ _ s ⟨p, hp, rfl, hps⟩ ⟨q, hq, rfl, hqs⟩
    by_contra hne
    apply hdisjoint p hp q hq _ hps hqs
    rintro rfl
    exact hne rfl
  · intro hone
    refine ⟨fun p hp => h.nodup_symbols hp, fun p hp q hq hne s hps hqs => hne ?_⟩
    apply List.inj_on_of_nodup_map h.nodup_modules hp hq
    exact hone _ _ s ⟨p, hp, rfl, hps⟩ ⟨q, hq, rfl, hqs⟩

end Increasing

theorem nodup_modules_insertAll (pairs : List (String × String)) :
    ((insertAll {} pairs).modules.map Prod.fst).Nodup :=
  (Increasing.empty.insertAll pairs).nodup_modules

theorem has_insertAll {i : Imports} {pairs : List (String × String)} {m s : String} :
    (i.insertAll pairs).Has m s ↔ (m, s) ∈ pairs ∨ i.Has m s := by
  unfold insertAll
  induction pairs generalizing i with
  | nil => simp
  | cons p pairs ih =>
    rw [List.foldl_cons, ih, has_insert, List.mem_cons, Prod.ext_iff, or_left_comm, or_assoc]

theorem has_insertAll_empty {pairs : List (String × String)} {m s : String} :
    (insertAll {} pairs).Has m s ↔ (m, s) ∈ pairs := by
  rw [has_insertAll]
  simp [Has]

end Imports

namespace Convention

theorem continuesIdentifier_of_mem_validator {c : Convention} {entity rest : List Char}
    (hc : c.validatorSuffix.isEmpty = true ∨ isIdentifier c.validatorSuffix = true)
    (he : ∀ d ∈ entity, continuesIdentifier d = true)
    (hr : ∀ d ∈ rest, continuesIdentifier d = true) {v : String}
    (hv : v ∈ c.validator entity rest) : ∀ d ∈ v.toList, continuesIdentifier d = true := by
  unfold validator at hv
  split at hv
  · cases hv
  · next hempty =>
    cases hv
    intro d hd
    simp only [String.toList_ofList, List.mem_append] at hd
    rcases hd with (hd | hd) | hd
    · exact he d hd
    · exact Text.continuesIdentifier_of_isIdentifier (hc.resolve_left hempty) d hd
    · exact hr d hd

theorem continuesIdentifier_of_exportOf? {c : Convention} {model : String} {found : ModelExport}
    (hc : c.validatorSuffix.isEmpty = true ∨ isIdentifier c.validatorSuffix = true)
    (hm : isIdentifier model = true) (h : c.exportOf? model = some found) {v : String}
    (hv : v ∈ found.validator) : ∀ d ∈ v.toList, continuesIdentifier d = true := by
  have hchars := Text.continuesIdentifier_of_isIdentifier hm
  obtain ⟨entity, rest, hmodel, hvalidator⟩ := cut_of_exportOf? h
  rw [hmodel] at hchars
  rw [hvalidator] at hv
  exact continuesIdentifier_of_mem_validator hc
    (fun d hd => hchars d (List.mem_append_left _ (List.mem_append_left _ hd)))
    (fun d hd => hchars d (List.mem_append_right _ hd)) hv

end Convention

end ClientGen
