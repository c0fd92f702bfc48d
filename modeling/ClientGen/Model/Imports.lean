import ClientGen.Model.Convention
/-! The symbols a generated file imports, by module. Modules, and the symbols of each, stand
in increasing order, so the order in which they were recorded does not show. -/
namespace ClientGen

def insertIncreasing (s : String) : List String → List String
  | [] => [s]
  | t :: ts => if s = t then t :: ts else if s < t then s :: t :: ts else t :: insertIncreasing s ts

structure Imports where
  modules : List (String × List String) := []
deriving DecidableEq, Repr

namespace Imports

def insertInto (module symbol : String) :
    List (String × List String) → List (String × List String)
  | [] => [(module, [symbol])]
  | (m, symbols) :: rest =>
    if module = m then (m, insertIncreasing symbol symbols) :: rest
    else if module < m then (module, [symbol]) :: (m, symbols) :: rest
    else (m, symbols) :: insertInto module symbol rest

def insert (i : Imports) (module symbol : String) : Imports :=
  ⟨insertInto module symbol i.modules⟩

def get? (i : Imports) (module : String) : Option (List String) := i.modules.lookup module

def contains (i : Imports) (module symbol : String) : Bool :=
  (i.get? module).any (·.contains symbol)

def isEmpty (i : Imports) : Bool := i.modules.isEmpty

def symbolCount (i : Imports) : Nat := (i.modules.flatMap (·.2)).length

def insertAll (i : Imports) (pairs : List (String × String)) : Imports :=
  pairs.foldl (fun i p => i.insert p.1 p.2) i

def record (i : Imports) (c : Convention) (model : String) : Imports :=
  match c.exportOf? model with
  | some found => i.insert found.module found.model
  | none => i

end Imports

theorem mem_insertIncreasing {s t : String} {l : List String} :
    t ∈ insertIncreasing s l ↔ t = s ∨ t ∈ l := by
  induction l with
  | nil => simp [insertIncreasing]
  | cons a as ih =>
    simp only [insertIncreasing]
    split
    · next h => subst h; simp
    · split
      · simp
      · simp only [List.mem_cons, ih]
        constructor
        · rintro (h | h | h) <;> simp [h]
        · rintro (h | h | h) <;> simp [h]

theorem pairwise_insertIncreasing {l : List String} (h : l.Pairwise (· < ·)) (s : String) :
    (insertIncreasing s l).Pairwise (· < ·) := by
  induction l with
  | nil => simp [insertIncreasing]
  | cons a as ih =>
    obtain ⟨ha, has⟩ := List.pairwise_cons.1 h
    simp only [insertIncreasing]
    split
    · exact h
    · next hne =>
      split
      · next hlt =>
        exact List.pairwise_cons.2 ⟨fun b hb => by
          rcases List.mem_cons.1 hb with rfl | hb
          · exact hlt
          · exact String.lt_trans hlt (ha b hb), h⟩
      · next hlt =>
        refine List.pairwise_cons.2 ⟨fun b hb => ?_, ih has⟩
        rcases mem_insertIncreasing.1 hb with rfl | hb
        · exact Std.lt_of_le_of_ne (String.not_lt.1 hlt) (Ne.symm hne)
        · exact ha b hb

theorem insertIncreasing_ne_nil (s : String) (l : List String) : insertIncreasing s l ≠ [] := by
  cases l with
  | nil => simp [insertIncreasing]
  | cons a as =>
    simp only [insertIncreasing]
    split
    · simp
    · split <;> simp

end ClientGen
