import ClientGen.Files.Store
import ClientGen.Proofs.Text.Name
/-! Where paths lead. The place of a path can be read off the path alone; that the path leads
there only takes directories, so what replaces no directory changes no path. -/
namespace ClientGen

/-- Where a path leads once the directories on its way are there. -/
def placeOf (path : String) : List String := (pathSegments path).foldl enter (startOf path)

namespace Store

variable {s t : Store}

def fileAt? (s : Store) (path : String) : Option ByteArray :=
  match s.get? (placeOf path) with
  | some (.file content) => some content
  | _ => none

def KeepsDirectories (s t : Store) : Prop :=
  ∀ place, s.get? place = some .directory → t.get? place = some .directory

theorem locateFrom_eq {place q : List String} {segments : List String}
    (h : s.locateFrom place segments = .ok q) : q = segments.foldl enter place := by
  fun_induction locateFrom s place segments with
  | case1 place =>
    cases h
    rfl
  | case2 | case3 | case4 => cases h
  | case5 place segment rest _ _ ih => exact ih h

theorem locateFrom_mono (hkeep : s.KeepsDirectories t) {place q : List String}
    {segments : List String} (h : s.locateFrom place segments = .ok q) :
    t.locateFrom place segments = .ok q := by
  fun_induction locateFrom s place segments with
  | case1 place => exact h
  | case2 | case3 | case4 => cases h
  | case5 place segment rest hdirectory hsize ih =>
    rw [locateFrom, hkeep place hdirectory]
    simp only [hsize, if_false]
    exact ih h

theorem locate_eq {path : String} {place : List String} (h : s.locate path = .ok place) :
    place = placeOf path := by
  unfold locate at h
  split at h
  · cases h
  · split at h
    · cases h
    · exact locateFrom_eq h

theorem locate_mono (hkeep : s.KeepsDirectories t) {path : String} {place : List String}
    (h : s.locate path = .ok place) : t.locate path = .ok place := by
  unfold locate at h ⊢
  split at h
  · cases h
  · split at h
    · cases h
    · next hempty =>
      simp only [hempty]
      exact locateFrom_mono hkeep h

theorem not_isAbove_of_get? {place : List String} (h : s.get? place ≠ some .directory) :
    isAbove place = false := by
  cases habove : isAbove place with
  | false => rfl
  | true => exact absurd (by simp [get?, habove]) h

theorem freshName_chars (s : Store) :
    '/' ∉ s.freshName.toList ∧ ∃ rest, s.freshName.toList = '.' :: 't' :: rest := by
  have hbase : ".tmp".toList = ['.', 't', 'm', 'p'] := rfl
  rcases Text.freeName_eq (s.nodes.flatMap (·.1)) ".tmp" with h | ⟨n, h⟩
  · rw [freshName, h, hbase]
    exact ⟨by decide, _, rfl⟩
  · have hchars : s.freshName.toList = ['.', 't', 'm', 'p', '_'] ++ n.repr.toList := by
      rw [freshName, h, Text.suffixed]
      simp
    rw [hchars, List.mem_append, not_or]
    refine ⟨⟨by decide, fun hslash => ?_⟩, _, rfl⟩
    rw [Nat.toList_repr] at hslash
    exact absurd (Nat.isDigit_of_mem_toDigits (by decide) (by decide) hslash) (by decide)

theorem freshName_ne {segment : String}
    (h : segment.toList.take 2 ≠ ['.', 't'] := by decide) : s.freshName ≠ segment := by
  rintro rfl
  obtain ⟨_, rest, hchars⟩ := s.freshName_chars
  rw [hchars] at h
  exact h rfl

theorem get?_freshName (place : List String) : s.get? (place ++ [s.freshName]) = none := by
  have hdots : s.freshName ≠ ".." := freshName_ne
  have hroot : s.freshName ≠ "/" := freshName_ne
  have habove : isAbove (place ++ [s.freshName]) = false := by
    cases place <;> simp [isAbove, hdots, hroot]
  have hfree := Text.freeName_not_mem (s.nodes.flatMap (·.1)) ".tmp"
  unfold get?
  rw [habove, if_neg Bool.false_ne_true, List.lookup_eq_none_iff]
  intro node hnode
  rw [bne_iff_ne]
  intro heq
  apply hfree
  refine List.mem_flatMap.2 ⟨node, hnode, ?_⟩
  rw [← heq]
  exact List.mem_append_right _ List.mem_cons_self

theorem get?_placeOf_freshName (directory : String) :
    s.get? (placeOf (directory ++ "/" ++ s.freshName)) = none := by
  have hslash : '/' ∉ s.freshName.toList := s.freshName_chars.1
  have hempty : s.freshName ≠ "" := freshName_ne
  have hdot : s.freshName ≠ "." := freshName_ne
  have hdots : s.freshName ≠ ".." := freshName_ne
  have hsplit : (directory ++ "/" ++ s.freshName).toList.splitOn '/' =
      directory.toList.splitOn '/' ++ [s.freshName.toList] := by
    rw [← List.splitOn_eq_singleton hslash, ← List.splitOn_append_cons_self]
    simp
  have hsegments : pathSegments (directory ++ "/" ++ s.freshName) =
      pathSegments directory ++ [s.freshName] := by
    unfold pathSegments
    rw [hsplit]
    simp [hempty, hdot]
  rw [placeOf, hsegments, List.foldl_append, List.foldl_cons, List.foldl_nil, enter, if_neg hdots]
  exact get?_freshName _

end Store

end ClientGen
