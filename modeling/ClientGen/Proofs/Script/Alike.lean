import ClientGen.Proofs.Script.Reading
import ClientGen.Script.TypeText
import Mathlib.Data.List.Forall2
/-! Two pieces of a script that are the same code up to comments and blank lines, compared with
the open brackets before and behind them. A piece alike to itself is one the bracket check goes
through. -/
namespace ClientGen.Script

open Text (isBlank joinWith guardCommentEnd feedLines)

theorem filledLines_feed (s t : List Char) :
    filledLines (s ++ '\n' :: t) = filledLines s ++ filledLines t := by
  simp [filledLines, List.splitOn_append_cons_self]

theorem mem_of_mem_splitOn {s l : List Char} {c : Char} (h : l ∈ s.splitOn '\n') (hc : c ∈ l) :
    c ∈ s := by
  induction s generalizing l with
  | nil =>
    rw [List.splitOn_nil, List.mem_singleton] at h
    subst h
    exact hc
  | cons d ds ih =>
    rw [List.splitOn_cons_eq_if_modifyHead] at h
    split at h
    · rcases List.mem_cons.1 h with rfl | h
      · cases hc
      · exact List.mem_cons_of_mem d (ih h hc)
    · cases hds : ds.splitOn '\n' with
      | nil => exact absurd hds (List.splitOn_ne_nil '\n' ds)
      | cons first others =>
        rw [hds, List.modifyHead_cons] at h
        rw [hds] at ih
        rcases List.mem_cons.1 h with rfl | h
        · rcases List.mem_cons.1 hc with rfl | hc
          · exact List.mem_cons_self
          · exact List.mem_cons_of_mem d (ih List.mem_cons_self hc)
        · exact List.mem_cons_of_mem d (ih (List.mem_cons_of_mem first h) hc)

theorem filledLines_of_blank {s : List Char} (h : ∀ c ∈ s, isBlank c = true) :
    filledLines s = [] := by
  unfold filledLines
  rw [List.filter_eq_nil_iff]
  intro l hl
  have hblank : l.all isBlank = true := by
    rw [List.all_eq_true]
    intro c hc
    exact h c (mem_of_mem_splitOn hl hc)
  simp [hblank]

def WholeLines (s : List Char) : Prop := s = [] ∨ ∃ t, s = t ++ ['\n']

theorem WholeLines.filledLines_append {s : List Char} (h : WholeLines s) (t : List Char) :
    filledLines (s ++ t) = filledLines s ++ filledLines t := by
  rcases h with rfl | ⟨r, rfl⟩
  · rfl
  · have hempty : filledLines [] = [] := by decide
    rw [List.append_assoc, List.singleton_append, filledLines_feed, filledLines_feed, hempty,
      List.append_nil]

theorem WholeLines.append {s t : List Char} (hs : WholeLines s) (ht : WholeLines t) :
    WholeLines (s ++ t) := by
  rcases ht with rfl | ⟨r, rfl⟩
  · simpa using hs
  · exact .inr ⟨s ++ r, by simp⟩

/-- No text around them tells the two apart by its filled lines. -/
def SameLines (s t : List Char) : Prop :=
  ∀ before behind, filledLines (before ++ s ++ behind) = filledLines (before ++ t ++ behind)

namespace SameLines

theorem refl (s : List Char) : SameLines s s := fun _ _ => rfl

theorem append {s t u v : List Char} (h : SameLines s t) (g : SameLines u v) :
    SameLines (s ++ u) (t ++ v) := by
  intro before behind
  calc filledLines (before ++ (s ++ u) ++ behind)
      = filledLines (before ++ s ++ (u ++ behind)) := by simp
    _ = filledLines (before ++ t ++ (u ++ behind)) := h before (u ++ behind)
    _ = filledLines ((before ++ t) ++ u ++ behind) := by simp
    _ = filledLines ((before ++ t) ++ v ++ behind) := g (before ++ t) behind
    _ = filledLines (before ++ (t ++ v) ++ behind) := by simp

theorem of_wholeLines {s t : List Char} (hs : WholeLines s) (ht : WholeLines t)
    (h : filledLines s = filledLines t) : SameLines ('\n' :: s) ('\n' :: t) := by
  intro before behind
  simp only [List.append_assoc, List.cons_append, filledLines_feed, hs.filledLines_append,
    ht.filledLines_append, h]

end SameLines

/-- Both pieces turn the open brackets `ks` into `ks'`, and the same code is left of them. -/
def Alike (ks : List Char) (s t : String) (ks' : List Char) : Prop :=
  ∃ u v, Reads ks s.toList u ks' ∧ Reads ks t.toList v ks' ∧ SameLines u v

namespace Alike

theorem of_reads {ks ks' : List Char} {s : String} (h : Reads ks s.toList s.toList ks') :
    Alike ks s s ks' :=
  ⟨s.toList, s.toList, h, h, .refl _⟩

theorem append {ks ks' ks'' : List Char} {s t u v : String} (h : Alike ks s t ks')
    (g : Alike ks' u v ks'') : Alike ks (s ++ u) (t ++ v) ks'' := by
  obtain ⟨s', t', hs, ht, hst⟩ := h
  obtain ⟨u', v', hu, hv, huv⟩ := g
  refine ⟨s' ++ u', t' ++ v', ?_, ?_, hst.append huv⟩
  · rw [String.toList_append]
    exact hs.append hu
  · rw [String.toList_append]
    exact ht.append hv

theorem of_brackets {ks ks' : List Char} {s : String}
    (h : bracketsAfter ks s.toList = some ks') : Alike ks s s ks' :=
  of_reads (.of_brackets h)

theorem of_ordinary {s : String} (h : Ordinary s) (ks : List Char) : Alike ks s s ks :=
  of_brackets (bracketsAfter_of_ordinary h ks)

theorem literal (ks : List Char) (value : String) :
    Alike ks (textLiteral value) (textLiteral value) ks :=
  of_reads (.literal ks value)

theorem joinWith {ks : List Char} {sep : String} (hsep : Ordinary sep)
    {ss ts : List String} (h : List.Forall₂ (Alike ks · · ks) ss ts) :
    Alike ks (joinWith sep ss) (joinWith sep ts) ks := by
  induction h with
  | nil => exact of_brackets rfl
  | cons hs hrest ih =>
    cases hrest with
    | nil => exact hs
    | cons hs' hrest' => exact (hs.append (of_ordinary hsep ks)).append ih

end Alike

def AlikeLines (ks s t ks' : List Char) : Prop :=
  ∃ u v, Reads ks s u ks' ∧ Reads ks t v ks' ∧ WholeLines u ∧ WholeLines v ∧
    filledLines u = filledLines v

namespace AlikeLines

theorem nil (ks : List Char) : AlikeLines ks [] [] ks :=
  ⟨[], [], .nil ks, .nil ks, .inl rfl, .inl rfl, rfl⟩

theorem append {ks ks' ks'' s t u v : List Char} (h : AlikeLines ks s t ks')
    (g : AlikeLines ks' u v ks'') : AlikeLines ks (s ++ u) (t ++ v) ks'' := by
  obtain ⟨s', t', hs, ht, ws, wt, hst⟩ := h
  obtain ⟨u', v', hu, hv, wu, wv, huv⟩ := g
  refine ⟨s' ++ u', t' ++ v', hs.append hu, ht.append hv, ws.append wu, wt.append wv, ?_⟩
  rw [ws.filledLines_append, wt.filledLines_append, hst, huv]

end AlikeLines

def Spaces (s : String) : Prop := ∀ c ∈ s.toList, c = ' '

instance (s : String) : Decidable (Spaces s) :=
  List.decidableBAll (· = ' ') s.toList

namespace Spaces

theorem append {s t : String} (hs : Spaces s) (ht : Spaces t) : Spaces (s ++ t) := by
  intro c hc
  rw [String.toList_append] at hc
  exact (List.mem_append.1 hc).elim (hs c) (ht c)

theorem reads {s : String} (h : Spaces s) (ks : List Char) : Reads ks s.toList s.toList ks := by
  apply Reads.of_brackets
  apply bracketsAfter_of_ordinary
  intro c hc
  rw [h c hc]
  decide

theorem filledLines_line {s : String} (h : Spaces s) : filledLines (s.toList ++ ['\n']) = [] := by
  apply filledLines_of_blank
  intro c hc
  rcases List.mem_append.1 hc with hc | hc
  · rw [h c hc]
    decide
  · rw [List.mem_singleton.1 hc]
    decide

end Spaces

theorem Reads.feed (ks : List Char) : Reads ks ['\n'] ['\n'] ks := .of_brackets rfl

theorem AlikeLines.of_line {ks ks' : List Char} {indentation s t : String}
    (hi : Spaces indentation) (h : Alike ks s t ks') :
    AlikeLines ks (indentation ++ s ++ "\n").toList (indentation ++ t ++ "\n").toList ks' := by
  obtain ⟨u, v, hu, hv, huv⟩ := h
  simp only [String.toList_append]
  refine ⟨_, _, ((hi.reads ks).append hu).append (.feed ks'), ((hi.reads ks).append hv).append
    (.feed ks'), .inr ⟨_, rfl⟩, .inr ⟨_, rfl⟩, huv _ _⟩

/-- Whole lines of which nothing is left but blanks. -/
def CommentLines (s : List Char) : Prop :=
  ∀ ks, ∃ u, Reads ks s u ks ∧ WholeLines u ∧ filledLines u = []

namespace CommentLines

theorem nil : CommentLines [] := fun ks => ⟨[], .nil ks, .inl rfl, by decide⟩

theorem append {s t : List Char} (hs : CommentLines s) (ht : CommentLines t) :
    CommentLines (s ++ t) := by
  intro ks
  obtain ⟨u, hu, wu, fu⟩ := hs ks
  obtain ⟨v, hv, wv, fv⟩ := ht ks
  refine ⟨u ++ v, hu.append hv, wu.append wv, ?_⟩
  rw [wu.filledLines_append, fu, fv, List.append_nil]

theorem flatten {ss : List (List Char)} (h : ∀ s ∈ ss, CommentLines s) :
    CommentLines ss.flatten := by
  induction ss with
  | nil => exact nil
  | cons s ss ih =>
    rw [List.flatten_cons]
    exact (h s List.mem_cons_self).append (ih fun t ht => h t (List.mem_cons_of_mem s ht))

theorem feed : CommentLines ['\n'] := fun ks => ⟨['\n'], .feed ks, .inr ⟨[], rfl⟩, by decide⟩

theorem block {indentation : String} (hi : Spaces indentation) {body : List Char}
    (h : starAfter false body = some true) :
    CommentLines (indentation.toList ++ ('/' :: '*' :: (body ++ ['/'])) ++ ['\n']) := by
  intro ks
  refine ⟨_, ((hi.reads ks).append (.blockComment ks h)).append (.feed ks), .inr ⟨_, rfl⟩, ?_⟩
  rw [List.append_nil]
  exact hi.filledLines_line

theorem line {indentation : String} (hi : Spaces indentation) (body : List Char)
    (h : ∀ c ∈ body, Text.endsScriptLine c = false) :
    CommentLines (indentation.toList ++ '/' :: '/' :: (body ++ ['\n'])) := by
  intro ks
  exact ⟨_, (hi.reads ks).append (.lineComment ks h), .inr ⟨_, rfl⟩, hi.filledLines_line⟩

theorem alike {s t : List Char} (hs : CommentLines s) (ht : CommentLines t) (ks : List Char) :
    AlikeLines ks s t ks := by
  obtain ⟨u, hu, wu, fu⟩ := hs ks
  obtain ⟨v, hv, wv, fv⟩ := ht ks
  exact ⟨u, v, hu, hv, wu, wv, fu.trans fv.symm⟩

end CommentLines

end ClientGen.Script
