import ClientGen.Proofs.Script.FileReading
import ClientGen.Proofs.Script.FilledLines
import Mathlib.Data.List.Chain

namespace ClientGen.Script

open Layout (Canvas)
open Text (isBlank)

def Apart (l m : List Char) : Prop := ¬ (l.all isBlank = true ∧ m.all isBlank = true)

theorem Apart.of_left {l : List Char} (h : l.all isBlank = false) (m : List Char) : Apart l m :=
  fun hboth => absurd (hboth.1.symm.trans h) (by decide)

theorem Apart.of_right (l : List Char) {m : List Char} (h : m.all isBlank = false) : Apart l m :=
  fun hboth => absurd (hboth.2.symm.trans h) (by decide)

/-- A text that is not empty, ends with one line feed, and has no two blank lines next to each
other. -/
structure Tidy (code : String) : Prop where
  ne_empty : code ≠ ""
  ends_once : ∃ s, code.toList = s ++ ['\n'] ∧ s.getLast? ≠ some '\n'
  spacing : (code.toList.splitOn '\n').IsChain Apart

theorem endedLines_append (ls ms : List (List Char)) :
    endedLines (ls ++ ms) = endedLines ls ++ endedLines ms := List.flatMap_append

theorem endedLines_eq_intercalate (ls : List (List Char)) :
    endedLines ls = ['\n'].intercalate (ls ++ [[]]) := by
  induction ls with
  | nil => rfl
  | cons l ls ih =>
    rw [List.cons_append, List.intercalate_cons_of_ne_nil (by simp), ← ih]
    simp [endedLines]

theorem splitOn_endedLines {ls : List (List Char)} (h : ∀ l ∈ ls, '\n' ∉ l) :
    (endedLines ls).splitOn '\n' = ls ++ [[]] := by
  rw [endedLines_eq_intercalate]
  apply List.splitOn_intercalate _ _ (by simp)
  intro l hl
  rcases List.mem_append.1 hl with hl | hl
  · exact h l hl
  · simp [List.mem_singleton.1 hl]

namespace Layout

def Step.Filled : Step → Prop
  | .line text => ∀ {indentation : String}, Spaces indentation → Script.Filled (text indentation)
  | .blank => True
  | .indent => True
  | .dedent => True

def Neat (l : Layout) : Prop := ∀ s ∈ l, s.Filled

/-- A text is made of these lines. A blank one is empty, and does not stand behind another one or
at the top. -/
structure Ruled (s : List Char) (ls : List (List Char)) : Prop where
  text : s = endedLines ls
  oneLine : ∀ l ∈ ls, '\n' ∉ l
  empty : ∀ l ∈ ls, l.all isBlank = true → l = []
  apart : ([] :: ls).IsChain Apart

namespace Ruled

theorem nil : Ruled [] [] := ⟨rfl, by simp, by simp, .singleton _⟩

theorem append {s t : List Char} {ls ms : List (List Char)} (h : Ruled s ls)
    (ht : t = endedLines ms) (hms : ∀ l ∈ ms, '\n' ∉ l ∧ l.all isBlank = false) :
    Ruled (s ++ t) (ls ++ ms) where
  text := by rw [h.text, ht, endedLines_append]
  oneLine := List.forall_mem_append.2 ⟨h.oneLine, fun l hl => (hms l hl).1⟩
  empty := by
    refine List.forall_mem_append.2 ⟨h.empty, fun l hl hblank => ?_⟩
    exact absurd (hblank.symm.trans (hms l hl).2) (by decide)
  apart := by
    have hpairs : ms.Pairwise Apart := by
      apply List.pairwise_of_forall_mem_list
      exact fun l hl m _ => .of_left (hms l hl).2 m
    rw [← List.cons_append]
    exact h.apart.append hpairs.isChain fun l _ m hm =>
      .of_right l (hms m (List.mem_of_mem_head? hm)).2

theorem append_feed {s l : List Char} {ls : List (List Char)} (h : Ruled s (ls ++ [l]))
    (hl : l.all isBlank = false) : Ruled (s ++ ['\n']) (ls ++ [l] ++ [[]]) where
  text := by rw [h.text, endedLines_append _ [[]]]; rfl
  oneLine := List.forall_mem_append.2 ⟨h.oneLine, by simp⟩
  empty := List.forall_mem_append.2 ⟨h.empty, by simp⟩
  apart := by
    rw [← List.cons_append]
    refine h.apart.append (.singleton _) fun m hm n _ => ?_
    rw [← List.cons_append, List.getLast?_concat] at hm
    obtain rfl := Option.some.inj hm
    exact .of_left hl n

theorem line {c : Canvas} {ls : List (List Char)} (h : Ruled c.chars ls) {text : String}
    (htext : Script.Filled text) : ∃ ms, Ruled (c.line text).chars ms := by
  have hne : text ≠ "" := by
    rintro rfl
    cases htext
  have hline := (OneLine.of_spaces (spaces_indentation c.level)).append_filled htext
  obtain ⟨ms, hms, _, hfilled⟩ := hline.exists_lines
  refine ⟨ls ++ ms, ?_⟩
  rw [Canvas.chars_line, toList_lineText _ hne]
  apply h.append _ hfilled
  rw [← hms, String.toList_append, List.append_assoc]

theorem blank {c : Canvas} {ls : List (List Char)} (h : Ruled c.chars ls) :
    ∃ ms, Ruled c.blank.chars ms := by
  obtain rfl | ⟨init, l, rfl⟩ := List.eq_nil_or_concat' ls
  · -- at the top
    have hempty : c.reversed = [] := by simpa [Canvas.chars, endedLines] using h.text
    refine ⟨[], ?_⟩
    unfold Canvas.blank
    rwa [hempty]
  by_cases hl : l.all isBlank = true
  · -- behind a blank line, which has a filled one in front of it
    obtain rfl := h.empty l (by simp) hl
    obtain rfl | ⟨init, m, rfl⟩ := List.eq_nil_or_concat' init
    · have htop := h.apart
      simp [Apart] at htop
    have hfeeds : c.reversed = '\n' :: '\n' :: (endedLines init ++ m).reverse := by
      rw [← List.reverse_reverse c.reversed]
      change c.chars.reverse = _
      rw [h.text]
      simp [endedLines]
    refine ⟨init ++ [m] ++ [[]], ?_⟩
    unfold Canvas.blank
    rwa [hfeeds]
  · rcases c.chars_blank with hc | hc
    · exact ⟨_, hc ▸ h⟩
    · exact ⟨_, hc ▸ h.append_feed (by simpa using hl)⟩

theorem step {c : Canvas} {ls : List (List Char)} (h : Ruled c.chars ls) {s : Step}
    (hs : s.Filled) : ∃ ms, Ruled (c.step s).chars ms := by
  cases s with
  | line text => exact h.line (hs (spaces_indentation c.level))
  | blank => exact h.blank
  | indent => exact ⟨ls, h⟩
  | dedent => exact ⟨ls, h⟩

theorem run {c : Canvas} {ls : List (List Char)} (h : Ruled c.chars ls) {l : Layout}
    (hl : l.Neat) : ∃ ms, Ruled (c.run l).chars ms := by
  induction l generalizing c ls with
  | nil => exact ⟨ls, h⟩
  | cons s l ih =>
    obtain ⟨ms, hms⟩ := h.step (hl s List.mem_cons_self)
    exact ih hms fun t ht => hl t (List.mem_cons_of_mem s ht)

end Ruled

end Layout

theorem File.tidy_text {f : File} (hne : f.classes ≠ []) (h : f.code.Neat) : Tidy f.text := by
  have htext := toList_text hne
  obtain ⟨cs, hcs⟩ := closed_code hne {}
  obtain ⟨ls, hls⟩ := Layout.Ruled.nil.run (c := {}) h
  have hend : f.text.toList = cs.reverse ++ ['}'] ++ ['\n'] := by
    rw [htext, Canvas.chars, hcs]
    simp
  have hlast : ∀ l ∈ ls.getLast?, l.all isBlank = false := by
    intro l hl
    obtain ⟨init, rfl⟩ := List.getLast?_eq_some_iff.1 hl
    refine Bool.eq_false_iff.2 fun hblank => ?_
    obtain rfl := hls.empty l (by simp) hblank
    rw [htext, hls.text, endedLines_append] at hend
    have hbrace : endedLines init = cs.reverse ++ ['}'] := List.append_cancel_right hend
    obtain rfl | ⟨first, m, rfl⟩ := List.eq_nil_or_concat' init
    · simp [endedLines] at hbrace
    · simp [endedLines, ← List.append_assoc] at hbrace
  constructor
  · rintro hempty
    rw [hempty] at hend
    simp at hend
  · exact ⟨_, hend, by simp⟩
  · rw [htext, hls.text, splitOn_endedLines hls.oneLine]
    exact (List.IsChain.tail hls.apart).append (.singleton _) fun l hl m _ =>
      .of_left (hlast l hl) m

end ClientGen.Script
