import ClientGen.Proofs.Script.TypeReading
import ClientGen.Script.Render

namespace ClientGen.Script

open Text (guardCommentEnd endsScriptLine)

namespace Layout

theorem spaces_indentation (n : Nat) : Spaces (indentation n) := by
  induction n with
  | zero => decide
  | succ n ih =>
    have hunit : Spaces unit := by decide
    exact hunit.append ih

def lineText (indentation text : String) : String :=
  if text.isEmpty then "\n" else indentation ++ text ++ "\n"

theorem toList_lineText (indentation : String) {text : String} (h : text ≠ "") :
    (lineText indentation text).toList = indentation.toList ++ (text.toList ++ ['\n']) := by
  have hempty : ¬text.isEmpty = true := by simpa using h
  rw [lineText, if_neg hempty]
  simp [String.toList_append]

namespace Canvas

def chars (c : Canvas) : List Char := c.reversed.reverse

@[simp] theorem chars_write (c : Canvas) (text : String) :
    (c.write text).chars = c.chars ++ text.toList := by
  simp [chars, write, List.reverseAux_eq]

theorem chars_line (c : Canvas) (text : String) :
    (c.line text).chars = c.chars ++ (lineText (indentation c.level) text).toList := by
  unfold line lineText
  split <;> simp [String.toList_append]

theorem chars_blank (c : Canvas) :
    c.blank.chars = c.chars ∨ c.blank.chars = c.chars ++ ['\n'] := by
  unfold blank
  split
  · exact .inl rfl
  · exact .inl rfl
  · exact .inr (chars_write c "\n")

theorem chars_run_lines (c : Canvas) (texts : List String) :
    (c.run (texts.map Layout.line)).chars =
      c.chars ++ texts.flatMap fun t => (lineText (indentation c.level) t).toList := by
  induction texts generalizing c with
  | nil => simp
  | cons t ts ih =>
    have hlevel : (c.step (Layout.line t)).level = c.level := level_line c t
    rw [List.map_cons, run_cons, ih, hlevel, List.flatMap_cons, ← List.append_assoc]
    exact congrArg (· ++ _) (chars_line c t)

theorem level_run_lines (c : Canvas) (texts : List String) :
    (c.run (texts.map Layout.line)).level = c.level := by
  induction texts generalizing c with
  | nil => rfl
  | cons t ts ih =>
    rw [List.map_cons, run_cons, ih]
    exact level_line c t

end Canvas

/-- Writes comments and blank lines, at the indentation it finds. -/
def Comment (l : Layout) : Prop :=
  ∀ c : Canvas, (c.run l).level = c.level ∧ ∃ s, (c.run l).chars = c.chars ++ s ∧ CommentLines s

namespace Comment

theorem nil : Comment [] := fun c => ⟨rfl, [], by simp, .nil⟩

theorem append {l m : Layout} (hl : Comment l) (hm : Comment m) : Comment (l ++ m) := by
  intro c
  obtain ⟨level, s, hs, cs⟩ := hl c
  obtain ⟨level', t, ht, ct⟩ := hm (c.run l)
  rw [Canvas.run_append]
  exact ⟨level'.trans level, s ++ t, by rw [ht, hs, List.append_assoc], cs.append ct⟩

theorem blank : Comment [.blank] := by
  intro c
  refine ⟨c.level_blank, ?_⟩
  rcases c.chars_blank with h | h
  · exact ⟨[], by rw [List.append_nil]; exact h, .nil⟩
  · exact ⟨['\n'], h, .feed⟩

theorem of_steps {l : Layout} (h : ∀ s ∈ l, Comment [s]) : Comment l := by
  induction l with
  | nil => exact nil
  | cons s l ih =>
    have hs := h s List.mem_cons_self
    exact hs.append (ih fun t ht => h t (List.mem_cons_of_mem s ht))

theorem headerLine {l : List Char} (h : ∀ c ∈ l, endsScriptLine c = false) :
    Comment [headerLine l] := by
  intro c
  have hi := spaces_indentation c.level
  refine ⟨c.level_line _, _, c.chars_line _, ?_⟩
  dsimp only
  split
  · rw [toList_lineText _ (by decide)]
    exact CommentLines.line hi [] (by simp)
  · have hspace : ∀ d ∈ ' ' :: l, endsScriptLine d = false := by
      intro d hd
      rcases List.mem_cons.1 hd with rfl | hd
      · decide
      · exact h d hd
    rw [toList_lineText _ (by simp)]
    simpa [String.toList_append] using CommentLines.line hi _ hspace

end Comment

def docText (l : List Char) : String :=
  if l.isEmpty then " *" else " * " ++ String.ofList (guardCommentEnd l)

theorem docLine_eq (l : List Char) : docLine l = line (docText l) := rfl

theorem starAfter_spaces {s : List Char} (h : ∀ c ∈ s, c = ' ') :
    starAfter false s = some false := by
  induction s with
  | nil => rfl
  | cons c cs ih =>
    have hc := h c List.mem_cons_self
    subst hc
    exact ih fun d hd => h d (List.mem_cons_of_mem ' ' hd)

theorem starAfter_docText (l : List Char) :
    starAfter false ((docText l).toList ++ ['\n']) = some false := by
  unfold docText
  split
  · decide
  · have hopen : starAfter false " * ".toList = some false := by decide
    obtain ⟨last, hl⟩ := starAfter_guardCommentEnd false (l := l) (by simp)
    rw [String.toList_append, List.append_assoc, starAfter_append, hopen, Option.bind_some,
      String.toList_ofList, starAfter_append, hl, Option.bind_some]
    cases last <;> decide

theorem starAfter_docLines {indentation : String} (hi : Spaces indentation)
    (ls : List (List Char)) :
    starAfter false (ls.flatMap fun l => (lineText indentation (docText l)).toList)
      = some false := by
  induction ls with
  | nil => rfl
  | cons l ls ih =>
    have hne : docText l ≠ "" := by
      unfold docText
      split <;> simp
    rw [List.flatMap_cons, toList_lineText _ hne, starAfter_append, starAfter_append,
      starAfter_spaces hi, Option.bind_some, starAfter_docText, Option.bind_some, ih]

theorem Comment.docComment (ds : List String) : Comment (docComment ds) := by
  unfold Script.docComment
  split
  · exact .nil
  · intro c
    set ls := ds.flatMap commentLines
    have hlines : line "/**" :: (ls.map docLine ++ [line " */"]) =
        ("/**" :: (ls.map docText ++ [" */"])).map line := by
      simp [docLine_eq, Function.comp_def]
    have hi := spaces_indentation c.level
    have hbody : starAfter false ("*\n".toList ++ (ls.flatMap fun l =>
        (lineText (indentation c.level) (docText l)).toList) ++
          ((indentation c.level).toList ++ " *".toList)) = some true := by
      have hopen : starAfter false "*\n".toList = some false := by decide
      rw [starAfter_append, starAfter_append, hopen, Option.bind_some, starAfter_docLines hi,
        Option.bind_some, starAfter_append, starAfter_spaces hi]
      decide
    rw [hlines]
    refine ⟨c.level_run_lines _, _, c.chars_run_lines _, ?_⟩
    simpa [toList_lineText, List.flatMap_map] using CommentLines.block hi hbody

end Layout

end ClientGen.Script
