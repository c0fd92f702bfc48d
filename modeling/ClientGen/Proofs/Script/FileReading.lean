import ClientGen.Proofs.Script.MemberReading

namespace ClientGen.Script

open Layout (Canvas Twin spaced)
open Text (endsScriptLine trimEnd)

structure ClassDeclaration.Alike (c d : ClassDeclaration) : Prop where
  name : c.name = d.name
  exported : c.exported = d.exported
  base : c.base = d.base
  members : List.Forall₂ Member.Alike c.members d.members
  ordinary_name : Ordinary c.name
  ordinary_base : ∀ b ∈ c.base, Ordinary b

theorem ClassDeclaration.Alike.layout {c d : ClassDeclaration} (h : c.Alike d) :
    Layout.Alike [] c.layout d.layout [] := by
  unfold ClassDeclaration.layout
  rw [← h.name, ← h.exported, ← h.base]
  apply (Layout.Alike.docComment _ _ []).append
  apply Layout.Alike.block ['}'] _ (.spaced _) rfl
  · intro indentation _
    refine ((((Script.Alike.of_ordinary (ordinary_exportWord _) []).append
      (.of_brackets rfl)).append (.of_ordinary h.ordinary_name [])).append ?_).append
        (.of_brackets rfl)
    cases hb : c.base with
    | none => exact .of_brackets rfl
    | some b => exact (Script.Alike.of_brackets rfl).append (.of_ordinary (h.ordinary_base b hb) [])
  · exact List.rel_map (fun _ _ hmn => hmn.layout) h.members

def Import.Sound (i : Import) : Prop := ∀ s ∈ i.symbols, Ordinary s

theorem Import.Sound.layout {i : Import} (h : i.Sound) (ks : List Char) :
    Layout.Alike ks i.layout i.layout ks := by
  apply Layout.Alike.line
  intro indentation _
  have hopen : Alike ks "import \x7b " "import \x7b " ('}' :: ks) := .of_brackets rfl
  have hclose : Alike ('}' :: ks) " \x7d from " " \x7d from " ks := .of_brackets rfl
  have hsymbols : List.Forall₂ (Alike ('}' :: ks) · · ('}' :: ks)) i.symbols i.symbols :=
    List.forall₂_same.2 fun s hs => .of_ordinary (h s hs) _
  exact (((hopen.append (.joinWith (by decide) hsymbols)).append hclose).append
    (.literal ks i.module)).append (.of_brackets rfl)

theorem mem_of_mem_trimEnd {c : Char} {l : List Char} (h : c ∈ trimEnd l) : c ∈ l := by
  unfold trimEnd at h
  rw [List.mem_reverse] at h
  exact List.mem_reverse.1 ((List.dropWhile_suffix _).subset h)

theorem endsScriptLine_of_mem_commentLines {text : String} {l : List Char}
    (h : l ∈ commentLines text) : ∀ c ∈ l, endsScriptLine c = false := by
  obtain ⟨m, hm, rfl⟩ := List.mem_map.1 h
  exact fun c hc => Text.not_endsScriptLine_of_mem_scriptLines hm c (mem_of_mem_trimEnd hc)

theorem comment_header (texts : List String) :
    Layout.Comment ((texts.flatMap commentLines).map headerLine) := by
  apply Layout.Comment.of_steps
  intro s hs
  obtain ⟨l, hl, rfl⟩ := List.mem_map.1 hs
  obtain ⟨text, _, hl⟩ := List.mem_flatMap.1 hl
  exact .headerLine (endsScriptLine_of_mem_commentLines hl)

def Layout.Closed (l : Layout) : Prop :=
  ∀ c : Canvas, ∃ cs, (c.run l).reversed = '\n' :: '}' :: cs

theorem Layout.closed_block (head : String → String) (body : Layout) :
    (block head body "\x7d").Closed := by
  intro c
  unfold block
  rw [Canvas.run_cons, Canvas.run_cons, Canvas.run_append, Canvas.run_cons]
  generalize (Canvas.run _ body).step .dedent = d
  exact ⟨(indentation d.level).toList.reverse ++ d.reversed, by
    simp [Canvas.run, Canvas.step, line, Canvas.line, Canvas.write]⟩

theorem ClassDeclaration.closed_layout (d : ClassDeclaration) : d.layout.Closed := by
  intro c
  unfold ClassDeclaration.layout
  rw [Canvas.run_append]
  exact Layout.closed_block _ _ _

theorem Layout.Closed.spaced {ls : List Layout} (h : ∀ l ∈ ls, l.Closed) (hne : ls ≠ []) :
    (Layout.spaced ls).Closed := by
  fun_induction Layout.spaced ls with
  | case1 => exact absurd rfl hne
  | case2 l => exact h l List.mem_cons_self
  | case3 l m rest ih =>
    intro c
    rw [Canvas.run_append, Canvas.run_cons]
    exact ih (fun n hn => h n (List.mem_cons_of_mem l hn)) (by simp) _

theorem Layout.Closed.text_blank {l : Layout} (h : l.Closed) :
    Layout.text (l ++ [.blank]) = String.ofList (Canvas.run {} l).chars := by
  obtain ⟨cs, hcs⟩ := h {}
  unfold Layout.text
  rw [Canvas.run_append]
  change (Canvas.run {} l).blank.text = _
  unfold Canvas.blank Canvas.text Canvas.chars
  rw [hcs]
  simp [Canvas.write, Canvas.trimFeeds, hcs]

namespace File

def code (f : File) : Layout :=
  (f.header.flatMap commentLines).map headerLine ++ .blank ::
    (f.imports.flatMap Import.layout ++ .blank ::
      (f.interfaces.flatMap (fun i => i.layout ++ [.blank])
        ++ f.functions.flatMap (fun g => g.layout ++ [.blank])
        ++ spaced (f.classes.map ClassDeclaration.layout)))

theorem flatMap_layout_blank {cs : List ClassDeclaration} (h : cs ≠ []) :
    cs.flatMap (fun c => c.layout ++ [.blank]) =
      spaced (cs.map ClassDeclaration.layout) ++ [.blank] := by
  induction cs with
  | nil => exact absurd rfl h
  | cons c cs ih =>
    cases cs with
    | nil => simp [spaced]
    | cons d cs =>
      rw [List.flatMap_cons, ih (by simp)]
      simp [spaced]

theorem layout_eq {f : File} (h : f.classes ≠ []) : f.layout = f.code ++ [.blank] := by
  simp [layout, code, flatMap_layout_blank h]

theorem closed_code {f : File} (h : f.classes ≠ []) : f.code.Closed := by
  have hclasses : (spaced (f.classes.map ClassDeclaration.layout)).Closed := by
    apply Layout.Closed.spaced _ (by simpa using h)
    intro l hl
    obtain ⟨d, _, rfl⟩ := List.mem_map.1 hl
    exact d.closed_layout
  intro c
  unfold code
  simp only [Canvas.run_append, Canvas.run_cons]
  exact hclasses _

theorem toList_text {f : File} (h : f.classes ≠ []) :
    f.text.toList = (Canvas.run {} f.code).chars := by
  rw [text, layout_eq h, (closed_code h).text_blank, String.toList_ofList]

/-- Alike but for the header and the comments. -/
structure Alike (f g : File) : Prop where
  imports : f.imports = g.imports
  interfaces : f.interfaces = g.interfaces
  functions : f.functions = g.functions
  classes : List.Forall₂ ClassDeclaration.Alike f.classes g.classes
  sound_imports : ∀ i ∈ f.imports, i.Sound
  sound_interfaces : ∀ i ∈ f.interfaces, i.Sound
  sound_functions : ∀ h ∈ f.functions, h.Sound
  classes_ne_nil : f.classes ≠ []

namespace Alike

theorem code {f g : File} (h : f.Alike g) : Layout.Alike [] f.code g.code [] := by
  unfold File.code
  rw [← h.imports, ← h.interfaces, ← h.functions]
  have hheader := Layout.Alike.of_comment (comment_header f.header) (comment_header g.header) []
  have himports : Layout.Alike [] (f.imports.flatMap Import.layout)
      (f.imports.flatMap Import.layout) [] :=
    .flatMap id (List.forall₂_same.2 fun i hi => (h.sound_imports i hi).layout [])
  have hinterfaces : Layout.Alike [] (f.interfaces.flatMap fun i => i.layout ++ [.blank])
      (f.interfaces.flatMap fun i => i.layout ++ [.blank]) [] :=
    .flatMap id (List.forall₂_same.2 fun i hi =>
      ((h.sound_interfaces i hi).layout []).append (.blank []))
  have hfunctions : Layout.Alike [] (f.functions.flatMap fun k => k.layout ++ [.blank])
      (f.functions.flatMap fun k => k.layout ++ [.blank]) [] :=
    .flatMap id (List.forall₂_same.2 fun k hk =>
      (h.sound_functions k hk).layout.append (.blank []))
  have hclasses : List.Forall₂ (Layout.Alike [] · · [])
      (f.classes.map ClassDeclaration.layout) (g.classes.map ClassDeclaration.layout) :=
    List.rel_map (fun _ _ hcd => hcd.layout) h.classes
  exact hheader.append ((Layout.Alike.blank []).append (himports.append
    ((Layout.Alike.blank []).append ((hinterfaces.append hfunctions).append (.spaced hclasses)))))

theorem lines {f g : File} (h : f.Alike g) : AlikeLines [] f.text.toList g.text.toList [] := by
  have hg : g.classes ≠ [] := by
    intro hg
    have hclasses := h.classes
    rw [hg, List.forall₂_nil_right_iff] at hclasses
    exact h.classes_ne_nil hclasses
  rw [toList_text h.classes_ne_nil, toList_text hg]
  exact (h.code {} {} Layout.twin_empty).lines

theorem codeLines_text {f g : File} (h : f.Alike g) : codeLines f.text = codeLines g.text := by
  obtain ⟨u, v, hu, hv, _, _, huv⟩ := h.lines
  unfold codeLines withoutComments
  rw [hu.reads, hv.reads]
  simpa [Reader.pending] using huv

theorem checkBalance_text {f g : File} (h : f.Alike g) : checkBalance f.text = .ok () := by
  obtain ⟨u, _, hu, _⟩ := h.lines
  have hscan : Scanner.outcome {} f.text.toList = some (.awaiting []) := by
    rw [Scanner.outcome_line]
    exact hu.scans
  unfold checkBalance
  cases hrun : Scanner.run {} f.text.toList with
  | error i => simp [Scanner.outcome, hrun] at hscan
  | ok t =>
    obtain ⟨frames, line, mode⟩ := t
    simp only [Scanner.outcome, hrun, Scanner.shape_ok, Scanner.unplaced_mk, Scanner.awaiting,
      List.map_nil, Option.some.injEq, Scanner.mk.injEq, List.map_eq_nil_iff] at hscan
    obtain ⟨rfl, _, hmode⟩ := hscan
    cases mode <;> first | rfl | cases hmode

end Alike

end File

end ClientGen.Script
