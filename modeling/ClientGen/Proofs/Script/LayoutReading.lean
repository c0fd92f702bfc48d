import ClientGen.Proofs.Script.CommentLayout
/-! Layouts that write the same code. Two canvases are followed side by side; what each step
keeps of them, the whole layouts keep. -/
namespace ClientGen.Script

namespace Layout

/-- On both canvases the same code stands up to here, in whole lines at one indentation, with
the brackets `ks` open. -/
structure Twin (ks : List Char) (c d : Canvas) : Prop where
  level : c.level = d.level
  lines : AlikeLines [] c.chars d.chars ks

theorem twin_empty : Twin [] {} {} := ⟨rfl, .nil []⟩

/-- Wherever twins stand with the brackets `ks` open, they go on as twins to `ks'`. -/
def Alike (ks : List Char) (l m : Layout) (ks' : List Char) : Prop :=
  ∀ c d, Twin ks c d → Twin ks' (c.run l) (d.run m)

theorem exists_reads_lineText {ks ks' u : List Char} {indentation s : String}
    (hi : Spaces indentation) (h : Reads ks s.toList u ks') :
    ∃ v, Reads ks (lineText indentation s).toList v ks' ∧ WholeLines v ∧
      filledLines v = filledLines (indentation.toList ++ u ++ ['\n']) := by
  by_cases hs : s = ""
  · subst hs
    cases h.reads
    have hblank : filledLines (indentation.toList ++ [] ++ ['\n']) = [] := by
      rw [List.append_nil]
      exact hi.filledLines_line
    have hfeed : (lineText indentation "").toList = ['\n'] := by simp [lineText]
    rw [hfeed]
    exact ⟨['\n'], h.append (.feed ks'), .inr ⟨[], rfl⟩, hblank.symm⟩
  · rw [toList_lineText _ hs]
    refine ⟨indentation.toList ++ (u ++ ['\n']), (hi.reads ks).append (h.append (.feed ks')),
      .inr ⟨indentation.toList ++ u, by simp⟩, by simp⟩

theorem alikeLines_lineText {ks ks' : List Char} {indentation s t : String}
    (hi : Spaces indentation) (h : Script.Alike ks s t ks') :
    AlikeLines ks (lineText indentation s).toList (lineText indentation t).toList ks' := by
  obtain ⟨u, v, hu, hv, huv⟩ := h
  obtain ⟨u', hu', wu, fu⟩ := exists_reads_lineText hi hu
  obtain ⟨v', hv', wv, fv⟩ := exists_reads_lineText hi hv
  exact ⟨u', v', hu', hv', wu, wv, fu.trans ((huv _ _).trans fv.symm)⟩

namespace Alike

theorem nil (ks : List Char) : Alike ks [] [] ks := fun _ _ h => h

theorem append {ks ks' ks'' : List Char} {l l' m m' : Layout} (h : Alike ks l l' ks')
    (g : Alike ks' m m' ks'') : Alike ks (l ++ m) (l' ++ m') ks'' := by
  intro c d hcd
  rw [Canvas.run_append, Canvas.run_append]
  exact g _ _ (h c d hcd)

theorem line {ks ks' : List Char} {f g : String → String}
    (h : ∀ {indentation}, Spaces indentation →
      Script.Alike ks (f indentation) (g indentation) ks') :
    Alike ks [.line f] [.line g] ks' := by
  intro c d hcd
  have hi := spaces_indentation c.level
  have hline := alikeLines_lineText hi (h hi)
  constructor
  · change (c.line _).level = (d.line _).level
    rw [Canvas.level_line, Canvas.level_line, hcd.level]
  · change AlikeLines [] (c.line _).chars (d.line _).chars ks'
    rw [Canvas.chars_line, Canvas.chars_line, ← hcd.level]
    exact hcd.lines.append hline

theorem indent (ks : List Char) : Alike ks [.indent] [.indent] ks :=
  fun _ _ h => ⟨congrArg (· + 1) h.level, h.lines⟩

theorem dedent (ks : List Char) : Alike ks [.dedent] [.dedent] ks :=
  fun _ _ h => ⟨congrArg (· - 1) h.level, h.lines⟩

theorem of_comment {l m : Layout} (hl : Comment l) (hm : Comment m) (ks : List Char) :
    Alike ks l m ks := by
  intro c d hcd
  obtain ⟨level, s, hs, cs⟩ := hl c
  obtain ⟨level', t, ht, ct⟩ := hm d
  refine ⟨level.trans (hcd.level.trans level'.symm), ?_⟩
  rw [hs, ht]
  exact hcd.lines.append (cs.alike ct ks)

theorem docComment (ds es : List String) (ks : List Char) :
    Alike ks (docComment ds) (docComment es) ks :=
  of_comment (.docComment ds) (.docComment es) ks

theorem blank (ks : List Char) : Alike ks [.blank] [.blank] ks := of_comment .blank .blank ks

theorem block {ks ks'' : List Char} (ks' : List Char) {head head' : String → String}
    {body body' : Layout} {tail : String}
    (hhead : ∀ {indentation}, Spaces indentation →
      Script.Alike ks (head indentation) (head' indentation) ks')
    (hbody : Alike ks' body body' ks')
    (htail : bracketsAfter ks' tail.toList = some ks'') :
    Alike ks (block head body tail) (block head' body' tail) ks'' :=
  (line hhead).append ((indent ks').append (hbody.append ((dedent ks').append
    (line fun _ => .of_brackets htail))))

theorem flatMap {α β : Type} {R : α → β → Prop} {ks : List Char} {f : α → Layout}
    {g : β → Layout} (hfg : ∀ {a b}, R a b → Alike ks (f a) (g b) ks) {as : List α} {bs : List β}
    (h : List.Forall₂ R as bs) : Alike ks (as.flatMap f) (bs.flatMap g) ks := by
  induction h with
  | nil => exact nil ks
  | cons hab _ ih => exact (hfg hab).append ih

theorem spaced {ks : List Char} {ls ms : List Layout}
    (h : List.Forall₂ (Alike ks · · ks) ls ms) : Alike ks (spaced ls) (spaced ms) ks := by
  induction h with
  | nil => exact nil ks
  | cons hlm hrest ih =>
    cases hrest with
    | nil => exact hlm
    | cons hlm' hrest' => exact hlm.append ((blank ks).append ih)

end Alike

def closings (frames : List Frame) : List Char :=
  frames.filterMap fun
    | .bracket closing _ => some closing
    | _ => none

def statementsAfter : (ks : List Char) → List (List Char) → Option (List Char)
  | ks, [] => some ks
  | ks, s :: ss => do
    let t ← (Scanner.awaiting ks).outcome s
    if t = .awaiting (closings t.frames) ∧ Reader.read {} s = ({}, s) then
      statementsAfter (closings t.frames) ss
    else none

theorem Alike.statements {ks ks' : List Char} {ss : List String}
    (h : statementsAfter ks (ss.map String.toList) = some ks') :
    Alike ks (ss.map Layout.line) (ss.map Layout.line) ks' := by
  induction ss generalizing ks with
  | nil =>
    cases h
    exact Alike.nil _
  | cons s ss ih =>
    obtain ⟨t, ht, h⟩ := Option.bind_eq_some_iff.1 h
    split at h
    · next hs =>
      have hreads : Reads ks s.toList s.toList (closings t.frames) :=
        ⟨by rw [← hs.1]; exact ht, hs.2⟩
      exact (Alike.line fun _ => .of_reads hreads).append (ih h)
    · cases h

end Layout

end ClientGen.Script
