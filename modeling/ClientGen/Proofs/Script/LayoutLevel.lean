import ClientGen.Proofs.Script.CommentLayout
/-! The indentation of what is written. Every declaration opens and closes its blocks in pairs, so
it ends at the level at which it began and never goes below that level on its way: no step back
finds the level at zero, where it would be lost. -/
namespace ClientGen.Script

namespace Layout

/-- Lines and blank lines, with layouts of the same kind between them that stand one level further
in. -/
inductive Nested : Layout → Prop
  | nil : Nested []
  | line (text : String → String) {l : Layout} (rest : Nested l) : Nested (.line text :: l)
  | blank {l : Layout} (rest : Nested l) : Nested (.blank :: l)
  | deeper {inner l : Layout} (hinner : Nested inner) (rest : Nested l) :
    Nested (.indent :: (inner ++ .dedent :: l))

/-- A layout leaves the level as it finds it, and steps back only from a higher one. -/
structure KeepsLevel (l : Layout) : Prop where
  level (c : Canvas) : (c.run l).level = c.level
  above (c : Canvas) {before behind : Layout} (h : l = before ++ .dedent :: behind) :
    c.level < (c.run before).level

namespace Nested

theorem append {l m : Layout} (hl : Nested l) (hm : Nested m) : Nested (l ++ m) := by
  induction hl with
  | nil => exact hm
  | line text _ ih => exact .line text ih
  | blank _ ih => exact .blank ih
  | @deeper inner l hinner _ _ ih =>
    rw [List.cons_append, List.append_assoc, List.cons_append]
    exact .deeper hinner ih

theorem singleton (text : String → String) : Nested [.line text] := .line text .nil

theorem of_lines {α : Type} (texts : α → String) (as : List α) :
    Nested (as.map fun a => Layout.line (texts a)) := by
  induction as with
  | nil => exact .nil
  | cons a as ih => exact .line _ ih

theorem flatMap {α : Type} {f : α → Layout} (h : ∀ a, Nested (f a)) (as : List α) :
    Nested (as.flatMap f) := by
  induction as with
  | nil => exact .nil
  | cons a as ih => exact (h a).append ih

theorem spaced {ls : List Layout} (h : ∀ l ∈ ls, Nested l) : Nested (Layout.spaced ls) := by
  fun_induction Layout.spaced ls with
  | case1 => exact .nil
  | case2 l => exact h l List.mem_cons_self
  | case3 l m rest ih =>
    exact (h l List.mem_cons_self).append
      (.blank (ih fun n hn => h n (List.mem_cons_of_mem l hn)))

theorem block (head : String → String) {body : Layout} (h : Nested body) (tail : String) :
    Nested (Layout.block head body tail) :=
  .line head (.deeper h (singleton _))

theorem level {l : Layout} (h : Nested l) (c : Canvas) : (c.run l).level = c.level := by
  induction h generalizing c with
  | nil => rfl
  | line text _ ih => exact (ih _).trans (c.level_line _)
  | blank _ ih => exact (ih _).trans c.level_blank
  | deeper _ _ ihinner ih =>
    rw [Canvas.run_cons, Canvas.run_append, Canvas.run_cons, ih]
    change ((c.step .indent).run _).level - 1 = c.level
    rw [ihinner]
    rfl

theorem above {l : Layout} (h : Nested l) (c : Canvas) {before behind : Layout}
    (hl : l = before ++ .dedent :: behind) : c.level < (c.run before).level := by
  induction h generalizing c before behind with
  | nil => exact absurd hl.symm (by simp)
  | line text _ ih =>
    cases before with
    | nil => cases hl
    | cons s rest =>
      obtain ⟨rfl, hrest⟩ := List.cons.inj hl
      rw [← c.level_line]
      exact ih _ hrest
  | blank _ ih =>
    cases before with
    | nil => cases hl
    | cons s rest =>
      obtain ⟨rfl, hrest⟩ := List.cons.inj hl
      rw [← c.level_blank]
      exact ih _ hrest
  | @deeper inner l hinner _ ihinner ih =>
    cases before with
    | nil => cases hl
    | cons s rest =>
      obtain ⟨rfl, hrest⟩ := List.cons.inj hl
      have hdeeper : (c.step .indent).level = c.level + 1 := rfl
      have hbehind : ((c.step .indent).run inner).level = c.level + 1 := hinner.level _
      rw [Canvas.run_cons]
      -- the step back is the one behind the deeper layout, or stands further on, or within it
      obtain ⟨s, rfl, hs⟩ | ⟨s, rfl, hs⟩ := List.append_eq_append_iff.1 hrest
      · cases s with
        | nil => rw [List.append_nil]; omega
        | cons d s =>
          obtain ⟨rfl, htail⟩ := List.cons.inj hs
          have hback : (((c.step .indent).run inner).step .dedent).level = c.level := by
            change ((c.step .indent).run inner).level - 1 = c.level
            omega
          rw [Canvas.run_append, Canvas.run_cons, ← hback]
          exact ih _ htail
      · cases s with
        | nil => rw [List.append_nil] at hbehind; omega
        | cons d s =>
          obtain ⟨rfl, rfl⟩ := List.cons.inj hs
          have := ihinner (c.step .indent) rfl
          omega

theorem keepsLevel {l : Layout} (h : Nested l) : KeepsLevel l := ⟨h.level, h.above⟩

end Nested

end Layout

open Layout (Nested)

theorem nested_docComment (ds : List String) : Nested (docComment ds) := by
  unfold docComment
  split
  · exact .nil
  · exact .line _ ((Nested.of_lines Layout.docText _).append (.singleton _))

theorem RequestCall.nested_layout (call : RequestCall) : Nested call.layout := by
  unfold layout
  cases call.guard with
  | none => exact .singleton _
  | some g => exact .line _ (.singleton _)

theorem Body.nested_layout (b : Body) : Nested b.layout := by
  cases b with
  | statements lines => exact .of_lines id lines
  | request call => exact call.nested_layout

theorem Import.nested_layout (i : Import) : Nested i.layout := .singleton _

theorem Field.nested_layout (f : Field) : Nested f.layout :=
  (nested_docComment f.docs).append (.singleton _)

theorem Interface.nested_layout (i : Interface) : Nested i.layout := by
  apply (nested_docComment i.docs).append
  apply Nested.block
  apply Nested.append _ (.flatMap Field.nested_layout i.fields)
  cases i.indexSignature with
  | none => exact .nil
  | some s => exact .singleton _

theorem Function.nested_layout (f : Function) : Nested f.layout :=
  (nested_docComment f.docs).append (.block _ f.body.nested_layout _)

theorem Constructor.nested_layout (c : Constructor) : Nested c.layout :=
  .block _ (.of_lines id c.body) _

theorem ArrowMethod.nested_layout (m : ArrowMethod) : Nested m.layout :=
  (nested_docComment m.docs).append (.block _ m.body.nested_layout _)

theorem Property.nested_layout (p : Property) : Nested p.layout := by
  apply (nested_docComment p.docs).append
  cases p.initializer with
  | none => exact .singleton _
  | some i =>
    cases i with
    | raw expression => exact .singleton _
    | object methods =>
      apply Nested.block
      apply Nested.spaced
      simp only [List.forall_mem_map]
      exact fun m _ => m.nested_layout

theorem Method.nested_layout (m : Method) : Nested m.layout :=
  (nested_docComment m.docs).append (.block _ m.body.nested_layout _)

theorem Member.nested_layout (m : Member) : Nested m.layout := by
  cases m with
  | constructor c => exact c.nested_layout
  | property p => exact p.nested_layout
  | method m => exact m.nested_layout

theorem ClassDeclaration.nested_layout (c : ClassDeclaration) : Nested c.layout := by
  apply (nested_docComment c.docs).append
  apply Nested.block
  apply Nested.spaced
  simp only [List.forall_mem_map]
  exact fun m _ => m.nested_layout

/-- What is written for one comment, request or declaration, and for a body, which stands one level
further in. -/
inductive Written : Layout → Prop
  | docComment (ds : List String) : Written (docComment ds)
  | request (call : RequestCall) : Written call.layout
  | body (b : Body) : Written (.indent :: (b.layout ++ [.dedent]))
  | imports (i : Import) : Written i.layout
  | field (f : Field) : Written f.layout
  | interface (i : Interface) : Written i.layout
  | function (f : Function) : Written f.layout
  | constructor (c : Constructor) : Written c.layout
  | arrowMethod (m : ArrowMethod) : Written m.layout
  | property (p : Property) : Written p.layout
  | method (m : Method) : Written m.layout
  | classDeclaration (c : ClassDeclaration) : Written c.layout

theorem Written.nested {l : Layout} (h : Written l) : Nested l := by
  cases h with
  | docComment ds => exact nested_docComment ds
  | request call => exact call.nested_layout
  | body b => exact .deeper b.nested_layout .nil
  | imports i => exact i.nested_layout
  | field f => exact f.nested_layout
  | interface i => exact i.nested_layout
  | function f => exact f.nested_layout
  | constructor c => exact c.nested_layout
  | arrowMethod m => exact m.nested_layout
  | property p => exact p.nested_layout
  | method m => exact m.nested_layout
  | classDeclaration c => exact c.nested_layout

theorem File.nested_layout (f : File) : Nested f.layout := by
  have hheader : Nested ((f.header.flatMap commentLines).map headerLine) :=
    .of_lines _ _
  have himports := Nested.flatMap Import.nested_layout f.imports
  have hinterfaces := Nested.flatMap
    (fun i : Interface => i.nested_layout.append (.blank .nil)) f.interfaces
  have hfunctions := Nested.flatMap
    (fun g : Function => g.nested_layout.append (.blank .nil)) f.functions
  have hclasses := Nested.flatMap
    (fun c : ClassDeclaration => c.nested_layout.append (.blank .nil)) f.classes
  exact hheader.append (.blank (himports.append (.blank
    ((hinterfaces.append hfunctions).append hclasses))))

end ClientGen.Script
