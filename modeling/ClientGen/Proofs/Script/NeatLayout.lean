import ClientGen.Proofs.Script.LineSpacing
/-! Declarations whose names stay on their lines: none of them writes a blank line. Comments do not
either, whatever their texts are, as each of their lines has a mark of its own. -/
namespace ClientGen.Script

open Layout (statementsAfter)
open Text (isIdentifier)

namespace Layout.Neat

theorem nil : Neat [] := fun _ h => nomatch h

theorem append {l m : Layout} (hl : Neat l) (hm : Neat m) : Neat (l ++ m) :=
  List.forall_mem_append.2 ⟨hl, hm⟩

theorem line {text : String → String}
    (h : ∀ {indentation : String}, Spaces indentation → Filled (text indentation)) :
    Neat [.line text] :=
  List.forall_mem_singleton.2 h

theorem of_lines {α : Type} {texts : α → String} {as : List α} (h : ∀ a ∈ as, Filled (texts a)) :
    Neat (as.map fun a => Layout.line (texts a)) :=
  List.forall_mem_map.2 fun a ha _ _ => h a ha

theorem blank : Neat [.blank] := List.forall_mem_singleton.2 trivial

theorem flatMap {α : Type} {f : α → Layout} {as : List α} (h : ∀ a ∈ as, Neat (f a)) :
    Neat (as.flatMap f) := by
  intro s hs
  obtain ⟨a, ha, hs⟩ := List.mem_flatMap.1 hs
  exact h a ha s hs

theorem spaced {ls : List Layout} (h : ∀ l ∈ ls, Neat l) : Neat (Layout.spaced ls) := by
  fun_induction Layout.spaced ls with
  | case1 => exact nil
  | case2 l => exact h l List.mem_cons_self
  | case3 l m rest ih =>
    apply (h l List.mem_cons_self).append
    exact blank.append (ih fun n hn => h n (List.mem_cons_of_mem l hn))

theorem block {head : String → String} {body : Layout} {tail : String}
    (hhead : ∀ {indentation : String}, Spaces indentation → Filled (head indentation))
    (hbody : Neat body) (htail : Filled tail) : Neat (Layout.block head body tail) := by
  have hindent : Neat [.indent] := List.forall_mem_singleton.2 trivial
  have hdedent : Neat [.dedent] := List.forall_mem_singleton.2 trivial
  exact (line hhead).append (hindent.append (hbody.append (hdedent.append
    (line fun _ => htail))))

end Layout.Neat

open Layout (Neat)

theorem not_mem_commentLines {text : String} {l : List Char} (h : l ∈ commentLines text) :
    '\n' ∉ l :=
  fun hfeed => absurd (endsScriptLine_of_mem_commentLines h '\n' hfeed) (by decide)

theorem filled_marked {mark : String} (hmark : Filled mark) {l : List Char} (h : '\n' ∉ l) :
    Filled (mark ++ String.ofList l) := by
  apply hmark.append
  apply OneLine.fits
  unfold OneLine
  rwa [String.toList_ofList]

theorem neat_header (texts : List String) :
    Neat ((texts.flatMap commentLines).map headerLine) := by
  apply Neat.of_lines
  intro l hl
  obtain ⟨text, _, hl⟩ := List.mem_flatMap.1 hl
  split
  · decide
  · exact filled_marked (by decide) (not_mem_commentLines hl)

theorem neat_docComment (ds : List String) : Neat (docComment ds) := by
  have hopen : Neat [Layout.line "/**"] := .line fun _ => by decide
  have hclose : Neat [Layout.line " */"] := .line fun _ => by decide
  have hlines : Neat ((ds.flatMap commentLines).map docLine) := by
    apply Neat.of_lines
    intro l hl
    obtain ⟨text, _, hl⟩ := List.mem_flatMap.1 hl
    split
    · decide
    · have hline := not_mem_guardCommentEnd (by decide) (not_mem_commentLines hl)
      exact filled_marked (by decide) hline
  unfold docComment
  split
  · exact .nil
  · exact hopen.append (hlines.append hclose)

theorem oneLine_exportWord (exported : Bool) : OneLine (exportWord exported) := by
  cases exported <;> decide

theorem oneLine_asyncWord (isAsync : Bool) : OneLine (asyncWord isAsync) := by
  cases isAsync <;> decide

theorem Visibility.oneLine_word (v : Visibility) : OneLine v.word := by
  cases v <;> decide

section Fragments

variable {indentation : String}

theorem fits_annotated (hi : Spaces indentation) {t : Option TypeTerm}
    (h : ∀ u ∈ t, u.WellNamed) : Fits ( annotation indentation t) := by
  cases t with
  | none => rfl
  | some u =>
    have hcolon : Fits ": " := by decide
    exact hcolon.append ((h u rfl).fits_text hi)

theorem Param.WellNamed.fits_text {p : Param} (h : p.WellNamed) (hi : Spaces indentation) :
    Fits (p.text indentation) := by
  have hmark (b : Bool) : Fits (if b then "?" else "") := by cases b <;> decide
  unfold Param.text
  refine (((OneLine.of_isIdentifier h.name).fits.append (hmark _)).append
    (fits_annotated hi h.type)).append ?_
  cases hd : p.defaultValue with
  | none => decide
  | some v =>
    have hequals : Fits " = " := by decide
    exact hequals.append (OneLine.of_isIdentifier (h.defaultValue v hd)).fits

theorem fits_paramList (hi : Spaces indentation) {ps : List Param} (h : ∀ p ∈ ps, p.WellNamed) :
    Fits (paramList indentation ps) := by
  apply Fits.joinWith (by decide)
  exact List.forall_mem_map.2 fun p hp => (h p hp).fits_text hi

theorem filled_head (hi : Spaces indentation) {words : String} (hwords : OneLine words)
    {ps : List Param} (hps : ∀ p ∈ ps, p.WellNamed) {t : Option TypeTerm}
    (ht : ∀ u ∈ t, u.WellNamed) :
    Filled (words ++ "(" ++ paramList indentation ps ++ ")" ++ annotation indentation t
      ++ " \x7b") := by
  have hopen : Filled "(" := by decide
  have hclose : Fits ")" := by decide
  have hbrace : Fits " \x7b" := by decide
  exact ((((hwords.append_filled hopen).append (fits_paramList hi hps)).append hclose).append
    (fits_annotated hi ht)).append hbrace

end Fragments

namespace RequestCall

theorem filled_guardLine {g : Guard} (h : g.WellNamed) : Filled (guardLine g) := by
  have hopen : Filled "if (" := by decide
  have hand : Fits " && !" := by decide
  have hcall : Fits ".safeParse(" := by decide
  have hclose : Fits ").success) return;" := by decide
  have hflag := (OneLine.of_isIdentifier h.flag).fits
  have hvalidator := (OneLine.of_continuesIdentifier h.validator).fits
  have hpayload := (OneLine.of_isIdentifier h.payload).fits
  exact (((((hopen.append hflag).append hand).append hvalidator).append hcall).append
    hpayload).append hclose

theorem oneLine_arguments (call : RequestCall) : ∀ s ∈ call.arguments, OneLine s := by
  intro s hs
  simp only [arguments, List.mem_append, List.mem_cons, List.not_mem_nil, or_false] at hs
  rcases hs with ((rfl | rfl) | hs) | hs
  · exact .append (by decide) (.textLiteral _)
  · exact .append (by decide) (.textLiteral _)
  · split at hs
    · rw [List.mem_singleton.1 hs]
      decide
    · cases hs
  · split at hs
    · rw [List.mem_singleton.1 hs]
      decide
    · cases hs

theorem neat_layout {call : RequestCall} (h : call.WellNamed) : Neat call.layout := by
  apply Neat.append
  · cases hg : call.guard with
    | none => exact .nil
    | some g => exact .line fun _ => filled_guardLine (h.guard g hg)
  · refine .line fun {indentation} hi => ?_
    have hreturn : Filled "return this." := by decide
    have hsend : Fits sendMethod := by decide
    have hopen : Fits "(\x7b " := by decide
    have hclose : Fits " \x7d);" := by decide
    have hargument : Fits (call.resultArgument indentation) := by
      unfold resultArgument
      cases hc : call.result with
      | none => rfl
      | some t =>
        have hleft : Fits "<" := by decide
        have hright : Fits ">" := by decide
        exact (hleft.append ((h.result t hc).fits_text hi)).append hright
    exact ((((hreturn.append hsend).append hargument).append hopen).append
      (OneLine.joinWith (by decide) call.oneLine_arguments).fits).append hclose

end RequestCall

/-- Statements leave the brackets `ks` around them open, and none of their lines is blank; a request
is of good names. -/
def Body.WellFormed (ks : List Char) : Body → Prop
  | .statements lines =>
    statementsAfter ks (lines.map String.toList) = some ks ∧
      ∀ cs ∈ lines.map String.toList, filledAfter false cs = some true
  | .request call => call.WellNamed

namespace Body.WellFormed

variable {ks : List Char} {b : Body}

theorem sound (h : b.WellFormed ks) : b.Sound ks := by
  cases b with
  | statements lines => exact h.1
  | request call => exact RequestCall.WellNamed.sound h

theorem neat_layout (h : b.WellFormed ks) : Neat b.layout := by
  cases b with
  | statements lines => exact .of_lines fun s hs => h.2 s.toList (List.mem_map_of_mem hs)
  | request call => exact RequestCall.neat_layout h

end Body.WellFormed

theorem Import.neat_layout {i : Import} (h : ∀ s ∈ i.symbols, OneLine s) : Neat i.layout := by
  refine .line fun _ => ?_
  have hopen : Filled "import \x7b " := by decide
  have hfrom : Fits " \x7d from " := by decide
  have hclose : Fits ";" := by decide
  exact (((hopen.append (OneLine.joinWith (by decide) h).fits).append hfrom).append
    (OneLine.textLiteral _).fits).append hclose

structure IndexSignature.WellNamed (s : IndexSignature) : Prop where
  keyName : isIdentifier s.keyName = true
  keyType : s.keyType.WellNamed
  valueType : s.valueType.WellNamed

namespace IndexSignature.WellNamed

variable {s : IndexSignature}

theorem sound (h : s.WellNamed) : s.Sound :=
  ⟨.of_isIdentifier h.keyName, h.keyType.alike, h.valueType.alike⟩

theorem neat_layout (h : s.WellNamed) : Neat s.layout := by
  refine .line fun hi => ?_
  have hopen : Filled "[" := by decide
  have hcolon : Fits ": " := by decide
  have hclose : Fits "]: " := by decide
  have hend : Fits ";" := by decide
  have hkey := (OneLine.of_isIdentifier h.keyName).fits
  exact (((((hopen.append hkey).append hcolon).append (h.keyType.fits_text hi)).append
    hclose).append (h.valueType.fits_text hi)).append hend

end IndexSignature.WellNamed

theorem Field.neat_layout {f : Field} (h : f.type.WellNamed) : Neat f.layout := by
  have hend : Fits ";" := by decide
  exact (neat_docComment f.docs).append
    (.line fun hi => (filled_signature (h.fits_text hi)).append hend)

structure PlainTypeParams (ps : List TypeParam) : Prop where
  ordinary : Ordinary (typeParamList ps)
  oneLine : OneLine (typeParamList ps)

theorem PlainTypeParams.nil : PlainTypeParams [] := ⟨by decide, by decide⟩

structure Interface.WellNamed (i : Interface) : Prop where
  name : isIdentifier i.name = true
  typeParams : PlainTypeParams i.typeParams
  indexSignature : ∀ s ∈ i.indexSignature, s.WellNamed
  fields : ∀ f ∈ i.fields, f.type.WellNamed

namespace Interface.WellNamed

variable {i : Interface}

theorem sound (h : i.WellNamed) : i.Sound where
  name := .of_isIdentifier h.name
  typeParams := h.typeParams.ordinary
  indexSignature s hs := (h.indexSignature s hs).sound
  fields := List.forall₂_same.2 fun f hf => ⟨rfl, rfl, (h.fields f hf).alike, rfl⟩

theorem neat_layout (h : i.WellNamed) : Neat i.layout := by
  apply (neat_docComment i.docs).append
  refine .block (fun _ => ?_)
    (.append ?_ (.flatMap fun f hf => Field.neat_layout (h.fields f hf))) (by decide)
  · have hword : Filled "interface " := by decide
    have hbrace : Fits " \x7b" := by decide
    have hname := (OneLine.of_isIdentifier h.name).fits
    exact ((((oneLine_exportWord _).append_filled hword).append hname).append
      h.typeParams.oneLine.fits).append hbrace
  · cases hs : i.indexSignature with
    | none => exact .nil
    | some s => exact (h.indexSignature s hs).neat_layout

end Interface.WellNamed

structure WellNamedHead (name : String) (typeParams : List TypeParam) (params : List Param)
    (returnType : Option TypeTerm) : Prop where
  name : isIdentifier name = true
  typeParams : PlainTypeParams typeParams
  params : ∀ p ∈ params, p.WellNamed
  returnType : ∀ t ∈ returnType, t.WellNamed

theorem alike_params {ps : List Param} (h : ∀ p ∈ ps, p.WellNamed) :
    List.Forall₂ Param.Alike ps ps :=
  List.forall₂_same.2 fun p hp => (h p hp).alike

structure Function.WellFormed (f : Function) : Prop where
  head : WellNamedHead f.name f.typeParams f.params f.returnType
  body : f.body.WellFormed ['}']

namespace Function.WellFormed

variable {f : Function}

theorem sound (h : f.WellFormed) : f.Sound where
  name := .of_isIdentifier h.head.name
  typeParams := h.head.typeParams.ordinary
  params := alike_params h.head.params
  returnType := rel_alike h.head.returnType
  body := h.body.sound

theorem neat_layout (h : f.WellFormed) : Neat f.layout := by
  have hword : OneLine "function " := by decide
  have hwords := ((((oneLine_exportWord f.exported).append (oneLine_asyncWord f.isAsync)).append
    hword).append (.of_isIdentifier h.head.name)).append h.head.typeParams.oneLine
  apply (neat_docComment f.docs).append
  exact .block (fun hi => filled_head hi hwords h.head.params h.head.returnType)
    h.body.neat_layout (by decide)

end Function.WellFormed

structure Method.WellFormed (m : Method) : Prop where
  head : WellNamedHead m.name m.typeParams m.params m.returnType
  body : m.body.WellFormed ['}', '}']

namespace Method.WellFormed

variable {m : Method}

theorem sound (h : m.WellFormed) : m.Sound where
  name := .of_isIdentifier h.head.name
  typeParams := h.head.typeParams.ordinary
  params := alike_params h.head.params
  returnType := rel_alike h.head.returnType
  body := h.body.sound

theorem neat_layout (h : m.WellFormed) : Neat m.layout := by
  have hwords := ((m.visibility.oneLine_word.append (oneLine_asyncWord m.isAsync)).append
    (.of_isIdentifier h.head.name)).append h.head.typeParams.oneLine
  apply (neat_docComment m.docs).append
  exact .block (fun hi => filled_head hi hwords h.head.params h.head.returnType)
    h.body.neat_layout (by decide)

end Method.WellFormed

structure Constructor.WellFormed (c : Constructor) : Prop where
  params : ∀ p ∈ c.params, p.WellNamed
  body : (Body.statements c.body).WellFormed ['}', '}']

namespace Constructor.WellFormed

variable {c : Constructor}

theorem sound (h : c.WellFormed) : c.Sound := ⟨alike_params h.params, h.body.sound⟩

theorem neat_layout (h : c.WellFormed) : Neat c.layout := by
  have hopen : Filled "constructor(" := by decide
  have hbrace : Fits ") \x7b" := by decide
  exact .block (fun hi => (hopen.append (fits_paramList hi h.params)).append hbrace)
    h.body.neat_layout (by decide)

end Constructor.WellFormed

theorem ArrowMethod.neat_layout {m : ArrowMethod} (hparams : ∀ p ∈ m.params, p.WellNamed)
    (hbody : Neat m.body.layout) : Neat m.layout := by
  have hopen : Filled ": (" := by decide
  have hbrace : Fits ") => \x7b" := by decide
  apply (neat_docComment m.docs).append
  exact .block (fun hi => (((OneLine.objectKey m.name).append_filled hopen).append
    (fits_paramList hi hparams)).append hbrace) hbody (by decide)

namespace Property

variable {p : Property}

theorem filled_head (hname : isIdentifier p.name = true) (htype : ∀ t ∈ p.type, t.WellNamed)
    {indentation : String} (hi : Spaces indentation) : Filled (p.head indentation) := by
  have hreadonly (b : Bool) : OneLine (if b then "readonly " else "") := by cases b <;> decide
  have hmark (b : Bool) : Fits (if b then "?" else "") := by cases b <;> decide
  exact (((p.visibility.oneLine_word.append (hreadonly p.readonly)).append_filled
    (.of_isIdentifier hname)).append (hmark p.optional)).append (fits_annotated hi htype)

theorem neat_layout (hname : isIdentifier p.name = true) (htype : ∀ t ∈ p.type, t.WellNamed)
    (hraw : ∀ e, p.initializer = some (.raw e) → OneLine e)
    (hobject : ∀ ms, p.initializer = some (.object ms) → ∀ m ∈ ms, Neat m.layout) :
    Neat p.layout := by
  have hhead {indentation : String} (hi : Spaces indentation) := filled_head hname htype hi
  have hend : Fits ";" := by decide
  have hequals : Fits " = " := by decide
  have hbrace : Fits " = \x7b" := by decide
  apply (neat_docComment p.docs).append
  split
  · exact .line fun hi => (hhead hi).append hend
  · next e he =>
    exact .line fun hi => (((hhead hi).append hequals).append (hraw e he).fits).append hend
  · next ms hms =>
    refine .block (fun hi => (hhead hi).append hbrace) (.spaced ?_) (by decide)
    exact List.forall_mem_map.2 (hobject ms hms)

end Property

def Member.method? : Member → Option Method
  | .method m => some m
  | _ => none

def ClassDeclaration.methods (c : ClassDeclaration) : List Method :=
  c.members.filterMap Member.method?

theorem ClassDeclaration.neat_layout {c : ClassDeclaration} (hname : OneLine c.name)
    (hbase : ∀ b ∈ c.base, OneLine b) (hmembers : ∀ m ∈ c.members, Neat m.layout) :
    Neat c.layout := by
  apply (neat_docComment c.docs).append
  refine .block (fun _ => ?_) (.spaced (List.forall_mem_map.2 hmembers)) (by decide)
  have hword : Filled "class " := by decide
  have hbrace : Fits " \x7b" := by decide
  refine ((((oneLine_exportWord _).append_filled hword).append hname.fits).append ?_).append hbrace
  cases hb : c.base with
  | none => decide
  | some b =>
    have hextends : Fits " extends " := by decide
    exact hextends.append (hbase b hb).fits

theorem File.neat_code {f : File} (himports : ∀ i ∈ f.imports, Neat i.layout)
    (hinterfaces : ∀ i ∈ f.interfaces, Neat i.layout)
    (hfunctions : ∀ g ∈ f.functions, Neat g.layout)
    (hclasses : ∀ c ∈ f.classes, Neat c.layout) : Neat f.code := by
  have hinterfaces := Neat.flatMap fun i hi => (hinterfaces i hi).append .blank
  have hfunctions := Neat.flatMap fun g hg => (hfunctions g hg).append .blank
  have hclasses := Neat.spaced (List.forall_mem_map.2 hclasses)
  exact (neat_header f.header).append (Neat.blank.append ((Neat.flatMap himports).append
    (Neat.blank.append ((hinterfaces.append hfunctions).append hclasses))))

end ClientGen.Script
