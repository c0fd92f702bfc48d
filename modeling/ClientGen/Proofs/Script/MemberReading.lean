import ClientGen.Proofs.Script.LayoutReading
import ClientGen.Proofs.Script.PlainType
/-! Declarations as code. Two declarations are alike when only the comments in them differ;
`Sound` says of a fixed one that its names are ordinary texts and its statements leave no
bracket open. -/
namespace ClientGen.Script

open Layout (spaces_indentation statementsAfter)
open Text (isIdentifier)

theorem ordinary_exportWord (exported : Bool) : Ordinary (exportWord exported) := by
  cases exported <;> decide

theorem ordinary_asyncWord (isAsync : Bool) : Ordinary (asyncWord isAsync) := by
  cases isAsync <;> decide

theorem Visibility.ordinary_word (v : Visibility) : Ordinary v.word := by
  cases v <;> decide

theorem alike_annotated {t u : Option TypeTerm} (h : Option.Rel TypeTerm.Alike t u)
    (ks : List Char) {indentation : String} (hi : Spaces indentation) :
    Alike ks ( annotation indentation t) ( annotation indentation u) ks := by
  cases h with
  | none => exact .of_brackets rfl
  | some h => exact (Alike.of_brackets rfl).append (h.text ks hi)

structure Param.Alike (p q : Param) : Prop where
  name : p.name = q.name
  optional : p.optional = q.optional
  defaultValue : p.defaultValue = q.defaultValue
  type : Option.Rel TypeTerm.Alike p.type q.type
  ordinary_name : Ordinary p.name
  ordinary_defaultValue : ∀ v ∈ p.defaultValue, Ordinary v

theorem Param.Alike.text {p q : Param} (h : p.Alike q) (ks : List Char) {indentation : String}
    (hi : Spaces indentation) : Script.Alike ks (p.text indentation) (q.text indentation) ks := by
  have hmark (b : Bool) : Ordinary (if b then "?" else "") := by cases b <;> decide
  unfold Param.text
  rw [← h.name, ← h.optional, ← h.defaultValue]
  refine (((Script.Alike.of_ordinary h.ordinary_name ks).append
    (.of_ordinary (hmark _) ks)).append (alike_annotated h.type ks hi)).append ?_
  cases hd : p.defaultValue with
  | none => exact .of_brackets rfl
  | some v =>
    exact (Script.Alike.of_brackets rfl).append
      (.of_ordinary (h.ordinary_defaultValue v hd) ks)

theorem rel_alike {t : Option TypeTerm} (h : ∀ u ∈ t, u.WellNamed) :
    Option.Rel TypeTerm.Alike t t := by
  cases t with
  | none => exact .none
  | some u => exact .some (h u rfl).alike

structure Param.WellNamed (p : Param) : Prop where
  name : isIdentifier p.name = true
  type : ∀ t ∈ p.type, t.WellNamed
  defaultValue : ∀ v ∈ p.defaultValue, isIdentifier v = true

theorem Param.WellNamed.alike {p : Param} (h : p.WellNamed) : p.Alike p where
  name := rfl
  optional := rfl
  defaultValue := rfl
  type := rel_alike h.type
  ordinary_name := .of_isIdentifier h.name
  ordinary_defaultValue v hv := .of_isIdentifier (h.defaultValue v hv)

theorem alike_paramList {ps qs : List Param} (h : List.Forall₂ Param.Alike ps qs)
    (ks : List Char) {indentation : String} (hi : Spaces indentation) :
    Alike ks (paramList indentation ps) (paramList indentation qs) ks := by
  apply Alike.joinWith (by decide)
  exact List.rel_map (fun _ _ hpq => hpq.text ks hi) h

structure Guard.Sound (g : Guard) : Prop where
  flag : Ordinary g.flag
  validator : Ordinary g.validator
  payload : Ordinary g.payload

structure RequestCall.Sound (call : RequestCall) : Prop where
  result : Option.Rel TypeTerm.Alike call.result call.result
  guard : ∀ g ∈ call.guard, g.Sound

/-- The names of the arguments, and of a validator that may have a prefix of its own. -/
structure Guard.WellNamed (g : Guard) : Prop where
  flag : isIdentifier g.flag = true
  validator : ∀ c ∈ g.validator.toList, Text.continuesIdentifier c = true
  payload : isIdentifier g.payload = true

theorem Guard.WellNamed.sound {g : Guard} (h : g.WellNamed) : g.Sound where
  flag := .of_isIdentifier h.flag
  validator := .of_continuesIdentifier h.validator
  payload := .of_isIdentifier h.payload

structure RequestCall.WellNamed (call : RequestCall) : Prop where
  result : ∀ t ∈ call.result, t.WellNamed
  guard : ∀ g ∈ call.guard, g.WellNamed

theorem RequestCall.WellNamed.sound {call : RequestCall} (h : call.WellNamed) : call.Sound where
  result := rel_alike h.result
  guard g hg := (h.guard g hg).sound

namespace RequestCall

theorem alike_guardLine {g : Guard} (h : g.Sound) (ks : List Char) :
    Alike ks (guardLine g) (guardLine g) ks := by
  have hopen : Alike ks "if (" "if (" (')' :: ks) := .of_brackets rfl
  have hand : Alike (')' :: ks) " && !" " && !" (')' :: ks) := .of_brackets rfl
  have hcall : Alike (')' :: ks) ".safeParse(" ".safeParse(" (')' :: ')' :: ks) := .of_brackets rfl
  have hclose : Alike (')' :: ')' :: ks) ").success) return;" ").success) return;" ks :=
    .of_brackets rfl
  exact (((((hopen.append (.of_ordinary h.flag _)).append hand).append
    (.of_ordinary h.validator _)).append hcall).append (.of_ordinary h.payload _)).append hclose

theorem alike_arguments (call : RequestCall) (ks : List Char) :
    List.Forall₂ (Alike ks · · ks) call.arguments call.arguments := by
  rw [List.forall₂_same]
  intro s hs
  simp only [arguments, List.mem_append, List.mem_cons, List.not_mem_nil, or_false] at hs
  rcases hs with ((rfl | rfl) | hs) | hs
  · exact (Alike.of_brackets rfl).append (.literal ks _)
  · exact (Alike.of_brackets rfl).append (.literal ks _)
  · split at hs
    · rw [List.mem_singleton.1 hs]
      exact .of_brackets rfl
    · cases hs
  · split at hs
    · rw [List.mem_singleton.1 hs]
      exact .of_brackets rfl
    · cases hs

theorem alike_resultArgument {call : RequestCall} (h : call.Sound) (ks : List Char)
    {indentation : String} (hi : Spaces indentation) :
    Alike ks (call.resultArgument indentation) (call.resultArgument indentation) ks := by
  have hresult := h.result
  unfold resultArgument
  cases hc : call.result with
  | none => exact .of_brackets rfl
  | some t =>
    rw [hc] at hresult
    cases hresult with
    | some ht =>
      exact ((Alike.of_brackets rfl).append (ht.text ks hi)).append (.of_brackets rfl)

theorem Sound.layout {call : RequestCall} (h : call.Sound) (ks : List Char) :
    Layout.Alike ks call.layout call.layout ks := by
  apply @Layout.Alike.append ks ks ks
  · cases hg : call.guard with
    | none => exact .nil ks
    | some g => exact .line fun _ => alike_guardLine (h.guard g hg) ks
  · apply Layout.Alike.line
    intro indentation hi
    have hopen : Alike ks "(\x7b " "(\x7b " ('}' :: ')' :: ks) := .of_brackets rfl
    have hclose : Alike ('}' :: ')' :: ks) " \x7d);" " \x7d);" ks := .of_brackets rfl
    exact (((((Alike.of_brackets rfl).append (.of_brackets rfl)).append
      (alike_resultArgument h ks hi)).append hopen).append
        (.joinWith (by decide) (call.alike_arguments _))).append hclose

end RequestCall

def Body.Sound (ks : List Char) : Body → Prop
  | .statements lines => statementsAfter ks (lines.map String.toList) = some ks
  | .request call => call.Sound

theorem Body.Sound.layout {ks : List Char} {b : Body} (h : b.Sound ks) :
    Layout.Alike ks b.layout b.layout ks := by
  cases b with
  | statements lines => exact .statements h
  | request call => exact RequestCall.Sound.layout h ks

structure IndexSignature.Sound (s : IndexSignature) : Prop where
  keyName : Ordinary s.keyName
  keyType : s.keyType.Alike s.keyType
  valueType : s.valueType.Alike s.valueType

theorem IndexSignature.Sound.layout {s : IndexSignature} (h : s.Sound) (ks : List Char) :
    Layout.Alike ks s.layout s.layout ks := by
  apply Layout.Alike.line
  intro indentation hi
  have hopen : Alike ks "[" "[" (']' :: ks) := .of_brackets rfl
  have hclose : Alike (']' :: ks) "]: " "]: " ks := .of_brackets rfl
  exact (((((hopen.append (.of_ordinary h.keyName _)).append (.of_brackets rfl)).append
    (h.keyType.text _ hi)).append hclose).append (h.valueType.text ks hi)).append (.of_brackets rfl)

theorem Field.Alike.layout {f g : Field} (h : f.Alike g) (ks : List Char) :
    Layout.Alike ks f.layout g.layout ks :=
  (Layout.Alike.docComment f.docs g.docs ks).append
    (.line fun hi => (h.signature ks hi).append (.of_brackets rfl))

structure Interface.Sound (i : Interface) : Prop where
  name : Ordinary i.name
  typeParams : Ordinary (typeParamList i.typeParams)
  indexSignature : ∀ s ∈ i.indexSignature, s.Sound
  fields : List.Forall₂ Field.Alike i.fields i.fields

theorem Interface.Sound.layout {i : Interface} (h : i.Sound) (ks : List Char) :
    Layout.Alike ks i.layout i.layout ks := by
  apply (Layout.Alike.docComment _ _ ks).append
  apply Layout.Alike.block ('}' :: ks) _ (@Layout.Alike.append _ ('}' :: ks) _ _ _ _ _ ?_ ?_) rfl
  · intro indentation _
    exact ((((Alike.of_ordinary (ordinary_exportWord _) ks).append (.of_brackets rfl)).append
      (.of_ordinary h.name ks)).append (.of_ordinary h.typeParams ks)).append
        (.of_brackets rfl)
  · cases hs : i.indexSignature with
    | none => exact .nil _
    | some s => exact (h.indexSignature s hs).layout _
  · exact .flatMap (fun hfg => hfg.layout _) h.fields

structure Function.Sound (f : Function) : Prop where
  name : Ordinary f.name
  typeParams : Ordinary (typeParamList f.typeParams)
  params : List.Forall₂ Param.Alike f.params f.params
  returnType : Option.Rel TypeTerm.Alike f.returnType f.returnType
  body : f.body.Sound ['}']

theorem alike_head {name typeParams : String} (hname : Ordinary name)
    (htypeParams : Ordinary typeParams) {ps qs : List Param} (h : List.Forall₂ Param.Alike ps qs)
    {t u : Option TypeTerm} (htu : Option.Rel TypeTerm.Alike t u) (ks : List Char)
    {indentation : String} (hi : Spaces indentation) :
    Alike ks
      (name ++ typeParams ++ "(" ++ paramList indentation ps ++ ")" ++ annotation indentation t
        ++ " \x7b")
      (name ++ typeParams ++ "(" ++ paramList indentation qs ++ ")" ++ annotation indentation u
        ++ " \x7b")
      ('}' :: ks) := by
  have hopen : Alike ks "(" "(" (')' :: ks) := .of_brackets rfl
  have hclose : Alike (')' :: ks) ")" ")" ks := .of_brackets rfl
  have hnames := (Alike.of_ordinary hname ks).append (.of_ordinary htypeParams ks)
  have hparams := ((hnames.append hopen).append (alike_paramList h _ hi)).append hclose
  exact (hparams.append (alike_annotated htu ks hi)).append (.of_brackets rfl)

theorem Function.Sound.layout {f : Function} (h : f.Sound) :
    Layout.Alike [] f.layout f.layout [] := by
  have hfunction : Ordinary "function " := by decide
  have hname := (((ordinary_exportWord f.exported).append (ordinary_asyncWord f.isAsync)).append
    hfunction).append h.name
  apply (Layout.Alike.docComment _ _ []).append
  apply Layout.Alike.block ['}'] _ h.body.layout rfl
  intro indentation hi
  exact alike_head hname h.typeParams h.params h.returnType [] hi

structure Constructor.Sound (c : Constructor) : Prop where
  params : List.Forall₂ Param.Alike c.params c.params
  body : statementsAfter ['}', '}'] (c.body.map String.toList) = some ['}', '}']

theorem Constructor.Sound.layout {c : Constructor} (h : c.Sound) :
    Layout.Alike ['}'] c.layout c.layout ['}'] := by
  apply Layout.Alike.block ['}', '}'] _ (.statements h.body) rfl
  intro indentation hi
  have hopen : Alike ['}'] "constructor(" "constructor(" [')', '}'] := .of_brackets rfl
  exact (hopen.append (alike_paramList h.params _ hi)).append (.of_brackets rfl)

structure Method.Sound (m : Method) : Prop where
  name : Ordinary m.name
  typeParams : Ordinary (typeParamList m.typeParams)
  params : List.Forall₂ Param.Alike m.params m.params
  returnType : Option.Rel TypeTerm.Alike m.returnType m.returnType
  body : m.body.Sound ['}', '}']

theorem Method.Sound.layout {m : Method} (h : m.Sound) :
    Layout.Alike ['}'] m.layout m.layout ['}'] := by
  have hname := (m.visibility.ordinary_word.append (ordinary_asyncWord m.isAsync)).append h.name
  apply (Layout.Alike.docComment _ _ _).append
  apply Layout.Alike.block ['}', '}'] _ h.body.layout rfl
  intro indentation hi
  exact alike_head hname h.typeParams h.params h.returnType _ hi

structure ArrowMethod.Alike (m n : ArrowMethod) : Prop where
  name : m.name = n.name
  params : List.Forall₂ Param.Alike m.params n.params
  body : m.body = n.body
  sound : m.body.Sound ['}', '}', '}']

theorem ArrowMethod.Alike.layout {m n : ArrowMethod} (h : m.Alike n) :
    Layout.Alike ['}', '}'] m.layout n.layout ['}', '}'] := by
  unfold ArrowMethod.layout
  rw [← h.name, ← h.body]
  apply (Layout.Alike.docComment _ _ _).append
  apply Layout.Alike.block ['}', '}', '}'] _ h.sound.layout rfl
  intro indentation hi
  have hopen : Script.Alike ['}', '}'] ": (" ": (" [')', '}', '}'] := .of_brackets rfl
  exact (((alike_objectKey _ m.name).append hopen).append
    (alike_paramList h.params _ hi)).append (.of_brackets rfl)

inductive Initializer.Alike : Initializer → Initializer → Prop
  | raw {expression : String} (h : Ordinary expression) : Alike (.raw expression) (.raw expression)
  | object {ms ns : List ArrowMethod} (h : List.Forall₂ ArrowMethod.Alike ms ns) :
    Alike (.object ms) (.object ns)

structure Property.Alike (p q : Property) : Prop where
  name : p.name = q.name
  visibility : p.visibility = q.visibility
  readonly : p.readonly = q.readonly
  optional : p.optional = q.optional
  type : Option.Rel TypeTerm.Alike p.type q.type
  initializer : Option.Rel Initializer.Alike p.initializer q.initializer
  ordinary_name : Ordinary p.name

namespace Property.Alike

theorem head {p q : Property} (h : p.Alike q) (ks : List Char) {indentation : String}
    (hi : Spaces indentation) : Script.Alike ks (p.head indentation) (q.head indentation) ks := by
  have hreadonly (b : Bool) : Ordinary (if b then "readonly " else "") := by cases b <;> decide
  have hmark (b : Bool) : Ordinary (if b then "?" else "") := by cases b <;> decide
  unfold Property.head
  rw [← h.name, ← h.visibility, ← h.readonly, ← h.optional]
  exact ((((Script.Alike.of_ordinary p.visibility.ordinary_word ks).append
    (.of_ordinary (hreadonly _) ks)).append (.of_ordinary h.ordinary_name ks)).append
    (.of_ordinary (hmark _) ks)).append (alike_annotated h.type ks hi)

theorem layout {p q : Property} (h : p.Alike q) :
    Layout.Alike ['}'] p.layout q.layout ['}'] := by
  have hinit := h.initializer
  unfold Property.layout
  apply (Layout.Alike.docComment _ _ _).append
  generalize p.initializer = i at hinit ⊢
  generalize q.initializer = j at hinit ⊢
  cases hinit with
  | none => exact .line fun hi => (h.head _ hi).append (.of_brackets rfl)
  | some hij =>
    cases hij with
    | raw he =>
      exact .line fun hi => (((h.head _ hi).append (.of_brackets rfl)).append
        (.of_ordinary he _)).append (.of_brackets rfl)
    | object hms =>
      apply Layout.Alike.block ['}', '}'] _ (.spaced _) rfl
      · intro indentation hi
        exact (h.head _ hi).append (.of_brackets rfl)
      · exact List.rel_map (fun _ _ hmn => hmn.layout) hms

end Property.Alike

inductive Member.Alike : Member → Member → Prop
  | constructor {c : Constructor} (h : c.Sound) : Alike (.constructor c) (.constructor c)
  | property {p q : Property} (h : p.Alike q) : Alike (.property p) (.property q)
  | method {m : Method} (h : m.Sound) : Alike (.method m) (.method m)

theorem Member.Alike.layout {m n : Member} (h : m.Alike n) :
    Layout.Alike ['}'] m.layout n.layout ['}'] := by
  cases h with
  | constructor h => exact h.layout
  | property h => exact h.layout
  | method h => exact h.layout

end ClientGen.Script
