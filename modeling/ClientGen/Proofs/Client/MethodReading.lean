import ClientGen.Proofs.Client.FixedPart
import ClientGen.Proofs.Client.MadeMethod
import ClientGen.Proofs.Client.Texts
import ClientGen.Config
import ClientGen.Proofs.Model.Symbols

namespace ClientGen.Client

open Script

theorem wellNamed_typeOfPrimitive (p : Primitive) : (typeOfPrimitive p).WellNamed := by
  induction p with
  | string => exact .named (by decide)
  | number => exact .named (by decide)
  | boolean => exact .named (by decide)
  | array item ih => exact .array ih
  | unknown => exact wellNamed_any

theorem ne_nil_of_textChoices {s : Schema} {values : List String}
    (h : s.textChoices = some values) : values ≠ [] := by
  rintro rfl
  unfold Schema.textChoices at h
  cases he : s.enumeration with
  | nil => simp [he] at h
  | cons value rest =>
    rw [he, List.mapM_cons] at h
    obtain ⟨_, _, h⟩ := Option.bind_eq_some_iff.1 h
    obtain ⟨_, _, h⟩ := Option.bind_eq_some_iff.1 h
    cases h

theorem wellNamed_fieldType (p : Parameter) : (fieldType p).WellNamed := by
  unfold fieldType
  cases h : p.schema.bind Schema.textChoices with
  | some values =>
    obtain ⟨s, _, hs⟩ := Option.bind_eq_some_iff.1 h
    exact wellNamed_literals (ne_nil_of_textChoices hs)
  | none => exact wellNamed_typeOfPrimitive p.primitive

theorem wellNamed_placeholderField (name : String) : (placeholderField name).type.WellNamed :=
  wellNamed_pair (.named (by decide)) (.named (by decide))

def SoundFields (fields : List Field) : Prop := ∀ f ∈ fields, f.type.Alike f.type

theorem SoundFields.append_singleton {fields : List Field} (h : SoundFields fields) {f : Field}
    (hf : f.type.Alike f.type) : SoundFields (fields ++ [f]) := by
  intro g hg
  rcases List.mem_append.1 hg with hg | hg
  · exact h g hg
  · rw [List.mem_singleton.1 hg]
    exact hf

theorem sound_declaredFields (context : String) {acc : Made (List Field)}
    (h : SoundFields acc.value) (ps : List Parameter) :
    SoundFields (declaredFields context acc ps).value := by
  induction ps generalizing acc with
  | nil => exact h
  | cons p ps ih =>
    rw [declaredFields]
    split
    · exact ih h
    · exact ih (h.append_singleton (wellNamed_fieldType p).alike)

theorem sound_placeholderFields (path : String) {acc : Made (List Field)}
    (h : SoundFields acc.value) (names : List String) :
    SoundFields (placeholderFields path acc names).value := by
  induction names generalizing acc with
  | nil => exact h
  | cons name names ih =>
    rw [placeholderFields]
    split
    · exact ih h
    · exact ih (h.append_singleton (wellNamed_placeholderField name).alike)

theorem sound_argumentFields (context : String) (e : Endpoint) :
    SoundFields (argumentFields context e).value := by
  refine sound_placeholderFields _ (sound_declaredFields context ?_ _) _
  intro f hf
  cases hf

theorem forall₂_of_map_eq {α β γ : Type} {f : α → γ} {g : β → γ} {as : List α} {bs : List β}
    (h : as.map f = bs.map g) : List.Forall₂ (fun a b => f a = g b) as bs := by
  rw [← List.forall₂_eq_eq_eq, List.forall₂_map_left_iff, List.forall₂_map_right_iff] at h
  exact h

theorem alike_of_withoutTexts {f g : Field} (h : f.withoutTexts = g.withoutTexts)
    (hf : f.type.Alike f.type) : f.Alike g := by
  obtain ⟨name, type, optional, docs⟩ := f
  obtain ⟨name', type', optional', docs'⟩ := g
  simp only [Field.withoutTexts, Field.mk.injEq] at h
  obtain ⟨rfl, rfl, rfl, hdocs⟩ := h
  refine ⟨rfl, rfl, hf, ?_⟩
  cases docs <;> cases docs' <;> simp_all

theorem alike_of_map_withoutTexts {fs gs : List Field}
    (h : fs.map Field.withoutTexts = gs.map Field.withoutTexts) (hs : SoundFields fs) :
    List.Forall₂ Field.Alike fs gs := by
  have hmap := forall₂_of_map_eq h
  clear h
  induction hmap with
  | nil => exact .nil
  | @cons f g fs gs hfg _ ih =>
    exact .cons (alike_of_withoutTexts hfg (hs f List.mem_cons_self))
      (ih fun k hk => hs k (List.mem_cons_of_mem f hk))

theorem isIdentifier_queryName : Text.isIdentifier queryName = true := by decide

theorem isIdentifier_dataName : Text.isIdentifier dataName = true := by decide

theorem isIdentifier_validateName : Text.isIdentifier validateName = true := by decide

theorem alike_queryArgument {fs gs : List Field}
    (h : fs.map Field.withoutTexts = gs.map Field.withoutTexts) (hs : SoundFields fs)
    (hasData : Bool) :
    List.Forall₂ Param.Alike (queryArgument fs hasData).toList
      (queryArgument gs hasData).toList := by
  have hfields := alike_of_map_withoutTexts h hs
  have hempty : fs.isEmpty = gs.isEmpty := by cases hfields <;> rfl
  have hoptional : fs.all (·.optional) = gs.all (·.optional) := by
    have hall := congrArg (List.all · (·.optional)) h
    simpa [Field.withoutTexts, List.all_map, Function.comp_def] using hall
  unfold queryArgument
  rw [← hempty, ← hoptional]
  split
  · exact .nil
  · exact .cons ⟨rfl, rfl, rfl, .some (.object hfields), .of_isIdentifier isIdentifier_queryName,
      by simp⟩ .nil

structure DataArgument.WellNamed (data : DataArgument) : Prop where
  type : data.type.WellNamed
  validator : ∀ v ∈ data.validator, ∀ c ∈ v.toList, Text.continuesIdentifier c = true

theorem wellNamed_dataArgument {config : Config} (hc : config.Accepted) (context : String)
    (op : Operation) : (dataArgument config context op).value.WellNamed := by
  rw [dataArgument_value]
  cases h : op.payloadModel? with
  | none => exact ⟨wellNamed_any, by simp [untypedData]⟩
  | some model =>
    have hm := op.isIdentifier_of_payloadModel? h
    refine ⟨.named hm, fun v hv => ?_⟩
    obtain ⟨found, hfound, hv⟩ := Option.bind_eq_some_iff.1 hv
    exact Convention.continuesIdentifier_of_exportOf? hc.validatorSuffix hm hfound hv

theorem wellNamed_dataArguments {data : DataArgument} (h : data.WellNamed) :
    ∀ p ∈ dataArguments data, p.WellNamed := by
  have hvalidate : Param.WellNamed
      { name := validateName, type := some (.named "boolean"), defaultValue := some "false" } :=
    ⟨isIdentifier_validateName, by simpa using .named (by decide), by simp; decide⟩
  simp only [dataArguments, List.forall_mem_cons]
  exact ⟨wellNamed_plainParam isIdentifier_dataName h.type false, hvalidate, by simp⟩

theorem wellNamed_call {op : Operation} (verb : Verb) (path : String)
    (passQuery passData : Bool) {data : Option DataArgument} (hdata : ∀ d ∈ data, d.WellNamed) :
    RequestCall.WellNamed {
      verb, path, passQuery, passData
      result := op.resultModel?.map .named
      guard := data.bind guardOf } where
  result t ht := by
    obtain ⟨model, hmodel, rfl⟩ := Option.map_eq_some_iff.1 ht
    exact .named (op.isIdentifier_of_resultModel? hmodel)
  guard g hg := by
    obtain ⟨d, hd, hg⟩ := Option.bind_eq_some_iff.1 hg
    obtain ⟨v, hv, rfl⟩ := Option.map_eq_some_iff.1 hg
    exact ⟨isIdentifier_validateName, (hdata d hd).validator v hv, isIdentifier_dataName⟩

theorem wellNamed_bodyArgument {config : Config} (hc : config.Accepted) (context : String)
    (op : Operation) : ∀ d ∈ bodyArgument config context op, d.WellNamed := by
  intro d hd
  unfold bodyArgument at hd
  split at hd
  · cases hd
    exact wellNamed_dataArgument hc context op
  · cases hd

theorem bodyArgument_withoutTexts (config : Config) (context : String) (op : Operation) :
    bodyArgument config context op.withoutTexts = bodyArgument config context op := by
  unfold bodyArgument
  rw [op.sendsBody_withoutTexts, dataArgument_withoutTexts]

theorem alike_makeMethod {config : Config} (hc : config.Accepted) (controller name : String)
    {e f : Endpoint} (h : e.withoutTexts = f.withoutTexts) :
    (makeMethod config controller name e).value.Alike
      (makeMethod config controller name f).value := by
  have hcontext : methodContext controller name e = methodContext controller name f :=
    (congrArg (methodContext controller name) h :)
  have hverb : e.verb = f.verb := (congrArg Endpoint.verb h :)
  have hpath : e.path = f.path := (congrArg Endpoint.path h :)
  have hop : e.operation.withoutTexts = f.operation.withoutTexts :=
    (congrArg Endpoint.operation h :)
  have hresult : e.operation.resultModel? = f.operation.resultModel? :=
    (congrArg Operation.resultModel? hop :)
  rw [makeMethod_value, makeMethod_value, hcontext, hresult]
  set context := methodContext controller name f
  have hbody : bodyArgument config context e.operation =
      bodyArgument config context f.operation := by
    rw [← bodyArgument_withoutTexts, hop, bodyArgument_withoutTexts]
  have hfields : (argumentFields context e).value.map Field.withoutTexts =
      (argumentFields context f).value.map Field.withoutTexts := by
    have hboth := congrArg (fun k => (argumentFields context k).value) h
    simpa [argumentFields_withoutTexts, Made.map] using hboth
  have hdata := wellNamed_bodyArgument hc context f.operation
  have hquery (hasData : Bool) :=
    alike_queryArgument hfields (sound_argumentFields context e) hasData
  rw [hbody]
  generalize bodyArgument config context f.operation = data at hdata ⊢
  refine {
    name := rfl
    params := List.rel_append (hquery data.isSome) ?_
    body := ?_
    sound := (wellNamed_call e.verb e.path _ _ hdata).sound }
  · cases data with
    | none => exact .nil
    | some d => exact alike_params (wellNamed_dataArguments (hdata d rfl))
  · have hsome : (queryArgument (argumentFields context e).value data.isSome).isSome =
        (queryArgument (argumentFields context f).value data.isSome).isSome := by
      have hempty := congrArg List.isEmpty hfields
      rw [isSome_queryArgument, isSome_queryArgument]
      simpa using hempty
    simp only [buildMethod, hsome, hverb, hpath]

structure Controller.Alike (c d : Controller) : Prop where
  name : c.name = d.name
  methods : List.Forall₂ ArrowMethod.Alike c.methods d.methods
  ordinary_name : Ordinary c.name

theorem alike_makeController {config : Config} (hc : config.Accepted) {name : String}
    (hname : Ordinary name) {ms ns : Table Endpoint}
    (h : ms.mapValues Endpoint.withoutTexts = ns.mapValues Endpoint.withoutTexts) :
    (makeController config name ms).value.Alike (makeController config name ns).value where
  name := rfl
  methods := by
    rw [makeController_methods, makeController_methods]
    apply List.rel_map _ (forall₂_of_map_eq h)
    intro p q hpq
    obtain ⟨key, e⟩ := p
    obtain ⟨key', f⟩ := q
    obtain ⟨hkey, he⟩ := Prod.mk.inj hpq
    dsimp only at hkey he
    subst hkey
    exact alike_makeMethod hc name key he
  ordinary_name := hname

theorem alike_groupMembers {c d : Controller} (h : c.Alike d) :
    List.Forall₂ Member.Alike (groupMembers c) (groupMembers d) := by
  have hthis : Ordinary "this." := by decide
  have hbar : Ordinary "_" := by decide
  have hname := h.ordinary_name
  have hown : Ordinary (ownGroupName c.name) := hbar.append hname
  have hread : Ordinary ("this." ++ ownGroupName c.name) := hthis.append hown
  unfold groupMembers
  rw [← h.name]
  refine .cons (.property ?_) (.cons (.property ?_) .nil)
  · exact ⟨rfl, rfl, rfl, rfl, .none, .some (.object h.methods), hown⟩
  · exact ⟨rfl, rfl, rfl, rfl, .some (.generic (by decide) (.cons (.typeOf hread) .nil)),
      .some (.raw hread), hname⟩

theorem wellFormed_clientConstructor :
    Constructor.WellFormed { params := [optionsArgument], body := ["super(options);"] } :=
  wellFormed_optionsConstructor ⟨by decide +kernel, by decide +kernel⟩

theorem alike_clientClass {config : Config} (hc : config.Accepted) {cs ds : List Controller}
    (h : List.Forall₂ Controller.Alike cs ds) :
    (clientClass config cs).Alike (clientClass config ds) where
  name := rfl
  exported := rfl
  base := rfl
  members := by
    refine .cons (.constructor wellFormed_clientConstructor.sound) ?_
    induction h with
    | nil => exact .nil
    | cons hcd _ ih => exact List.rel_append (alike_groupMembers hcd) ih
  ordinary_name := .of_isIdentifier hc.clientName
  ordinary_base := by
    simp only [clientClass, Option.mem_def, Option.some.injEq]
    rintro b rfl
    exact .of_isIdentifier hc.baseClassName

end ClientGen.Client
