import ClientGen.Proofs.Client.References

namespace ClientGen

open Client Script

namespace Script.ArrowMethod

/-- The query argument of the method has this field. -/
def Takes (m : ArrowMethod) (f : Field) : Prop :=
  ∃ argument ∈ m.params, argument.name = queryName ∧
    ∃ fields, argument.type = some (.object fields) ∧ f ∈ fields

/-- No call may leave out the query argument, nor the field of this name in it. -/
def Requires (m : ArrowMethod) (name : String) : Prop :=
  ∃ argument ∈ m.params, argument.name = queryName ∧ argument.optional = false ∧
    ∃ fields, argument.type = some (.object fields) ∧
      ∃ f ∈ fields, f.name = name ∧ f.optional = false

end Script.ArrowMethod

namespace Client

section Fields

variable (context path : String)

theorem hasField_iff {fields : List Field} {name : String} :
    hasField fields name = true ↔ name ∈ fields.map Field.name := by
  simp [hasField]

theorem hasField_iff_find? {fields : List Field} {name : String} :
    hasField fields name = true ↔ (fields.find? (·.name == name)).isSome = true := by
  simp [hasField]

structure Adds (before after : Made (List Field)) : Prop where
  value : before.value <+: after.value
  diagnostics : before.diagnostics <+: after.diagnostics

theorem Adds.trans {a b c : Made (List Field)} (h : Adds a b) (h' : Adds b c) : Adds a c :=
  ⟨h.value.trans h'.value, h.diagnostics.trans h'.diagnostics⟩

theorem adds_declaredFields (acc : Made (List Field)) (ps : List Parameter) :
    Adds acc (declaredFields context acc ps) := by
  induction ps generalizing acc with
  | nil => exact ⟨List.prefix_rfl, List.prefix_rfl⟩
  | cons p ps ih =>
    rw [declaredFields]
    split
    · refine .trans ?_ (ih _)
      exact ⟨List.prefix_rfl, List.prefix_append _ _⟩
    · refine .trans ?_ (ih _)
      exact ⟨List.prefix_append _ _, List.prefix_rfl⟩

theorem adds_placeholderFields (acc : Made (List Field)) (names : List String) :
    Adds acc (placeholderFields path acc names) := by
  induction names generalizing acc with
  | nil => exact ⟨List.prefix_rfl, List.prefix_rfl⟩
  | cons name names ih =>
    rw [placeholderFields]
    split
    · exact ih _
    · refine .trans ?_ (ih _)
      exact ⟨List.prefix_append _ _, List.prefix_append _ _⟩

theorem nodup_names_concat {fields : List Field} {f : Field}
    (h : (fields.map Field.name).Nodup) (hf : ¬ hasField fields f.name = true) :
    ((fields ++ [f]).map Field.name).Nodup := by
  rw [hasField_iff] at hf
  rw [List.map_append, List.map_singleton, ← List.concat_eq_append]
  exact h.concat hf

theorem nodup_names_declaredFields {acc : Made (List Field)}
    (h : (acc.value.map Field.name).Nodup) (ps : List Parameter) :
    ((declaredFields context acc ps).value.map Field.name).Nodup := by
  induction ps generalizing acc with
  | nil => exact h
  | cons p ps ih =>
    rw [declaredFields]
    split
    · exact ih h
    · next hp => exact ih (nodup_names_concat h hp)

theorem nodup_names_placeholderFields {acc : Made (List Field)}
    (h : (acc.value.map Field.name).Nodup) (names : List String) :
    ((placeholderFields path acc names).value.map Field.name).Nodup := by
  induction names generalizing acc with
  | nil => exact h
  | cons name names ih =>
    rw [placeholderFields]
    split
    · exact ih h
    · next hname => exact ih (nodup_names_concat h hname)

theorem nodup_names_argumentFields (e : Endpoint) :
    ((argumentFields context e).value.map Field.name).Nodup := by
  apply nodup_names_placeholderFields
  apply nodup_names_declaredFields
  exact List.nodup_nil

theorem mem_and_name_iff {fields : List Field} (h : (fields.map Field.name).Nodup) {name : String}
    {field : Field} (hfind : fields.find? (·.name == name) = some field) (f : Field) :
    f ∈ fields ∧ f.name = name ↔ f = field := by
  have hname : field.name = name := by simpa using List.find?_some hfind
  constructor
  · rintro ⟨hf, rfl⟩
    exact List.inj_on_of_nodup_map h hf (List.mem_of_find?_eq_some hfind) hname.symm
  · rintro rfl
    exact ⟨List.mem_of_find?_eq_some hfind, hname⟩

theorem find?_declaredFields (acc : Made (List Field)) (ps : List Parameter) (name : String) :
    (declaredFields context acc ps).value.find? (·.name == name) =
      (acc.value.find? (·.name == name)).or
        ((ps.find? (·.name == name)).map declaredField) := by
  induction ps generalizing acc with
  | nil => simp [declaredFields]
  | cons p ps ih =>
    rw [declaredFields, List.find?_cons]
    split
    · next hp =>
      -- a field of that name is there, so the parameter changes no answer
      rw [ih]
      split
      · next heq =>
        rw [hasField_iff_find?, eq_of_beq heq] at hp
        obtain ⟨f, hf⟩ := Option.isSome_iff_exists.1 hp
        simp [hf]
      · rfl
    · rw [ih, List.find?_append, Option.or_assoc]
      split
      · next heq => simp [declaredField, heq]
      · next heq => simp [declaredField, heq]

theorem first_or_skipped {p : Parameter} {ps : List Parameter} (acc : Made (List Field))
    (h : p ∈ ps) :
    (hasField acc.value p.name = false ∧ ps.find? (·.name == p.name) = some p) ∨
      skipped context p ∈ (declaredFields context acc ps).diagnostics := by
  induction ps generalizing acc with
  | nil => cases h
  | cons q ps ih =>
    rw [declaredFields]
    split
    · next hq =>
      rcases List.mem_cons.1 h with rfl | h
      · right
        apply (adds_declaredFields context _ ps).diagnostics.subset
        simp
      · rcases ih { acc with diagnostics := acc.diagnostics ++ [skipped context q] } h with
          ⟨hp, hfind⟩ | hskipped
        · have hne : q.name ≠ p.name := by
            intro heq
            rw [heq, hp] at hq
            cases hq
          exact .inl ⟨hp, by rw [List.find?_cons, beq_false_of_ne hne, hfind]⟩
        · exact .inr hskipped
    · next hq =>
      rcases List.mem_cons.1 h with rfl | h
      · exact .inl ⟨by simpa using hq, by simp⟩
      · rcases ih { acc with value := acc.value ++ [declaredField q] } h with
          ⟨hp, hfind⟩ | hskipped
        · simp only [hasField, List.any_append, List.any_cons, List.any_nil, Bool.or_false,
            Bool.or_eq_false_iff] at hp
          have hne : (q.name == p.name) = false := hp.2
          exact .inl ⟨hp.1, by rw [List.find?_cons, hne, hfind]⟩
        · exact .inr hskipped

end Fields

section Argument

variable {context : String} {e : Endpoint}

theorem find?_argumentFields {name : String} {first : Parameter}
    (h : e.operation.queryParameters.find? (·.name == name) = some first) :
    (argumentFields context e).value.find? (·.name == name) = some (declaredField first) := by
  unfold argumentFields
  apply (adds_placeholderFields _ _ _).value.find?_eq_some
  rw [find?_declaredFields, h]
  rfl

theorem skipped_mem_argumentFields {p : Parameter} (hp : p ∈ e.operation.queryParameters)
    (h : e.operation.queryParameters.find? (·.name == p.name) ≠ some p) :
    skipped context p ∈ (argumentFields context e).diagnostics := by
  unfold argumentFields
  apply (adds_placeholderFields _ _ _).diagnostics.subset
  exact (first_or_skipped context _ hp).resolve_left fun hfirst => h hfirst.2

structure QueryParts (fields : List Field) (hasData : Bool) (argument : Param) : Prop where
  name : argument.name = queryName
  type : argument.type = some (.object fields)
  optional : argument.optional = (fields.all (·.optional) && !hasData)

theorem parts_of_queryArgument {fields : List Field} {hasData : Bool} {argument : Param}
    (h : queryArgument fields hasData = some argument) : QueryParts fields hasData argument := by
  unfold queryArgument at h
  split at h
  · cases h
  · cases h
    exact ⟨rfl, rfl, rfl⟩

theorem exists_queryArgument {fields : List Field} {f : Field} (h : f ∈ fields) (hasData : Bool) :
    ∃ argument, queryArgument fields hasData = some argument := by
  have hsome := isSome_queryArgument fields hasData
  rw [List.isEmpty_eq_false_iff_exists_mem.2 ⟨f, h⟩] at hsome
  exact Option.isSome_iff_exists.1 hsome

theorem mem_params_buildMethod_iff {config : Config} {name : String} {result : Option String}
    {fields : List Field} {data : Option DataArgument} {argument : Param} :
    argument ∈ (buildMethod config name e result fields data).params ∧ argument.name = queryName ↔
      queryArgument fields data.isSome = some argument := by
  have hparams : (buildMethod config name e result fields data).params =
      (queryArgument fields data.isSome).toList ++ (data.map dataArguments).getD [] := rfl
  have hdata : ∀ p ∈ (data.map dataArguments).getD [], p.name ≠ queryName := by
    cases data with
    | none => simp
    | some d =>
      have hne : dataName ≠ queryName ∧ validateName ≠ queryName := by decide
      simp [dataArguments, hne]
  rw [hparams, List.mem_append, Option.mem_toList]
  constructor
  · rintro ⟨h | h, hname⟩
    · exact h
    · exact absurd hname (hdata argument h)
  · intro h
    exact ⟨.inl h, (parts_of_queryArgument h).name⟩

section Method

variable {config : Config} {controller name : String}

theorem mem_params_makeMethod_iff {argument : Param} :
    argument ∈ (makeMethod config controller name e).value.params ∧ argument.name = queryName ↔
      queryArgument (argumentFields (methodContext controller name e) e).value
        e.operation.sendsBody = some argument := by
  have hsends : (bodyArgument config (methodContext controller name e) e.operation).isSome =
      e.operation.sendsBody := by
    unfold bodyArgument
    split <;> simp_all
  rw [makeMethod_value, mem_params_buildMethod_iff, hsends]

theorem takes_makeMethod_iff {f : Field} :
    (makeMethod config controller name e).value.Takes f ↔
      f ∈ (argumentFields (methodContext controller name e) e).value := by
  constructor
  · rintro ⟨argument, hmem, hname, fields, htype, hf⟩
    have hquery := mem_params_makeMethod_iff.1 ⟨hmem, hname⟩
    rw [(parts_of_queryArgument hquery).type] at htype
    cases htype
    exact hf
  · intro hf
    obtain ⟨argument, hquery⟩ := exists_queryArgument hf e.operation.sendsBody
    obtain ⟨hmem, hname⟩ := mem_params_makeMethod_iff.2 hquery
    exact ⟨argument, hmem, hname, _, (parts_of_queryArgument hquery).type, hf⟩

theorem requires_makeMethod_iff {field : String} :
    (makeMethod config controller name e).value.Requires field ↔
      ∃ f ∈ (argumentFields (methodContext controller name e) e).value,
        f.name = field ∧ f.optional = false := by
  constructor
  · rintro ⟨argument, hmem, hname, _, fields, htype, f, hf, hrequired⟩
    exact ⟨f, takes_makeMethod_iff.1 ⟨argument, hmem, hname, fields, htype, hf⟩, hrequired⟩
  · rintro ⟨f, hf, hname, hrequired⟩
    obtain ⟨argument, hquery⟩ := exists_queryArgument hf e.operation.sendsBody
    obtain ⟨hmem, hargument⟩ := mem_params_makeMethod_iff.2 hquery
    have hparts := parts_of_queryArgument hquery
    -- one field that is not optional is enough for the whole argument
    have hoptional : argument.optional = false := by
      rw [hparts.optional, List.all_eq_false.2 ⟨f, hf, by simp [hrequired]⟩, Bool.false_and]
    exact ⟨argument, hmem, hargument, hoptional, _, hparts.type, f, hf, hname, hrequired⟩

/-- A declared parameter of the query or the path has one field, made by the first such
parameter of its name. That one decides whether callers have to give a value, and a required
parameter that is overruled is reported. -/
theorem requires_iff_first_required {p : Parameter} (hp : p ∈ e.operation.queryParameters) :
    ∃ first, e.operation.queryParameters.find? (·.name == p.name) = some first ∧
      (∀ f, (makeMethod config controller name e).value.Takes f ∧ f.name = p.name ↔
        f = declaredField first) ∧
      ((makeMethod config controller name e).value.Requires p.name ↔ first.required = true) ∧
      (p.required = true → ¬ (makeMethod config controller name e).value.Requires p.name →
        skipped (methodContext controller name e) p ∈
          (makeMethod config controller name e).diagnostics) := by
  obtain ⟨first, hfirst⟩ : ∃ first,
      e.operation.queryParameters.find? (·.name == p.name) = some first :=
    Option.isSome_iff_exists.1 (List.find?_isSome.2 ⟨p, hp, beq_self_eq_true _⟩)
  have hone := mem_and_name_iff (nodup_names_argumentFields (methodContext controller name e) e)
    (find?_argumentFields hfirst)
  have hrequires : (makeMethod config controller name e).value.Requires p.name ↔
      first.required = true := by
    rw [requires_makeMethod_iff]
    constructor
    · rintro ⟨f, hf, hname, hrequired⟩
      rw [(hone f).1 ⟨hf, hname⟩] at hrequired
      simpa [declaredField] using hrequired
    · intro hrequired
      obtain ⟨hmem, hname⟩ := (hone (declaredField first)).2 rfl
      exact ⟨declaredField first, hmem, hname, by simp [declaredField, hrequired]⟩
  refine ⟨first, hfirst, fun f => ?_, hrequires, fun hrequired hnot => ?_⟩
  · rw [takes_makeMethod_iff]
    exact hone f
  · have hother : e.operation.queryParameters.find? (·.name == p.name) ≠ some p := by
      intro hself
      rw [hfirst] at hself
      cases hself
      exact hnot (hrequires.2 hrequired)
    have hskipped : skipped (methodContext controller name e) p ∈
        (argumentFields (methodContext controller name e) e).diagnostics :=
      skipped_mem_argumentFields hp hother
    simp [makeMethod, hskipped]

end Method

end Argument

/-- One name in two places: the query can do without a value, the path cannot. -/
def crossedEndpoint (parameters : List Parameter) : Endpoint where
  verb := .get
  path := "/items/\x7bid\x7d"
  operation := { operationId := some "items_get", parameters }

def optionalId : Parameter := { name := "id", location := .query }

def requiredId : Parameter := { name := "id", location := .path, required := true }

/-- The parameter that may not be left out comes first, so it stays required. -/
theorem requires_requiredId_first :
    requiredId ∈ (crossedEndpoint [requiredId, optionalId]).operation.queryParameters ∧
      (makeMethod {} "items" "get" (crossedEndpoint [requiredId, optionalId])).value.Requires
        "id" := by
  have hmem : requiredId ∈ (crossedEndpoint [requiredId, optionalId]).operation.queryParameters :=
    List.mem_cons_self
  refine ⟨hmem, ?_⟩
  obtain ⟨first, hfirst, _, hrequires, _⟩ :=
    @requires_iff_first_required _ {} "items" "get" _ hmem
  cases hfirst
  exact hrequires.2 rfl

/-- It comes second, and callers may leave it out. -/
theorem not_requires_requiredId_second :
    requiredId ∈ (crossedEndpoint [optionalId, requiredId]).operation.queryParameters ∧
      requiredId.required = true ∧
      ¬ (makeMethod {} "items" "get" (crossedEndpoint [optionalId, requiredId])).value.Requires
        requiredId.name := by
  refine ⟨List.mem_cons_of_mem _ List.mem_cons_self, rfl, fun h => ?_⟩
  obtain ⟨f, hf, hname, hrequired⟩ := requires_makeMethod_iff.1 h
  have hfirst : (crossedEndpoint [optionalId, requiredId]).operation.queryParameters.find?
      (·.name == requiredId.name) = some optionalId := rfl
  rw [(mem_and_name_iff (nodup_names_argumentFields _ _) (find?_argumentFields hfirst) f).1
    ⟨hf, hname⟩] at hrequired
  cases hrequired

end Client

end ClientGen
