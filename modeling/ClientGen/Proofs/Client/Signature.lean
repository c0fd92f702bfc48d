import ClientGen.Proofs.Client.ArgumentFields

namespace ClientGen

open Client Script

/-- A body comes with the flag that asks for its validation, the query argument stands in front
of both, and no call has to give an argument behind one that it left out. -/
structure Script.ArrowMethod.Signature (m : ArrowMethod) (e : Endpoint) : Prop where
  names : m.params.map Param.name ∈ [[], [queryName], [dataName, validateName],
    [queryName, dataName, validateName]]
  query : m.HasParam queryName ↔
    (∃ p ∈ e.operation.parameters, p.location = .query ∨ p.location = .path) ∨
      ∃ name, name ∈ Path.placeholders e.path
  data : m.HasParam dataName ↔ e.operation.requestBody.isSome = true ∨
    ∃ p ∈ e.operation.parameters, p.location = .body ∨ p.location = .formData
  validate : m.HasParam validateName ↔ m.HasParam dataName
  optional : ∀ argument ∈ m.params, argument.name = queryName →
    ∃ fields, argument.type = some (.object fields) ∧
      (argument.optional = true ↔
        (∀ f ∈ fields, f.optional = true) ∧ ¬ m.HasParam dataName)
  ordered : m.params.Pairwise fun p q =>
    p.optional = true → q.optional = true ∨ q.defaultValue.isSome = true

namespace Operation

theorem mem_queryParameters_iff {op : Operation} {p : Parameter} :
    p ∈ op.queryParameters ↔ p ∈ op.parameters ∧ (p.location = .query ∨ p.location = .path) := by
  simp [queryParameters]

theorem sendsBody_iff {op : Operation} :
    op.sendsBody = true ↔ op.requestBody.isSome = true ∨
      ∃ p ∈ op.parameters, p.location = .body ∨ p.location = .formData := by
  simp [sendsBody]

end Operation

namespace Client

section Build

variable (config : Config) (name : String) (e : Endpoint) (result : Option String)
  (fields : List Field) (data : Option DataArgument)

theorem names_buildMethod :
    (buildMethod config name e result fields data).params.map Param.name ∈
      [[], [queryName], [dataName, validateName], [queryName, dataName, validateName]] := by
  rw [paramNames_buildMethod]
  cases data <;> split <;> simp

theorem ordered_buildMethod :
    (buildMethod config name e result fields data).params.Pairwise fun p q =>
      p.optional = true → q.optional = true ∨ q.defaultValue.isSome = true := by
  have hparams : (buildMethod config name e result fields data).params =
      (queryArgument fields data.isSome).toList ++ (data.map dataArguments).getD [] := rfl
  rw [hparams]
  cases data with
  | none => cases queryArgument fields none.isSome <;> simp
  | some d =>
    cases hquery : queryArgument fields (some d).isSome with
    | none => simp [dataArguments]
    | some argument =>
      have hoptional : argument.optional = false := by
        rw [(parts_of_queryArgument hquery).optional]
        simp
      simp [dataArguments, hoptional]

end Build

section Method

variable {config : Config} {controller name : String} {e : Endpoint}

theorem exists_field_iff {context : String} :
    (∃ f, f ∈ (argumentFields context e).value) ↔
      (∃ p ∈ e.operation.parameters, p.location = .query ∨ p.location = .path) ∨
        ∃ name, name ∈ Path.placeholders e.path := by
  constructor
  · rintro ⟨f, hf⟩
    rw [argumentFields_eq, List.mem_append, List.mem_map, List.mem_map] at hf
    rcases hf with ⟨p, hp, -⟩ | ⟨name, hname, -⟩
    · exact .inl ⟨p, Operation.mem_queryParameters_iff.1 (Parameter.mem_of_mem_firsts hp)⟩
    · exact .inr ⟨name, List.mem_of_mem_filter (List.mem_eraseDups.1 hname)⟩
  · rintro (⟨p, hp⟩ | ⟨name, hname⟩)
    · obtain ⟨first, hfirst⟩ : ∃ first,
          e.operation.queryParameters.find? (·.name == p.name) = some first :=
        Option.isSome_iff_exists.1 (List.find?_isSome.2
          ⟨p, Operation.mem_queryParameters_iff.2 hp, beq_self_eq_true _⟩)
      exact ⟨_, List.mem_of_find?_eq_some (find?_argumentFields hfirst)⟩
    · have hmem : name ∈ (argumentFields context e).value.map Field.name :=
        mem_names_argumentFields hname
      obtain ⟨f, hf, -⟩ := List.mem_map.1 hmem
      exact ⟨f, hf⟩

theorem isSome_bodyArgument (context : String) (op : Operation) :
    (bodyArgument config context op).isSome = op.sendsBody := by
  unfold bodyArgument
  cases op.sendsBody <;> rfl

/-- The signature of every method is well-formed, whatever the parameters of the operation and the
placeholders of its path. -/
theorem signature_makeMethod (config : Config) (controller name : String) (e : Endpoint) :
    (makeMethod config controller name e).value.Signature e := by
  have hdata : (makeMethod config controller name e).value.HasParam dataName ↔
      e.operation.sendsBody = true := by
    rw [makeMethod_value, hasParam_data_buildMethod, isSome_bodyArgument]
  constructor
  case names =>
    rw [makeMethod_value]
    exact names_buildMethod _ _ _ _ _ _
  case query =>
    rw [makeMethod_value, hasParam_query_buildMethod, isSome_queryArgument, Bool.not_eq_true',
      List.isEmpty_eq_false_iff_exists_mem]
    exact exists_field_iff
  case data => exact hdata.trans Operation.sendsBody_iff
  case validate =>
    rw [makeMethod_value, hasParam_validate_buildMethod, hasParam_data_buildMethod]
  case optional =>
    intro argument hargument hname
    have hparts := parts_of_queryArgument (mem_params_makeMethod_iff.1 ⟨hargument, hname⟩)
    refine ⟨_, hparts.type, ?_⟩
    rw [hparts.optional, hdata, Bool.and_eq_true, List.all_eq_true, Bool.not_eq_true',
      Bool.not_eq_true]
  case ordered =>
    rw [makeMethod_value]
    exact ordered_buildMethod _ _ _ _ _ _

end Method

end Client

end ClientGen
