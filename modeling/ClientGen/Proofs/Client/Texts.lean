import ClientGen.Client.Generate
import ClientGen.Proofs.Document.Texts

namespace ClientGen

/-- Whether there are comments decides the layout of a type. -/
def Script.Field.withoutTexts (f : Script.Field) : Script.Field :=
  { f with docs := f.docs.map fun _ => "" }

namespace Client

open Script

def Made.map {α β : Type} (f : α → β) (m : Made α) : Made β :=
  { value := f m.value, imports := m.imports, diagnostics := m.diagnostics }

theorem declaredField_withoutTexts (p : Parameter) :
    declaredField p.withoutTexts = (declaredField p).withoutTexts := by
  unfold declaredField Field.withoutTexts Parameter.withoutTexts
  cases p.description <;> rfl

theorem hasField_map_withoutTexts (acc : Made (List Field)) (name : String) :
    hasField (acc.map (List.map Field.withoutTexts)).value name = hasField acc.value name := by
  simp [hasField, Made.map, List.any_map, Function.comp_def, Field.withoutTexts]

theorem declaredFields_withoutTexts (context : String) (acc : Made (List Field))
    (ps : List Parameter) :
    declaredFields context (acc.map (List.map Field.withoutTexts))
        (ps.map Parameter.withoutTexts) =
      (declaredFields context acc ps).map (List.map Field.withoutTexts) := by
  induction ps generalizing acc with
  | nil => rfl
  | cons p ps ih =>
    have hname : p.withoutTexts.name = p.name := rfl
    rw [List.map_cons, declaredFields, declaredFields, hname, hasField_map_withoutTexts]
    split
    · exact ih { acc with diagnostics := acc.diagnostics ++ [skipped context p] }
    · rw [← ih, declaredField_withoutTexts]
      simp [Made.map]

theorem placeholderFields_withoutTexts (path : String) (acc : Made (List Field))
    (names : List String) :
    placeholderFields path (acc.map (List.map Field.withoutTexts)) names =
      (placeholderFields path acc names).map (List.map Field.withoutTexts) := by
  induction names generalizing acc with
  | nil => rfl
  | cons name names ih =>
    have hfield : (placeholderField name).withoutTexts = placeholderField name := rfl
    rw [placeholderFields, placeholderFields, hasField_map_withoutTexts]
    split
    · exact ih acc
    · rw [← ih]
      simp [Made.map, hfield]

theorem argumentFields_withoutTexts (context : String) (e : Endpoint) :
    argumentFields context e.withoutTexts =
      (argumentFields context e).map (List.map Field.withoutTexts) := by
  have hhidden := e.operation.filter_parameters_withoutTexts
    (fun p => p.location == .header || p.location == .cookie) fun _ => rfl
  have hquery := e.operation.queryParameters_withoutTexts
  unfold argumentFields
  simp only [Endpoint.withoutTexts] at hhidden hquery ⊢
  rw [hhidden, hquery, List.map_map, ← placeholderFields_withoutTexts,
    ← declaredFields_withoutTexts]
  rfl

theorem dataArgument_withoutTexts (config : Config) (context : String) (op : Operation) :
    dataArgument config context op.withoutTexts = dataArgument config context op := by
  unfold dataArgument
  rw [op.payloadSchema_withoutTexts]

theorem makeMethod_imports_withoutTexts (config : Config) (controller name : String)
    (e : Endpoint) :
    (makeMethod config controller name e.withoutTexts).imports =
      (makeMethod config controller name e).imports := by
  have hsends : e.withoutTexts.operation.sendsBody = e.operation.sendsBody :=
    e.operation.sendsBody_withoutTexts
  unfold makeMethod
  rw [hsends]
  simp only [Endpoint.withoutTexts, dataArgument_withoutTexts]
  rfl

theorem makeMethod_diagnostics_withoutTexts (config : Config) (controller name : String)
    (e : Endpoint) :
    (makeMethod config controller name e.withoutTexts).diagnostics =
      (makeMethod config controller name e).diagnostics := by
  have hsends : e.withoutTexts.operation.sendsBody = e.operation.sendsBody :=
    e.operation.sendsBody_withoutTexts
  unfold makeMethod
  rw [hsends]
  simp only [argumentFields_withoutTexts]
  simp only [Endpoint.withoutTexts, dataArgument_withoutTexts]
  rfl

theorem makeController_imports_withoutTexts (config : Config) (name : String)
    (methods : Table Endpoint) :
    (makeController config name (methods.mapValues Endpoint.withoutTexts)).imports =
      (makeController config name methods).imports := by
  simp [makeController, Table.mapValues, List.flatMap_map, makeMethod_imports_withoutTexts]

theorem makeController_diagnostics_withoutTexts (config : Config) (name : String)
    (methods : Table Endpoint) :
    (makeController config name (methods.mapValues Endpoint.withoutTexts)).diagnostics =
      (makeController config name methods).diagnostics := by
  simp [makeController, Table.mapValues, List.flatMap_map, makeMethod_diagnostics_withoutTexts]

end Client

namespace ApiDocument

theorem clientParts_imports_withoutTexts (doc : ApiDocument) (config : Config) :
    (doc.withoutTexts.clientParts config).imports = (doc.clientParts config).imports := by
  simp only [clientParts, group_withoutTexts, Grouping.withoutTexts, Groups.makeControllers,
    Groups.withoutTexts, Table.map_mapValues, List.flatMap_map,
    Client.makeController_imports_withoutTexts]

theorem clientParts_diagnostics_withoutTexts (doc : ApiDocument) (config : Config) :
    (doc.withoutTexts.clientParts config).diagnostics = (doc.clientParts config).diagnostics := by
  simp only [clientParts, group_withoutTexts, Grouping.withoutTexts, Groups.makeControllers,
    Groups.withoutTexts, Table.map_mapValues, List.flatMap_map,
    Client.makeController_diagnostics_withoutTexts]

end ApiDocument

end ClientGen
