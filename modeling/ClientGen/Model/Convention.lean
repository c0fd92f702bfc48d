import ClientGen.Text.Name
import ClientGen.Text.Lines
import ClientGen.Config
/-! Which model a reference names, and which module exports it, told from the model's name.

| name                         | module                     |
|------------------------------|----------------------------|
| ends with the suffix         | the shared module          |
| has the suffix further ahead | the module of its entity   |
| neither                      | none, it is not imported   |
-/
namespace ClientGen.Model

/-- The model a reference names: what stands behind its last slash, if that is an
identifier. -/
def ofReference (reference : String) : Option String := do
  let (_, segment) ← Text.cutLast '/' reference.toList
  let name := String.ofList segment
  if Text.isIdentifier name then some name else none

theorem ofReference_eq_some {reference name : String} (h : ofReference reference = some name) :
    Text.isIdentifier name = true ∧ ∃ path, reference.toList = path ++ '/' :: name.toList := by
  unfold ofReference at h
  cases hc : Text.cutLast '/' reference.toList with
  | none => simp [hc] at h
  | some p =>
    obtain ⟨l, r⟩ := p
    simp only [hc, Option.bind_eq_bind, Option.bind_some] at h
    split at h
    · next hi =>
      cases h
      exact ⟨hi, l, by simpa using Text.append_of_cutLast hc⟩
    · cases h

end ClientGen.Model

namespace ClientGen

structure ModelExport where
  model : String
  module : String
  /-- Exported by the same module. -/
  validator : Option String
deriving DecidableEq, Repr

namespace Convention

def validator (c : Convention) (entity rest : List Char) : Option String :=
  if c.validatorSuffix.isEmpty then none
  else some (String.ofList (entity ++ c.validatorSuffix.toList ++ rest))

/-- A suffix at the end wins over one further ahead; of those the first counts, and an
entity must stand before it. -/
def exportOf? (c : Convention) (model : String) : Option ModelExport :=
  let suffix := c.valueObjectSuffix.toList
  let name := model.toList
  if suffix.isEmpty || name.isEmpty then none
  else
    match Text.withoutSuffix suffix name with
    | some entity => some ⟨model, c.sharedModule, c.validator entity []⟩
    | none =>
      match Text.cutFirst suffix name with
      | some (e :: entity, rest) =>
        some ⟨model, c.extensionModulePrefix ++ String.ofList (e :: entity),
          c.validator (e :: entity) rest⟩
      | _ => none

theorem model_of_exportOf? {c : Convention} {model : String} {i : ModelExport}
    (h : c.exportOf? model = some i) : i.model = model := by
  simp only [exportOf?] at h
  split at h
  · cases h
  · split at h
    · cases h; rfl
    · split at h
      · cases h; rfl
      · cases h

theorem cut_of_exportOf? {c : Convention} {model : String} {i : ModelExport}
    (h : c.exportOf? model = some i) :
    ∃ entity rest, model.toList = entity ++ c.valueObjectSuffix.toList ++ rest ∧
      i.validator = c.validator entity rest := by
  simp only [exportOf?] at h
  split at h
  · cases h
  · split at h
    · next entity he =>
      cases h
      exact ⟨entity, [], by simpa using Text.append_of_withoutSuffix he, rfl⟩
    · split at h
      · next e entity rest he =>
        cases h
        exact ⟨e :: entity, rest, Text.append_of_cutFirst he, rfl⟩
      · cases h

end Convention

end ClientGen
