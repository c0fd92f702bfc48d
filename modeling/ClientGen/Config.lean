import ClientGen.Text.Name

namespace ClientGen

/-- What becomes of an operation whose id cannot be split: left out, or the run fails once
the whole document has been looked at. -/
inductive InvalidIdPolicy
  | skip
  | abort
deriving DecidableEq, Repr

/-- How the name of a model tells the module that exports it and the name of its validator. -/
structure Convention where
  valueObjectSuffix : String := "Dto"
  /-- Stands in the place of that suffix in the name of a validator; empty for none. -/
  validatorSuffix : String := "Zod"
  sharedModule : String := "./zod"
  /-- In front of the entity's name it gives the module of its extended value objects. -/
  extensionModulePrefix : String := "./zodExt/"
deriving DecidableEq, Repr

structure Config where
  clientName : String := "NestSDK"
  baseClassName : String := "Request"
  operationIdSeparator : String := "_"
  onInvalidOperationId : InvalidIdPolicy := .skip
  missingDescription : String := "No description provided"
  models : Convention := {}
deriving DecidableEq, Repr

inductive ConfigError
  | clientName (name : String)
  | baseClassName (name : String)
  | sameClassName (name : String)
  | emptySeparator
  | valueObjectSuffix (suffix : String)
  | validatorSuffix (suffix : String)
  | emptySharedModule
deriving DecidableEq, Repr

namespace ConfigError

def describe : ConfigError → String
  | clientName name => "client_name '" ++ name ++ "' is not a valid identifier"
  | baseClassName name => "base_class_name '" ++ name ++ "' is not a valid identifier"
  | sameClassName name => "client_name and base_class_name must differ (both '" ++ name ++ "')"
  | emptySeparator => "operation_id_separator cannot be empty"
  | valueObjectSuffix suffix =>
    "models.value_object_suffix '" ++ suffix ++ "' must be a non-empty identifier"
  | validatorSuffix suffix =>
    "models.validator_suffix '" ++ suffix ++ "' is not a valid identifier"
  | emptySharedModule => "models.shared_module cannot be empty"

def message (e : ConfigError) : String := "Invalid configuration: " ++ e.describe

end ConfigError

open Text (isIdentifier)

def Config.validate (c : Config) : Except ConfigError Unit :=
  if !isIdentifier c.clientName then .error (.clientName c.clientName)
  else if !isIdentifier c.baseClassName then .error (.baseClassName c.baseClassName)
  else if c.clientName = c.baseClassName then .error (.sameClassName c.clientName)
  else if c.operationIdSeparator.isEmpty then .error .emptySeparator
  else if !isIdentifier c.models.valueObjectSuffix then
    .error (.valueObjectSuffix c.models.valueObjectSuffix)
  else if !c.models.validatorSuffix.isEmpty && !isIdentifier c.models.validatorSuffix then
    .error (.validatorSuffix c.models.validatorSuffix)
  else if c.models.sharedModule.isEmpty then .error .emptySharedModule
  else .ok ()

theorem Config.validate_default : ({} : Config).validate = .ok () := rfl

structure Config.Accepted (c : Config) : Prop where
  clientName : isIdentifier c.clientName = true
  baseClassName : isIdentifier c.baseClassName = true
  clientName_ne : c.clientName ≠ c.baseClassName
  separator : c.operationIdSeparator.isEmpty = false
  valueObjectSuffix : isIdentifier c.models.valueObjectSuffix = true
  /-- Without a suffix there are no validators. -/
  validatorSuffix : c.models.validatorSuffix.isEmpty = true ∨
    isIdentifier c.models.validatorSuffix = true
  sharedModule : c.models.sharedModule.isEmpty = false

theorem Config.Accepted.separator_ne {c : Config} (h : c.Accepted) :
    c.operationIdSeparator ≠ "" := by
  intro hempty
  simpa [hempty] using h.separator

theorem ite_error_eq_ok_iff {ε α : Type} {p : Prop} [Decidable p] {e : ε} {x : Except ε α} {a : α} :
    (if p then .error e else x) = .ok a ↔ ¬ p ∧ x = .ok a := by
  by_cases h : p <;> simp [h]

theorem Config.validate_eq_ok_iff {c : Config} : c.validate = .ok () ↔ c.Accepted := by
  have hvalidator :
      ¬ (!c.models.validatorSuffix.isEmpty && !isIdentifier c.models.validatorSuffix) = true ↔
        c.models.validatorSuffix.isEmpty = true ∨
          isIdentifier c.models.validatorSuffix = true := by
    cases c.models.validatorSuffix.isEmpty <;> simp
  simp only [validate, ite_error_eq_ok_iff, hvalidator, Bool.not_eq_true', Bool.not_eq_false,
    Bool.not_eq_true, and_true]
  constructor
  · rintro ⟨hclient, hbase, hne, hseparator, hsuffix, hvalidatorSuffix, hmodule⟩
    exact ⟨hclient, hbase, hne, hseparator, hsuffix, hvalidatorSuffix, hmodule⟩
  · intro h
    exact ⟨h.clientName, h.baseClassName, h.clientName_ne, h.separator, h.valueObjectSuffix,
      h.validatorSuffix, h.sharedModule⟩

end ClientGen
