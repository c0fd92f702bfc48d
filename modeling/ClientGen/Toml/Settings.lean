import ClientGen.Config
import ClientGen.Toml.Reader

namespace ClientGen

open Toml (Value)

inductive SettingsError
  /-- No TOML, an unknown setting, or one of another type. -/
  | unreadable
  | invalid (cause : ConfigError)
deriving DecidableEq, Repr

def SettingsError.message : SettingsError → String
  | unreadable => "Failed to parse configuration: unknown or malformed setting"
  | invalid cause => cause.message

namespace InvalidIdPolicy

def ofName? : String → Option InvalidIdPolicy
  | "skip" => some .skip
  | "abort" => some .abort
  | _ => none

/-- A name, or a table with an empty value under that name alone. -/
def ofValue? : Value → Option InvalidIdPolicy
  | .text name => ofName? name
  | .table [(name, .table [])] => ofName? name
  | .table [(name, .list [])] => ofName? name
  | _ => none

end InvalidIdPolicy

namespace Convention

def set? (c : Convention) (key : String) (v : Value) : Option Convention :=
  match key, v with
  | "value_object_suffix", .text s => some { c with valueObjectSuffix := s }
  | "validator_suffix", .text s => some { c with validatorSuffix := s }
  | "shared_module", .text s => some { c with sharedModule := s }
  | "extension_module_prefix", .text s => some { c with extensionModulePrefix := s }
  | _, _ => none

def fields : List String :=
  ["value_object_suffix", "validator_suffix", "shared_module", "extension_module_prefix"]

/-- A table, or a list of the settings in order; what a list has beyond them is ignored. -/
def ofValue? : Value → Option Convention
  | .table entries => entries.foldlM (fun c p => c.set? p.1 p.2) {}
  | .list items => (fields.zip items).foldlM (fun c p => c.set? p.1 p.2) {}
  | _ => none

end Convention

namespace Config

def set? (c : Config) (key : String) (v : Value) : Option Config :=
  match key, v with
  | "client_name", .text s => some { c with clientName := s }
  | "base_class_name", .text s => some { c with baseClassName := s }
  | "operation_id_separator", .text s => some { c with operationIdSeparator := s }
  | "on_invalid_operation_id", v =>
    (InvalidIdPolicy.ofValue? v).map fun p => { c with onInvalidOperationId := p }
  | "missing_description", .text s => some { c with missingDescription := s }
  | "models", v => (Convention.ofValue? v).map fun m => { c with models := m }
  | _, _ => none

def ofSettings? (entries : List (String × Value)) : Option Config :=
  entries.foldlM (fun c p => c.set? p.1 p.2) {}

def ofToml (text : String) : Except SettingsError Config := do
  match (Toml.ofText text).bind ofSettings? with
  | none => .error .unreadable
  | some config =>
    config.validate.mapError .invalid
    return config

end Config

end ClientGen
