import ClientGen.Endpoint.Grouping
import Mathlib.Data.List.Basic

namespace ClientGen

theorem halvesOfId_eq_some {separator id controller method : String}
    (h : halvesOfId separator id = some (controller, method)) :
    Text.isIdentifier controller = true ∧ Text.isIdentifier method = true ∧
      id = controller ++ separator ++ method := by
  unfold halvesOfId at h
  obtain ⟨⟨l, r⟩, hcut, h⟩ := Option.bind_eq_some_iff.1 h
  dsimp only at h
  split at h
  · next hi =>
    cases h
    obtain ⟨hl, hr⟩ := (Bool.and_eq_true _ _).mp hi
    refine ⟨hl, hr, String.toList_inj.1 ?_⟩
    simpa [String.toList_append] using Text.append_of_cutFirst hcut
  · cases h

theorem Operation.names?_eq_some_iff {separator controller method : String} {op : Operation} :
    op.names? separator = some (controller, method) ↔
      ∃ id, op.operationId = some id ∧ halvesOfId separator id = some (controller, method) ∧
        controller ∉ Client.takenMembers := by
  constructor
  · intro h
    obtain ⟨id, hid, h⟩ := Option.bind_eq_some_iff.1 h
    obtain ⟨⟨c, m⟩, hhalves, h⟩ := Option.bind_eq_some_iff.1 h
    dsimp only at h
    split at h
    · cases h
    · next hc =>
      cases h
      exact ⟨id, hid, hhalves, hc⟩
  · rintro ⟨id, hid, hhalves, hc⟩
    simp [names?, hid, hhalves, hc]

def ApiDocument.endpoints (doc : ApiDocument) : List Endpoint :=
  doc.paths.flatMap fun p => p.2.operations.map fun q => ⟨q.1, p.1, q.2⟩

theorem ApiDocument.length_endpoints (doc : ApiDocument) :
    doc.endpoints.length = doc.operationCount := by
  simp [endpoints, operationCount, List.length_flatMap]

namespace Endpoint

/-- The controller an operation asks for, if a method is made for it. -/
def controller? (separator : String) (e : Endpoint) : Option String :=
  (e.operation.names? separator).map Prod.fst

theorem isIdentifier_of_controller? {separator c : String} {e : Endpoint}
    (h : e.controller? separator = some c) : Text.isIdentifier c = true := by
  obtain ⟨⟨controller, method⟩, hnames, rfl⟩ := Option.map_eq_some_iff.1 h
  obtain ⟨_, _, hhalves, _⟩ := Operation.names?_eq_some_iff.1 hnames
  exact (halvesOfId_eq_some hhalves).1

def rejection (e : Endpoint) : Diagnostic :=
  .invalidOperationId e.path e.verb e.operation.operationId

end Endpoint

namespace ApiDocument

variable (doc : ApiDocument) (separator : String)

/-- The operations that methods are made for. -/
def accepted : List Endpoint :=
  doc.endpoints.filter fun e => (e.controller? separator).isSome

def rejected : List Endpoint :=
  doc.endpoints.filter fun e => !(e.controller? separator).isSome

theorem filterMap_accepted :
    (doc.accepted separator).filterMap (·.controller? separator) =
      doc.endpoints.filterMap (·.controller? separator) := by
  unfold accepted
  induction doc.endpoints with
  | nil => rfl
  | cons e es ih => cases he : e.controller? separator <;> simp [he, ih]

theorem filter_accepted (c : String) :
    (doc.accepted separator).filter (·.controller? separator == some c) =
      doc.endpoints.filter (·.controller? separator == some c) := by
  unfold accepted
  rw [List.filter_filter]
  apply List.filter_congr
  intro e _
  cases e.controller? separator <;> simp

theorem length_accepted_add_rejected :
    (doc.accepted separator).length + (doc.rejected separator).length = doc.operationCount := by
  rw [← length_endpoints]
  exact (List.length_eq_length_filter_add _).symm

end ApiDocument

def Entry.endpoint? : Entry → Option Endpoint
  | .unsupported _ _ => none
  | .operation e => some e

theorem ApiDocument.filterMap_entries (doc : ApiDocument) :
    doc.entries.filterMap Entry.endpoint? = doc.endpoints := by
  unfold entries endpoints
  rw [List.filterMap_flatMap]
  congr 1
  funext p
  simp [PathItem.entries, Entry.endpoint?, List.filterMap_append, List.filterMap_map,
    Function.comp_def]

end ClientGen
