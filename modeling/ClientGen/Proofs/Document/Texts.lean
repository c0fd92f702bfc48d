import ClientGen.Document.Basic
import ClientGen.Endpoint.Grouping
import ClientGen.Proofs.Table

namespace ClientGen

/-- Whether there is a description still shows. -/
def Parameter.withoutTexts (p : Parameter) : Parameter :=
  { p with description := p.description.map fun _ => "" }

def Operation.withoutTexts (op : Operation) : Operation :=
  { op with
    summary := none
    description := none
    parameters := op.parameters.map Parameter.withoutTexts }

def PathItem.withoutTexts (item : PathItem) : PathItem :=
  { item with operations := item.operations.map fun q => (q.1, q.2.withoutTexts) }

/-- Without the title, the version, the summaries, and the descriptions of operations and
parameters. -/
def ApiDocument.withoutTexts (doc : ApiDocument) : ApiDocument :=
  { info := none, paths := doc.paths.map fun p => (p.1, p.2.withoutTexts) }

namespace Operation

theorem sendsBody_withoutTexts (op : Operation) : op.withoutTexts.sendsBody = op.sendsBody := by
  simp [sendsBody, withoutTexts, Parameter.withoutTexts, List.any_map, Function.comp_def]

theorem payloadSchema_withoutTexts (op : Operation) :
    op.withoutTexts.payloadSchema = op.payloadSchema := by
  unfold payloadSchema
  cases hbody : op.requestBody with
  | some body => simp [withoutTexts, hbody]
  | none =>
    simp only [withoutTexts, hbody, List.find?_map]
    cases hfind : op.parameters.find? (·.location == .body) <;>
      simp [Function.comp_def, Parameter.withoutTexts, hfind]

theorem filter_parameters_withoutTexts (op : Operation) (keep : Parameter → Bool)
    (h : ∀ p, keep p.withoutTexts = keep p) :
    op.withoutTexts.parameters.filter keep =
      (op.parameters.filter keep).map Parameter.withoutTexts := by
  simp [withoutTexts, List.filter_map, Function.comp_def, h]

theorem queryParameters_withoutTexts (op : Operation) :
    op.withoutTexts.queryParameters = op.queryParameters.map Parameter.withoutTexts :=
  filter_parameters_withoutTexts op _ fun _ => rfl

end Operation

def Endpoint.withoutTexts (e : Endpoint) : Endpoint :=
  { e with operation := e.operation.withoutTexts }

namespace Groups

def withoutTexts (g : Groups) : Groups :=
  ⟨g.controllers.mapValues (Table.mapValues Endpoint.withoutTexts)⟩

theorem methods_withoutTexts (g : Groups) (controller : String) :
    g.withoutTexts.methods controller =
      (g.methods controller).mapValues Endpoint.withoutTexts := by
  unfold methods withoutTexts
  rw [Table.get?_mapValues]
  cases g.controllers.get? controller <;> rfl

theorem storedName_withoutTexts (g : Groups) (controller method : String) :
    g.withoutTexts.storedName controller method = g.storedName controller method := by
  unfold storedName
  rw [methods_withoutTexts, Table.keys_mapValues]

theorem insert_withoutTexts (g : Groups) (controller method : String) (e : Endpoint) :
    g.withoutTexts.insert controller method e.withoutTexts =
      (g.insert controller method e).withoutTexts := by
  unfold insert
  rw [storedName_withoutTexts, methods_withoutTexts, Table.put_mapValues]
  exact congrArg Groups.mk (Table.put_mapValues _ _ _ _)

end Groups

def Entry.withoutTexts : Entry → Entry
  | .unsupported path verb => .unsupported path verb
  | .operation e => .operation e.withoutTexts

namespace Grouping

def withoutTexts (g : Grouping) : Grouping := { g with groups := g.groups.withoutTexts }

theorem add_withoutTexts (separator : String) (g : Grouping) (entry : Entry) :
    g.withoutTexts.add separator entry.withoutTexts = (g.add separator entry).withoutTexts := by
  cases entry with
  | unsupported path verb => rfl
  | operation e =>
    have hnames : e.withoutTexts.operation.names? separator = e.operation.names? separator := rfl
    simp only [Entry.withoutTexts, add]
    rw [hnames]
    cases e.operation.names? separator with
    | none => rfl
    | some names =>
      obtain ⟨controller, method⟩ := names
      simp only [withoutTexts, Groups.storedName_withoutTexts, Groups.insert_withoutTexts]
      split <;> rfl

theorem foldl_add_withoutTexts (separator : String) (g : Grouping) (entries : List Entry) :
    (entries.map Entry.withoutTexts).foldl (add separator) g.withoutTexts =
      (entries.foldl (add separator) g).withoutTexts := by
  induction entries generalizing g with
  | nil => rfl
  | cons entry entries ih =>
    rw [List.map_cons, List.foldl_cons, List.foldl_cons, add_withoutTexts, ih]

end Grouping

namespace ApiDocument

theorem entries_withoutTexts (doc : ApiDocument) :
    doc.withoutTexts.entries = doc.entries.map Entry.withoutTexts := by
  simp [entries, withoutTexts, List.flatMap_map, List.map_flatMap, PathItem.entries,
    PathItem.withoutTexts, Entry.withoutTexts, Endpoint.withoutTexts, Function.comp_def]

/-- Texts decide neither what is sorted where nor what is reported. -/
theorem group_withoutTexts (doc : ApiDocument) (config : Config) :
    doc.withoutTexts.group config = (doc.group config).withoutTexts := by
  unfold group
  rw [entries_withoutTexts]
  exact Grouping.foldl_add_withoutTexts _ {} _

end ApiDocument

end ClientGen
