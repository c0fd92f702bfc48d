import ClientGen.Proofs.Script.TypeReading
import ClientGen.Proofs.Text.Split
/-! Types up to what their texts do not tell apart: a union inside a union stands for its own
members, a union of one member for that member, and the comments of fields are no part of a
type. The text of a type is that of the members it comes down to, with bars between them. -/
namespace ClientGen.Script

open Text (isIdentifier joinWith)

namespace TypeTerm

/-- Names are identifiers, and nothing that needs an entry is empty. -/
inductive WellNamed : TypeTerm → Prop
  | named {name : String} (hname : isIdentifier name = true) : WellNamed (.named name)
  | generic {name : String} {arguments : List TypeTerm} (hname : isIdentifier name = true)
      (hne : arguments ≠ []) (harguments : ∀ t ∈ arguments, WellNamed t) :
      WellNamed (.generic name arguments)
  | array {item : TypeTerm} (hitem : WellNamed item) : WellNamed (.array item)
  | union {members : List TypeTerm} (hne : members ≠ [])
      (hmembers : ∀ t ∈ members, WellNamed t) : WellNamed (.union members)
  | literal (value : String) : WellNamed (.literal value)
  | object {fields : List Field} (hfields : ∀ f ∈ fields, WellNamed f.type) :
      WellNamed (.object fields)
  | typeOf {names : List String} (hne : names ≠ [])
      (hnames : ∀ name ∈ names, isIdentifier name = true) :
      WellNamed (.typeOf (joinWith "." names))

def alternatives : TypeTerm → List TypeTerm
  | .union members => members
  | t => [t]

def ofAlternatives : List TypeTerm → TypeTerm
  | [t] => t
  | ts => .union ts

theorem alternatives_of_isUnion_eq_false {t : TypeTerm} (h : t.isUnion = false) :
    t.alternatives = [t] := by
  cases t <;> first | rfl | cases h

theorem alternatives_ofAlternatives {ts : List TypeTerm} (h : ∀ t ∈ ts, t.isUnion = false) :
    (ofAlternatives ts).alternatives = ts := by
  match ts, h with
  | [], _ => rfl
  | [t], h => exact alternatives_of_isUnion_eq_false (h t (List.mem_singleton_self t))
  | _ :: _ :: _, _ => rfl

end TypeTerm

mutual

/-- Unions are flattened, and unions of one member unwrapped; fields have no comments. -/
def TypeTerm.plain : TypeTerm → TypeTerm
  | .named name => .named name
  | .generic name arguments => .generic name (plainTypes arguments)
  | .array item => .array item.plain
  | .union members => .ofAlternatives (plainAlternatives members)
  | .literal value => .literal value
  | .object fields => .object (plainFields fields)
  | .typeOf expression => .typeOf expression

def plainTypes : List TypeTerm → List TypeTerm
  | [] => []
  | t :: ts => t.plain :: plainTypes ts

def plainAlternatives : List TypeTerm → List TypeTerm
  | [] => []
  | t :: ts => t.plain.alternatives ++ plainAlternatives ts

def Field.plain : Field → Field
  | ⟨name, type, optional, _⟩ => ⟨name, type.plain, optional, []⟩

def plainFields : List Field → List Field
  | [] => []
  | f :: fs => f.plain :: plainFields fs

end

theorem plainTypes_eq_map (ts : List TypeTerm) : plainTypes ts = ts.map (·.plain) := by
  induction ts with
  | nil => rfl
  | cons t ts ih => rw [plainTypes, ih, List.map_cons]

theorem plainAlternatives_eq_flatMap (ts : List TypeTerm) :
    plainAlternatives ts = ts.flatMap (·.plain.alternatives) := by
  induction ts with
  | nil => rfl
  | cons t ts ih => rw [plainAlternatives, ih, List.flatMap_cons]

theorem plainFields_eq_map (fs : List Field) : plainFields fs = fs.map (·.plain) := by
  induction fs with
  | nil => rfl
  | cons f fs ih => rw [plainFields, ih, List.map_cons]

namespace TypeTerm

mutual

/-- The members of a union, and those of the unions among them; of any other type, itself. -/
def leaves : TypeTerm → List TypeTerm
  | .union members => leavesOf members
  | t => [t]

def leavesOf : List TypeTerm → List TypeTerm
  | [] => []
  | t :: ts => t.leaves ++ leavesOf ts

end

theorem leavesOf_eq_flatMap (ts : List TypeTerm) : leavesOf ts = ts.flatMap leaves := by
  induction ts with
  | nil => rfl
  | cons t ts ih => rw [leavesOf, ih, List.flatMap_cons]

theorem leaves_union (members : List TypeTerm) :
    (union members).leaves = members.flatMap leaves := leavesOf_eq_flatMap members

theorem isUnion_plain {t : TypeTerm} (h : t.isUnion = false) : t.plain.isUnion = false := by
  cases t <;> first | rfl | cases h

namespace WellNamed

variable {t : TypeTerm}

theorem alike (ht : t.WellNamed) : t.Alike t := by
  induction ht with
  | named hname => exact .named (.of_isIdentifier hname)
  | generic hname _ _ ih => exact .generic (.of_isIdentifier hname) (List.forall₂_same.2 ih)
  | array _ ih => exact .array ih
  | union _ _ ih => exact .union (List.forall₂_same.2 ih)
  | literal value => exact .literal value
  | object _ ih => exact .object (List.forall₂_same.2 fun f hf => ⟨rfl, rfl, ih f hf, rfl⟩)
  | typeOf _ hnames =>
    refine .typeOf fun c hc => ?_
    rcases Text.mem_joinWith hc with hdot | ⟨name, hname, hc⟩
    · rw [List.mem_singleton.1 hdot]
      decide
    · exact Ordinary.of_isIdentifier (hnames name hname) c hc

theorem leaves_ne_nil (ht : t.WellNamed) : t.leaves ≠ [] := by
  induction ht with
  | @union members hne _ ih =>
    obtain ⟨u, us, rfl⟩ := List.exists_cons_of_ne_nil hne
    rw [leaves_union, List.flatMap_cons]
    exact List.append_ne_nil_of_left_ne_nil (ih u List.mem_cons_self) _
  | _ => exact List.cons_ne_nil _ _

theorem of_mem_leaves (ht : t.WellNamed) {l : TypeTerm} (hl : l ∈ t.leaves) :
    l.WellNamed ∧ l.isUnion = false := by
  induction ht with
  | union _ _ ih =>
    rw [leaves_union] at hl
    obtain ⟨u, hu, hl⟩ := List.mem_flatMap.1 hl
    exact ih u hu hl
  | _ =>
    rw [List.mem_singleton.1 hl]
    exact ⟨by constructor <;> assumption, rfl⟩

theorem text_eq (ht : t.WellNamed) (indentation : String) :
    t.text indentation = joinWith " | " (t.leaves.map (·.text indentation)) := by
  induction ht with
  | @union members _ hmembers ih =>
    rw [text_union, typeTexts_eq_map, leaves_union, List.map_flatMap,
      ← Text.joinWith_map_joinWith fun u hu => ?_]
    · exact congrArg _ (List.map_congr_left ih)
    · exact mt List.map_eq_nil_iff.1 (hmembers u hu).leaves_ne_nil
  | _ => rfl

theorem plain_eq (ht : t.WellNamed) : t.plain = ofAlternatives (t.leaves.map plain) := by
  induction ht with
  | @union members _ hmembers ih =>
    rw [plain, plainAlternatives_eq_flatMap, leaves_union, List.map_flatMap]
    refine congrArg _ (List.flatMap_congr fun u hu => ?_)
    rw [ih u hu, alternatives_ofAlternatives]
    intro p hp
    obtain ⟨l, hl, rfl⟩ := List.mem_map.1 hp
    exact isUnion_plain ((hmembers u hu).of_mem_leaves hl).2
  | _ => rfl

end WellNamed

end TypeTerm

end ClientGen.Script
