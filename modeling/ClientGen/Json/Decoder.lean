import ClientGen.Json.Problem
import ClientGen.Json.Reader
/-! Decoders: from a draft to a value of some type, or the first problem in the order of the
text. The same decoder serves a text and a finished value; the two differ in what an array
with too many items and a choice written as an object say. -/
namespace ClientGen

variable {ε δ α β : Type}

theorem ok_bind {a : α} {f : α → Except ε β} : (Except.ok a >>= f) = f a := rfl

theorem bind_eq_ok_iff {x : Except ε α} {f : α → Except ε β} {b : β} :
    x >>= f = .ok b ↔ ∃ a, x = .ok a ∧ f a = .ok b := by
  cases x with
  | error e => simp [bind, Except.bind]
  | ok a => simp [bind, Except.bind]

theorem map_eq_ok_iff {f : α → β} {x : Except ε α} {b : β} :
    x.map f = .ok b ↔ ∃ a, x = .ok a ∧ f a = b := by
  cases x <;> simp [Except.map]

theorem mapError_eq_ok_iff {f : ε → δ} {x : Except ε α} {a : α} :
    x.mapError f = .ok a ↔ x = .ok a := by
  cases x with
  | error e => exact ⟨nofun, nofun⟩
  | ok b =>
    constructor <;>
    · intro h
      cases h
      rfl

end ClientGen

namespace ClientGen.Json

inductive Origin
  | text
  | value
deriving DecidableEq, Repr

/-- `room` is how many more arrays and objects may stand inside each other. -/
abbrev Decoder (α : Type) := Origin → (room : Nat) → Draft → Except Problem α

def textRoom : Nat := 127

namespace Decoder

def text : Decoder String := fun _ _ d =>
  match d with
  | .text s => .ok s
  | d => .error (d.mismatch .string)

def flag : Decoder Bool := fun _ _ d =>
  match d with
  | .bool b => .ok b
  | d => .error (d.mismatch .boolean)

def unit : Decoder Unit := fun _ _ d =>
  match d with
  | .null => .ok ()
  | d => .error (d.mismatch .unit)

def json : Decoder Json := fun _ room d =>
  (d.value room).mapError .text

def optional (f : Decoder α) : Decoder (Option α) := fun origin room d =>
  match d with
  | .null => .ok none
  | d => (f origin room d).map some

end Decoder

def Items.decode (f : Draft → Except Problem α) : Items → Except Problem (List α)
  | .closed => .ok []
  | .cut fault => .error (.text fault)
  | .cons item rest => do
    let a ← f item
    let as ← rest.decode f
    return a :: as

def Members.decode (f : Draft → Except Problem α) (seen : Table α) :
    Members → Except Problem (Table α)
  | .closed => .ok seen
  | .cut fault => .error (.text fault)
  | .entry (.error flaw) _ _ => .error (.text flaw.wanted)
  | .entry (.ok key) value rest => do
    let a ← f value
    rest.decode f (seen.put key a)

namespace Decoder

def list (f : Decoder α) : Decoder (List α) := fun origin room d =>
  match d, room with
  | .list _, 0 => .error (.text .malformed)
  | .list items, room + 1 => items.decode (f origin room)
  | d, _ => .error (d.mismatch .sequence)

/-- Of two members with one name the last counts, in the place of the first. -/
def table (f : Decoder α) : Decoder (Table α) := fun origin room d =>
  match d, room with
  | .object _, 0 => .error (.text .malformed)
  | .object members, room + 1 => members.decode (f origin room) []
  | d, _ => .error (d.mismatch .map)

end Decoder

/-- What a choice written as an object names; its only member must be `null`. A text is
judged as it is read, a finished value once the number of its members is known. -/
def Members.choice (known : Table α) (origin : Origin) (room : Nat) :
    Members → Except Problem α
  | .closed =>
    .error (match origin with
      | .text => .text .malformed
      | .value => .shape .notOneMember)
  | .cut fault => .error (.text fault)
  | .entry (.error flaw) _ _ => .error (.text flaw.wanted)
  | .entry (.ok key) value rest =>
    match origin, rest, known.get? key with
    | .value, .entry .., _ => .error (.shape .notOneMember)
    | _, _, none => .error (.shape (.unknownChoice key known.keys))
    | _, rest, some a => do
      Decoder.unit origin room value
      match rest with
      | .closed => return a
      | .cut fault => .error (.text fault)
      | _ => .error (.text .malformed)

/-- One of the known names: as a text, or as an object with that member alone. -/
def Decoder.choice (known : Table α) : Decoder α := fun origin room d =>
  match d, room with
  | .text s, _ =>
    match known.get? s with
    | some a => .ok a
    | none => .error (.shape (.unknownChoice s known.keys))
  | .object _, 0 => .error (.text .malformed)
  | .object members, room + 1 => members.choice known origin room
  | .flawed flaw, _ => .error (.text flaw.chosen)
  | d, _ => .error (match origin with
      | .text => .text .malformed
      | .value => d.mismatch .stringOrMap)

/-- A record is written as an object, or as an array of its fields in order. Fields that are
not `required` may be absent. -/
structure Record where
  name : String
  fields : List String
  required : List String

/-- The members of an object, each known one handed to `put`. `seen` are the known names met
so far. A member that is not known is skipped. -/
def Members.fields (record : Record) (put : σ → String → Draft → Except Problem σ)
    (seen : List String) (acc : σ) : Members → Except Problem (σ × List String)
  | .closed => .ok (acc, seen)
  | .cut fault => .error (.text fault)
  | .entry (.error flaw) _ _ => .error (.text flaw.wanted)
  | .entry (.ok key) value rest =>
    if key ∈ record.fields then
      if key ∈ seen then .error (.shape (.duplicateField key))
      else do
        let acc ← put acc key value
        rest.fields record put (key :: seen) acc
    else
      match value.skip with
      | some fault => .error (.text fault)
      | none => rest.fields record put seen acc

def Items.fields (origin : Origin) (total : Nat) (put : σ → String → Draft → Except Problem σ)
    (seen : List String) (acc : σ) (names : List String) :
    Items → Except Problem (σ × List String)
  | .closed => .ok (acc, seen)
  | .cut fault => .error (.text fault)
  | .cons item rest =>
    match names with
    | [] => .error (match origin with
        | .text => .text .malformed
        | .value => .shape (.tooManyItems total))
    | name :: names => do
      let acc ← put acc name item
      rest.fields origin total put (name :: seen) acc names

def Decoder.record (record : Record) (empty : σ)
    (put : Origin → Nat → σ → String → Draft → Except Problem σ) : Decoder σ :=
  fun origin room d =>
    match d, room with
    | .object _, 0 => .error (.text .malformed)
    | .list _, 0 => .error (.text .malformed)
    | .object members, room + 1 => do
      let (acc, seen) ← members.fields record (put origin room) [] empty
      match record.required.find? (· ∉ seen) with
      | some name => .error (.shape (.missingField name))
      | none => return acc
    | .list items, room + 1 => do
      let (acc, seen) ← items.fields origin items.length (put origin room) [] empty record.fields
      match record.required.find? (· ∉ seen) with
      | some _ => .error (.shape (.tooFewItems seen.length record.name record.fields.length))
      | none => return acc
    | d, _ => .error (d.mismatch (.record record.name))

/-- Decodes a whole text. What follows the value is looked at last, and must be blank. -/
def decodeText (f : Decoder α) (text : String) : Except Problem α := do
  let (d, clean) := ofText text
  let a ← f .text textRoom d
  if clean then return a else .error (.text .malformed)

def decodeValue (f : Decoder α) (v : Json) : Except Problem α :=
  f .value v.height v.toDraft

end ClientGen.Json
