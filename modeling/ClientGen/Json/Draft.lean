import ClientGen.Json.Basic
/-! What one reading of a text from left to right sees of a JSON value: the value as far as
it goes, and the place where the reading stopped. A draft keeps apart the faults that every
reader notices and those that only a reader who wants the value notices, so that a member
nobody asks for may hold a number out of range or half a surrogate pair. -/
namespace ClientGen.Json

inductive Fault
  | malformed
  | incomplete
deriving DecidableEq, Repr

/-- The fault that each kind of reader meets. -/
structure Flaw where
  /-- One who wants the value. -/
  wanted : Fault
  /-- One who skips it; for `none` the text after the flawed piece was read as well. -/
  skipped : Option Fault
  /-- One who wants a text or an object, and looks at the first character of anything else. -/
  chosen : Fault
deriving DecidableEq, Repr

def Flaw.hard (f : Fault) : Flaw := ⟨f, some f, f⟩

mutual

inductive Draft
  | null
  | bool (value : Bool)
  | number (value : Number)
  | text (value : String)
  | list (items : Items)
  | object (members : Members)
  | flawed (flaw : Flaw)

/-- `cut` where a comma or the end of the array should stand. -/
inductive Items
  | closed
  | cut (fault : Fault)
  | cons (item : Draft) (rest : Items)

inductive Members
  | closed
  | cut (fault : Fault)
  | entry (key : Except Flaw String) (value : Draft) (rest : Members)

end

def Items.length : Items → Nat
  | .cons _ rest => rest.length + 1
  | _ => 0

mutual

def Draft.skip : Draft → Option Fault
  | .list items => items.skip
  | .object members => members.skip
  | .flawed flaw => flaw.skipped
  | _ => none

def Items.skip : Items → Option Fault
  | .closed => none
  | .cut fault => some fault
  | .cons item rest => item.skip <|> rest.skip

def Members.skip : Members → Option Fault
  | .closed => none
  | .cut fault => some fault
  | .entry (.error flaw) value rest => flaw.skipped <|> value.skip <|> rest.skip
  | .entry (.ok _) value rest => value.skip <|> rest.skip

end

mutual

/-- The whole value, for a reader who wants it; at most `room` arrays and objects may stand
inside each other. Of two members with one name the last counts, in the place of the first. -/
def Draft.value (room : Nat) : Draft → Except Fault Json
  | .null => .ok .null
  | .bool b => .ok (.bool b)
  | .number n => .ok (.number n)
  | .text s => .ok (.text s)
  | .list items =>
    match room with
    | 0 => .error .malformed
    | room + 1 => (items.values room).map .list
  | .object members =>
    match room with
    | 0 => .error .malformed
    | room + 1 => (members.values room []).map .object
  | .flawed flaw => .error flaw.wanted

def Items.values (room : Nat) : Items → Except Fault (List Json)
  | .closed => .ok []
  | .cut fault => .error fault
  | .cons item rest => do
    let v ← item.value room
    let vs ← rest.values room
    return v :: vs

def Members.values (room : Nat) (seen : Table Json) : Members → Except Fault (Table Json)
  | .closed => .ok seen
  | .cut fault => .error fault
  | .entry (.error flaw) _ _ => .error flaw.wanted
  | .entry (.ok key) value rest => do
    let v ← value.value room
    rest.values room (seen.put key v)

end

mutual

def toDraft : Json → Draft
  | .null => .null
  | .bool b => .bool b
  | .number n => .number n
  | .text s => .text s
  | .list items => .list (toItems items)
  | .object members => .object (toMembers members)

def toItems : List Json → Items
  | [] => .closed
  | v :: vs => .cons v.toDraft (toItems vs)

def toMembers : List (String × Json) → Members
  | [] => .closed
  | (k, v) :: ms => .entry (.ok k) v.toDraft (toMembers ms)

end

theorem Members.values_entry {room : Nat} {seen : Table Json} {key : String} {d : Draft}
    {rest : Members} {v : Json} (h : d.value room = .ok v) :
    (Members.entry (.ok key) d rest).values room seen = rest.values room (seen.put key v) := by
  simp only [Members.values, h]
  rfl

mutual

theorem value_toDraft (v : Json) (room : Nat) (hd : v.Distinct) (hr : v.height ≤ room) :
    v.toDraft.value room = .ok v := by
  match v, room with
  | .null, _ | .bool _, _ | .number _, _ | .text _, _ => simp [toDraft, Draft.value]
  | .list items, 0 => simp [height] at hr
  | .list items, room + 1 =>
    simp only [height, Nat.add_le_add_iff_right] at hr
    simp only [toDraft, Draft.value, values_toItems items room hd hr]
    rfl
  | .object members, 0 => simp [height] at hr
  | .object members, room + 1 =>
    simp only [height, Nat.add_le_add_iff_right] at hr
    simp only [toDraft, Draft.value,
      values_toMembers members room [] hd.2 hr (by simpa [Table.keys] using hd.1)]
    rfl

theorem values_toItems (vs : List Json) (room : Nat) (hd : DistinctList vs)
    (hr : heightList vs ≤ room) : (toItems vs).values room = .ok vs := by
  match vs with
  | [] => rfl
  | v :: vs =>
    simp only [heightList] at hr
    simp only [toItems, Items.values, value_toDraft v room hd.1 (by omega),
      values_toItems vs room hd.2 (by omega)]
    rfl

theorem values_toMembers (ms : List (String × Json)) (room : Nat) (seen : Table Json)
    (hd : DistinctMembers ms) (hr : heightMembers ms ≤ room)
    (hk : (Table.keys (seen ++ ms)).Nodup) :
    (toMembers ms).values room seen = .ok (seen ++ ms) := by
  match ms with
  | [] => simp [toMembers, Members.values]
  | (k, v) :: ms =>
    simp only [heightMembers] at hr
    have hks : k ∉ Table.keys seen := by
      simp only [Table.keys, List.map_append, List.map_cons] at hk ⊢
      exact fun h => (List.nodup_append.1 hk).2.2 k h k (by simp) rfl
    rw [toMembers, Members.values_entry (value_toDraft v room hd.1 (by omega)),
      Table.put_of_not_mem hks, values_toMembers ms room _ hd.2 (by omega) (by simpa using hk)]
    simp

end

end ClientGen.Json
