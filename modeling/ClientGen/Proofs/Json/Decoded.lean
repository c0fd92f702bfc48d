import ClientGen.Json.Decoder
import ClientGen.Proofs.Table
/-! What decoders give. A property of the parts is one of the whole, from whatever draft and
with whatever room the whole was read; maps come without repeated keys. -/
namespace ClientGen

namespace Json

theorem distinctList_iff {vs : List Json} : DistinctList vs ↔ ∀ v ∈ vs, v.Distinct := by
  induction vs with
  | nil => simp [DistinctList]
  | cons v vs ih => simp [DistinctList, ih]

theorem distinctMembers_iff {ms : Table Json} :
    DistinctMembers ms ↔ ∀ p ∈ ms, p.2.Distinct := by
  induction ms with
  | nil => simp [DistinctMembers]
  | cons p ms ih =>
    obtain ⟨k, v⟩ := p
    simp [DistinctMembers, ih]

def Decoder.Yields (f : Decoder α) (P : α → Prop) : Prop :=
  ∀ ⦃origin room d a⦄, f origin room d = .ok a → P a

mutual

theorem Draft.distinct_of_value {room : Nat} {v : Json} (d : Draft)
    (h : d.value room = .ok v) : v.Distinct := by
  match d, room with
  | .null, _ | .bool _, _ | .number _, _ | .text _, _ =>
    cases h
    trivial
  | .list _, 0 | .object _, 0 | .flawed _, _ => cases h
  | .list items, room + 1 =>
    obtain ⟨vs, hvs, rfl⟩ := map_eq_ok_iff.1 h
    exact distinctList_iff.2 (Items.distinct_of_values items hvs)
  | .object members, room + 1 =>
    obtain ⟨ms, hms, rfl⟩ := map_eq_ok_iff.1 h
    have hdistinct := Members.distinct_of_values members .nil hms
    exact ⟨hdistinct.1, distinctMembers_iff.2 hdistinct.2⟩

theorem Items.distinct_of_values {room : Nat} {vs : List Json} (items : Items)
    (h : items.values room = .ok vs) : ∀ v ∈ vs, v.Distinct := by
  match items with
  | .closed =>
    cases h
    exact fun _ => (nomatch ·)
  | .cut _ => cases h
  | .cons item rest =>
    obtain ⟨v, hv, h⟩ := bind_eq_ok_iff.1 h
    obtain ⟨vs, hvs, h⟩ := bind_eq_ok_iff.1 h
    cases h
    exact List.forall_mem_cons.2 ⟨item.distinct_of_value hv, rest.distinct_of_values hvs⟩

theorem Members.distinct_of_values {room : Nat} {seen ms : Table Json} (members : Members)
    (hseen : seen.Distinct Json.Distinct) (h : members.values room seen = .ok ms) :
    ms.Distinct Json.Distinct := by
  match members with
  | .closed =>
    cases h
    exact hseen
  | .cut _ | .entry (.error _) _ _ => cases h
  | .entry (.ok key) value rest =>
    obtain ⟨v, hv, h⟩ := bind_eq_ok_iff.1 h
    exact rest.distinct_of_values (hseen.put (value.distinct_of_value hv)) h

end

namespace Decoder

theorem yields_json : Yields json Json.Distinct :=
  fun _ _ d _ h => d.distinct_of_value (mapError_eq_ok_iff.1 h)

variable {f : Decoder α} {P : α → Prop}

theorem Yields.optional (hf : f.Yields P) : f.optional.Yields fun o => ∀ a ∈ o, P a := by
  intro origin room d o h
  cases d with
  | null =>
    cases h
    exact fun _ => (nomatch ·)
  | _ =>
    obtain ⟨a, ha, rfl⟩ := map_eq_ok_iff.1 h
    intro b hb
    cases hb
    exact hf ha

theorem forall_of_items (hf : f.Yields P) {origin : Origin} {room : Nat} {as : List α}
    (items : Items) (h : items.decode (f origin room) = .ok as) : ∀ a ∈ as, P a := by
  match items with
  | .closed =>
    cases h
    exact fun _ => (nomatch ·)
  | .cut _ => cases h
  | .cons item rest =>
    obtain ⟨a, ha, h⟩ := bind_eq_ok_iff.1 h
    obtain ⟨as, has, h⟩ := bind_eq_ok_iff.1 h
    cases h
    exact List.forall_mem_cons.2 ⟨hf ha, forall_of_items hf rest has⟩

theorem Yields.list (hf : f.Yields P) : f.list.Yields fun as => ∀ a ∈ as, P a := by
  intro origin room d as h
  match d, room with
  | .list items, _ + 1 => exact forall_of_items hf items h
  | .list _, 0 | .null, _ | .bool _, _ | .number _, _ | .text _, _ | .object _, _
  | .flawed _, _ => cases h

theorem distinct_of_members (hf : f.Yields P) {origin : Origin} {room : Nat} {seen t : Table α}
    (members : Members) (hseen : seen.Distinct P)
    (h : members.decode (f origin room) seen = .ok t) : t.Distinct P := by
  match members with
  | .closed =>
    cases h
    exact hseen
  | .cut _ | .entry (.error _) _ _ => cases h
  | .entry (.ok key) value rest =>
    obtain ⟨a, ha, h⟩ := bind_eq_ok_iff.1 h
    exact distinct_of_members hf rest (hseen.put (hf ha)) h

theorem Yields.table (hf : f.Yields P) : f.table.Yields (Table.Distinct P) := by
  intro origin room d t h
  match d, room with
  | .object members, _ + 1 => exact distinct_of_members hf members .nil h
  | .object _, 0 | .null, _ | .bool _, _ | .number _, _ | .text _, _ | .list _, _
  | .flawed _, _ => cases h

end Decoder

section Records

variable {σ : Type} {P : σ → Prop}

def Keeps (P : σ → Prop) (put : σ → String → Draft → Except Problem σ) : Prop :=
  ∀ ⦃acc field d acc'⦄, P acc → put acc field d = .ok acc' → P acc'

variable {put : σ → String → Draft → Except Problem σ}

theorem Members.keeps_fields (hput : Keeps P put) {record : Record} {seen seen' : List String}
    {acc acc' : σ} (members : Members) (hacc : P acc)
    (h : members.fields record put seen acc = .ok (acc', seen')) : P acc' := by
  match members with
  | .closed =>
    cases h
    exact hacc
  | .cut _ | .entry (.error _) _ _ => cases h
  | .entry (.ok key) value rest =>
    rw [Members.fields] at h
    split at h
    · split at h
      · cases h
      · obtain ⟨between, hbetween, h⟩ := bind_eq_ok_iff.1 h
        exact rest.keeps_fields hput (hput hacc hbetween) h
    · split at h
      · cases h
      · exact rest.keeps_fields hput hacc h

theorem Items.keeps_fields (hput : Keeps P put) {origin : Origin} {total : Nat}
    {seen seen' names : List String} {acc acc' : σ} (items : Items) (hacc : P acc)
    (h : items.fields origin total put seen acc names = .ok (acc', seen')) : P acc' := by
  match items, names with
  | .closed, _ =>
    rw [Items.fields] at h
    cases h
    exact hacc
  | .cut _, _ | .cons _ _, [] => simp only [Items.fields, reduceCtorEq] at h
  | .cons item rest, name :: names =>
    obtain ⟨between, hbetween, h⟩ := bind_eq_ok_iff.1 h
    exact rest.keeps_fields hput (hput hacc hbetween) h

theorem Decoder.yields_record {record : Record} {empty : σ}
    {put : Origin → Nat → σ → String → Draft → Except Problem σ} (hempty : P empty)
    (hput : ∀ origin room, Keeps P (put origin room)) :
    (Decoder.record record empty put).Yields P := by
  intro origin room d a h
  match d, room with
  | .object members, room + 1 =>
    obtain ⟨⟨acc, seen⟩, hfields, h⟩ := bind_eq_ok_iff.1 h
    have hacc := members.keeps_fields (hput origin room) hempty hfields
    dsimp only at h
    split at h
    · cases h
    · cases h
      exact hacc
  | .list items, room + 1 =>
    obtain ⟨⟨acc, seen⟩, hfields, h⟩ := bind_eq_ok_iff.1 h
    have hacc := items.keeps_fields (hput origin room) hempty hfields
    dsimp only at h
    split at h
    · cases h
    · cases h
      exact hacc
  | .object _, 0 | .list _, 0 | .null, _ | .bool _, _ | .number _, _ | .text _, _
  | .flawed _, _ => cases h

end Records

end Json

end ClientGen
