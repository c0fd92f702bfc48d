import ClientGen.Document.Encode
import ClientGen.Json.Decoder
/-! Reading back what was written. A decoder reads a value from a JSON tree if it does so for
every reader that has room for the tree; for a record it is enough that each member, read by
itself, puts its field in place. -/
namespace ClientGen.Json

theorem height_le_heightList {v : Json} {vs : List Json} (h : v ∈ vs) :
    v.height ≤ heightList vs := by
  induction vs with
  | nil => cases h
  | cons w vs ih =>
    rw [heightList]
    rcases List.mem_cons.1 h with rfl | h
    · exact Nat.le_max_left _ _
    · exact Nat.le_trans (ih h) (Nat.le_max_right _ _)

theorem height_le_heightMembers {p : String × Json} {ms : Table Json} (h : p ∈ ms) :
    p.2.height ≤ heightMembers ms := by
  induction ms with
  | nil => cases h
  | cons q ms ih =>
    rw [heightMembers]
    rcases List.mem_cons.1 h with rfl | h
    · exact Nat.le_max_left _ _
    · exact Nat.le_trans (ih h) (Nat.le_max_right _ _)

theorem heightMembers_append (ms ns : Table Json) :
    heightMembers (ms ++ ns) = max (heightMembers ms) (heightMembers ns) := by
  induction ms with
  | nil => simp [heightMembers]
  | cons p ms ih =>
    rw [List.cons_append, heightMembers, ih, heightMembers, Nat.max_assoc]

/-- With room for the tree, the decoder reads this value from it. -/
def Reads (f : Decoder α) (v : Json) (a : α) : Prop :=
  ∀ origin room, v.height ≤ room → f origin room v.toDraft = .ok a

variable {f : Decoder α}

theorem Reads.decodeValue {v : Json} {a : α} (h : Reads f v a) :
    decodeValue f v = .ok a :=
  h .value v.height (Nat.le_refl _)

theorem reads_text (s : String) : Reads Decoder.text (.text s) s := fun _ _ _ => rfl

theorem reads_flag (b : Bool) : Reads Decoder.flag (.bool b) b := fun _ _ _ => rfl

theorem reads_json {v : Json} (h : v.Distinct) : Reads Decoder.json v v := by
  intro origin room hroom
  rw [Decoder.json, value_toDraft v room h hroom]
  rfl

theorem Reads.optional {v : Json} {a : α} (h : Reads f v a) (hv : v ≠ .null) :
    Reads f.optional v (some a) := by
  intro origin room hroom
  have hread := h origin room hroom
  cases v with
  | null => exact absurd rfl hv
  | _ =>
    simp only [toDraft] at hread
    simp only [toDraft, Decoder.optional, hread]
    rfl

theorem reads_choice {known : Table α} {name : String} {a : α} (h : known.get? name = some a) :
    Reads (Decoder.choice known) (.text name) a := by
  intro origin room _
  simp only [toDraft, Decoder.choice, h]

theorem decode_toItems {g : α → Json} {as : List α} {origin : Origin} {room : Nat}
    (h : ∀ a ∈ as, f origin room (g a).toDraft = .ok a) :
    (toItems (as.map g)).decode (f origin room) = .ok as := by
  induction as with
  | nil => rfl
  | cons a as ih =>
    rw [List.map_cons, toItems, Items.decode, h a List.mem_cons_self,
      ih fun b hb => h b (List.mem_cons_of_mem a hb)]
    rfl

theorem Reads.list {g : α → Json} {as : List α} (h : ∀ a ∈ as, Reads f (g a) a) :
    Reads f.list (.list (as.map g)) as := by
  intro origin room hroom
  cases room with
  | zero => simp [height] at hroom
  | succ room =>
    rw [height, Nat.add_le_add_iff_right] at hroom
    refine decode_toItems fun a ha => h a ha origin room ?_
    exact Nat.le_trans (height_le_heightList (List.mem_map_of_mem ha)) hroom

theorem decode_toMembers {g : α → Json} {t seen : Table α} {origin : Origin} {room : Nat}
    (hkeys : (Table.keys (seen ++ t)).Nodup)
    (h : ∀ p ∈ t, f origin room (g p.2).toDraft = .ok p.2) :
    (toMembers (t.map fun p => (p.1, g p.2))).decode (f origin room) seen = .ok (seen ++ t) := by
  induction t generalizing seen with
  | nil => simp [toMembers, Members.decode]
  | cons p t ih =>
    obtain ⟨k, a⟩ := p
    have hnew : k ∉ Table.keys seen := by
      simp only [Table.keys, List.map_append, List.map_cons] at hkeys ⊢
      exact fun hk => (List.nodup_append.1 hkeys).2.2 k hk k List.mem_cons_self rfl
    rw [List.map_cons, toMembers, Members.decode, h (k, a) List.mem_cons_self]
    change (toMembers _).decode (f origin room) (seen.put k a) = _
    rw [Table.put_of_not_mem hnew, ih (by simpa using hkeys)
      fun p hp => h p (List.mem_cons_of_mem _ hp)]
    simp

theorem Reads.table {g : α → Json} {t : Table α} (hkeys : t.keys.Nodup)
    (h : ∀ p ∈ t, Reads f (g p.2) p.2) : Reads f.table (ofTable g t) t := by
  intro origin room hroom
  cases room with
  | zero => simp [ofTable, height] at hroom
  | succ room =>
    rw [ofTable, height, Nat.add_le_add_iff_right] at hroom
    refine decode_toMembers hkeys fun p hp => h p hp origin room ?_
    have hmem : (p.1, g p.2) ∈ t.map fun p => (p.1, g p.2) := List.mem_map_of_mem hp
    exact Nat.le_trans (height_le_heightMembers hmem) hroom

section Records

variable {σ : Type}

theorem fields_toMembers {record : Record} {put : σ → String → Draft → Except Problem σ}
    {ms : Table Json} {seen : List String} {before after : σ}
    (hknown : ∀ k ∈ ms.keys, k ∈ record.fields) (hnew : ∀ k ∈ ms.keys, k ∉ seen)
    (hkeys : ms.keys.Nodup)
    (h : ms.foldlM (fun acc p => put acc p.1 p.2.toDraft) before = .ok after) :
    (toMembers ms).fields record put seen before = .ok (after, ms.keys.reverse ++ seen) := by
  induction ms generalizing seen before with
  | nil =>
    cases h
    rfl
  | cons p ms ih =>
    obtain ⟨k, v⟩ := p
    rw [List.foldlM_cons] at h
    obtain ⟨between, hput, h⟩ := bind_eq_ok_iff.1 h
    obtain ⟨hk, hms⟩ := List.nodup_cons.1 hkeys
    have hnew' : ∀ l ∈ Table.keys ms, l ∉ k :: seen := by
      intro l hl hmem
      rcases List.mem_cons.1 hmem with rfl | hmem
      · exact hk hl
      · exact hnew l (List.mem_cons_of_mem k hl) hmem
    rw [toMembers, Members.fields, if_pos (hknown k List.mem_cons_self),
      if_neg (hnew k List.mem_cons_self), hput]
    change (toMembers ms).fields record put (k :: seen) between = _
    rw [ih (fun l hl => hknown l (List.mem_cons_of_mem k hl)) hnew' hms h]
    simp [Table.keys]

/-- The members have these names, in this order, where they are there, and turn one value of the
record into the other. -/
structure Fills (put : Origin → Nat → σ → String → Draft → Except Problem σ)
    (names : List String) (ms : Table Json) (before after : σ) : Prop where
  keys : ms.keys.Sublist names
  puts : ∀ origin room, heightMembers ms ≤ room →
    ms.foldlM (fun acc p => put origin room acc p.1 p.2.toDraft) before = .ok after

variable {put : Origin → Nat → σ → String → Draft → Except Problem σ} {before after : σ}

theorem Fills.append {names others : List String} {ms ns : Table Json} {between : σ}
    (h : Fills put names ms before between) (h' : Fills put others ns between after) :
    Fills put (names ++ others) (ms ++ ns) before after where
  keys := by
    rw [Table.keys, List.map_append]
    exact h.keys.append h'.keys
  puts origin room hroom := by
    rw [heightMembers_append] at hroom
    rw [List.foldlM_append, h.puts origin room (Nat.le_trans (Nat.le_max_left _ _) hroom)]
    exact h'.puts origin room (Nat.le_trans (Nat.le_max_right _ _) hroom)

theorem Fills.one {key : String} {v : Json} {f : Decoder α} {a : α}
    (hput : ∀ origin room d, f origin room d = .ok a → put origin room before key d = .ok after)
    (h : Reads f v a) : Fills put [key] [(key, v)] before after where
  keys := List.Sublist.refl _
  puts origin room hroom := by
    rw [heightMembers, heightMembers, Nat.max_zero] at hroom
    rw [List.foldlM_cons, hput origin room _ (h origin room hroom)]
    rfl

theorem Fills.none {key : String} (h : before = after) : Fills put [key] [] before after where
  keys := List.nil_sublist _
  puts _ _ _ := congrArg Except.ok h

theorem Fills.optional {key : String} {f : Decoder α} {g : α → Json} {o : Option α}
    (hput : ∀ origin room d, f.optional origin room d = .ok o →
      put origin room before key d = .ok after)
    (hnone : o = Option.none → before = after) (hg : ∀ a, g a ≠ .null)
    (h : ∀ a ∈ o, Reads f (g a) a) :
    Fills put [key] (optionalMember key g o) before after := by
  cases o with
  | none => exact .none (hnone rfl)
  | some a => exact .one hput ((h a rfl).optional (hg a))

theorem Fills.text {key : String} {o : Option String}
    (hput : ∀ origin room d, Decoder.text.optional origin room d = .ok o →
      put origin room before key d = .ok after)
    (hnone : o = Option.none → before = after) :
    Fills put [key] (optionalMember key .text o) before after :=
  .optional hput hnone (fun _ => Json.noConfusion) fun a _ => reads_text a

theorem Fills.list {key : String} {f : Decoder α} {g : α → Json} {as : List α}
    (hput : ∀ origin room d, f.list origin room d = .ok as →
      put origin room before key d = .ok after)
    (hnil : as = [] → before = after) (h : ∀ a ∈ as, Reads f (g a) a) :
    Fills put [key] (listMember key g as) before after := by
  cases as with
  | nil => exact .none (hnil rfl)
  | cons a as => exact .one hput (Reads.list h)

theorem Fills.table {key : String} {f : Decoder α} {g : α → Json} {t : Table α}
    (hput : ∀ origin room d, f.table origin room d = .ok t →
      put origin room before key d = .ok after)
    (hnil : t = [] → before = after) (hkeys : t.keys.Nodup)
    (h : ∀ p ∈ t, Reads f (g p.2) p.2) :
    Fills put [key] (tableMember key g t) before after := by
  cases t with
  | nil => exact .none (hnil rfl)
  | cons p t => exact .one hput (Reads.table hkeys h)

theorem Fills.reads {record : Record} {empty value : σ} {ms : Table Json}
    (h : Fills put record.fields ms empty value) (hfields : record.fields.Nodup)
    (hrequired : ∀ k ∈ record.required, k ∈ ms.keys) :
    Reads (Decoder.record record empty put) (.object ms) value := by
  intro origin room hroom
  cases room with
  | zero => simp [height] at hroom
  | succ room =>
    rw [height, Nat.add_le_add_iff_right] at hroom
    have hread : (toMembers ms).fields record (put origin room) [] empty =
        .ok (value, ms.keys.reverse ++ []) :=
      fields_toMembers (fun k hk => h.keys.subset hk) (fun _ _ => List.not_mem_nil)
        (h.keys.nodup hfields) (h.puts origin room hroom)
    have hfind : record.required.find? (· ∉ ms.keys.reverse ++ []) = Option.none := by
      rw [List.find?_eq_none]
      intro k hk
      simp [hrequired k hk]
    rw [toDraft, Decoder.record, hread, ok_bind]
    dsimp only
    rw [hfind]
    rfl

end Records

end ClientGen.Json
