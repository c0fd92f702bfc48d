import ClientGen.Proofs.Script.TypeReader
/-! The text of a type tells what type it is. Each kind of type is read back from its text in front
of whatever can stand behind it there; by induction on the length of the text, every type is. -/
namespace ClientGen.Script

open Text (continuesIdentifier isIdentifier startsIdentifier joinWith)

section Parts

variable {inner : String → FrontReader TypeTerm} {bound : Nat} {indentation : String}

theorem readItem_eq_readWord {c : Char} (hc : startsIdentifier c = true) (cs : List Char) :
    readItem inner indentation (c :: cs) = readWord inner indentation (c :: cs) := by
  unfold readItem
  split
  · next h => cases h; exact absurd hc (by decide)
  · next h => cases h; exact absurd hc (by decide)
  · next h => cases h; exact absurd hc (by decide)
  · rfl

theorem readItem_name {name : String} (hname : isIdentifier name = true) {r : List Char}
    (hr : ∀ c ∈ r.head?, continuesIdentifier c = false) :
    readItem inner indentation (name.toList ++ r) = readBehindWord inner indentation name r := by
  obtain ⟨c, cs, hlist, hstart⟩ := Text.exists_start_of_isIdentifier hname
  have hrun := readRun_append (Text.continuesIdentifier_of_isIdentifier hname) hr
  rw [hlist, List.cons_append] at hrun ⊢
  rw [readItem_eq_readWord hstart, readWord, hrun]

theorem readBehindWord_ends (word : String) {r : List Char} (hr : EndsItem r) :
    readBehindWord inner indentation word r = some (.named word, r) := by
  rcases hr with hr | r
  · rcases hr with hr | r
    · cases hr <;> rfl
    · rfl
  · rfl

theorem readItem_named {name : String} (hname : isIdentifier name = true) {r : List Char}
    (hr : EndsItem r) :
    readItem inner indentation (name.toList ++ r) = some (.named name, r) := by
  rw [readItem_name hname fun c hc => (hr.stops c hc).1, readBehindWord_ends name hr]

theorem readBehindWord_arguments (h : ReadsShort inner bound) (word : String)
    {arguments : List TypeTerm} (hne : arguments ≠ []) (harguments : ∀ t ∈ arguments, t.WellNamed)
    (hbound : (joinWith ", " (typeTexts indentation arguments)).length < bound) (r : List Char) :
    readBehindWord inner indentation word
        ('<' :: ((joinWith ", " (typeTexts indentation arguments)).toList ++ (">".toList ++ r)))
      = some (.generic word (plainTypes arguments), r) := by
  rw [typeTexts_eq_map] at hbound ⊢
  rw [plainTypes_eq_map]
  have hread := readSeparated_joinWith ", " (by decide) (fun s => .comma (' ' :: s)) hne
    fun t ht => h t indentation (harguments t ht)
      (Nat.lt_of_le_of_lt (Text.length_le_joinWith ", " (List.mem_map_of_mem ht)) hbound)
  have hend : EndsType (">".toList ++ r) := .angle r
  have hlast : behind? ", " (">".toList ++ r) = none := rfl
  simp only [readBehindWord, hread _ ⟨hend, hlast⟩, behind?_append, Option.bind_eq_bind,
    Option.bind_some]
  rfl

theorem readItem_generic (h : ReadsShort inner bound) {name : String}
    (hname : isIdentifier name = true) {arguments : List TypeTerm} (hne : arguments ≠ [])
    (harguments : ∀ t ∈ arguments, t.WellNamed)
    (hbound : ((TypeTerm.generic name arguments).text indentation).length ≤ bound) (r : List Char) :
    readItem inner indentation (((TypeTerm.generic name arguments).text indentation).toList ++ r)
      = some ((TypeTerm.generic name arguments).plain, r) := by
  rw [TypeTerm.text_generic] at hbound ⊢
  have hopen : ("<" : String).length = 1 := rfl
  simp only [String.length_append] at hbound
  have hshort : (joinWith ", " (typeTexts indentation arguments)).length < bound := by omega
  have hread := readBehindWord_arguments h name hne harguments hshort r
  simp only [String.toList_append, List.append_assoc]
  rw [readItem_name hname]
  · exact hread
  · intro c hc
    cases hc
    decide

theorem readBehindWord_path (word : String) {c : Char} {cs : List Char} {path : String}
    (hlist : path.toList = c :: cs) (hc : startsIdentifier c = true)
    (hpath : ∀ c ∈ path.toList, continuesPath c = true) {r : List Char}
    (hr : ∀ c ∈ r.head?, continuesPath c = false) :
    readBehindWord inner indentation word (' ' :: (path.toList ++ r))
      = some (.typeOf path, r) := by
  have hrun := readRun_append hpath hr
  rw [hlist, List.cons_append] at hrun ⊢
  rw [readBehindWord, if_pos hc, hrun]

theorem continuesPath_of_mem {names : List String}
    (hnames : ∀ name ∈ names, isIdentifier name = true) :
    ∀ c ∈ (joinWith "." names).toList, continuesPath c = true := by
  intro c hc
  rcases Text.mem_joinWith hc with hdot | ⟨name, hname, hc⟩
  · obtain rfl : c = '.' := by simpa using hdot
    decide
  · rw [continuesPath, Text.continuesIdentifier_of_isIdentifier (hnames name hname) c hc,
      Bool.true_or]

theorem exists_start_of_path {names : List String} (hne : names ≠ [])
    (hnames : ∀ name ∈ names, isIdentifier name = true) :
    ∃ c cs, (joinWith "." names).toList = c :: cs ∧ startsIdentifier c = true := by
  obtain ⟨name, rest, rfl⟩ := List.exists_cons_of_ne_nil hne
  obtain ⟨c, cs, hname, hc⟩ := Text.exists_start_of_isIdentifier (hnames name List.mem_cons_self)
  by_cases hrest : rest = []
  · exact ⟨c, cs, by rw [hrest]; exact hname, hc⟩
  · rw [Text.joinWith_cons "." name hrest]
    simp only [String.toList_append, hname, List.cons_append]
    exact ⟨c, _, rfl, hc⟩

theorem readItem_typeOf {names : List String} (hne : names ≠ [])
    (hnames : ∀ name ∈ names, isIdentifier name = true) {r : List Char} (hr : EndsItem r) :
    readItem inner indentation
        (((TypeTerm.typeOf (joinWith "." names)).text indentation).toList ++ r)
      = some (.typeOf (joinWith "." names), r) := by
  obtain ⟨c, cs, hlist, hc⟩ := exists_start_of_path hne hnames
  have hstop : ∀ c ∈ r.head?, continuesPath c = false := by
    intro c hc
    simp [continuesPath, hr.stops c hc]
  have hspace : ∀ c ∈ (' ' :: ((joinWith "." names).toList ++ r)).head?,
      continuesIdentifier c = false := by
    intro c hc
    cases hc
    decide
  have hword : readItem inner indentation
      ("typeof".toList ++ ' ' :: ((joinWith "." names).toList ++ r))
        = some (.typeOf (joinWith "." names), r) := by
    rw [readItem_name (by decide) hspace,
      readBehindWord_path "typeof" hlist hc (continuesPath_of_mem hnames) hstop]
  simpa [TypeTerm.text_typeOf, String.toList_append] using hword

theorem readItem_paren (h : ReadsShort inner bound) {t : TypeTerm} (ht : t.WellNamed)
    (hbound : (t.text indentation).length < bound) (r : List Char) :
    readItem inner indentation ('(' :: ((t.text indentation).toList ++ (")".toList ++ r)))
      = some (t.plain, r) := by
  have hend : EndsType (")".toList ++ r) := .paren r
  simp only [readItem, h t indentation ht hbound _ hend, behind?_append, Option.bind_eq_bind,
    Option.bind_some]
  rfl

theorem readMember_of_item {s r : List Char} {t : TypeTerm}
    (h : readItem inner indentation s = some (t, r)) :
    readMember inner indentation s = some (readBrackets t r) := by
  rw [readMember, h, Option.map_some]

theorem readMember_text (h : ReadsShort inner bound) {t : TypeTerm} (ht : t.WellNamed)
    (hunion : t.isUnion = false) (hbound : (t.text indentation).length ≤ bound) {r : List Char}
    (hr : EndsItem r) :
    readMember inner indentation ((t.text indentation).toList ++ r)
      = some (readBrackets t.plain r) := by
  induction ht generalizing r with
  | named hname => exact readMember_of_item (readItem_named hname hr)
  | generic hname hne harguments =>
    exact readMember_of_item (readItem_generic h hname hne harguments hbound r)
  | @array item hitem ih =>
    rw [TypeTerm.text_array] at hbound ⊢
    split_ifs at hbound ⊢ with hparens
    · have hopen : ("(" : String).length = 1 := rfl
      simp only [String.length_append] at hbound
      have hshort : (item.text indentation).length < bound := by omega
      have hread := readMember_of_item (readItem_paren h hitem hshort ("[]".toList ++ r))
      simp only [String.toList_append, List.append_assoc]
      exact hread
    · -- the brackets of this array are among those behind its item
      simp only [String.length_append] at hbound
      simp only [String.toList_append, List.append_assoc]
      exact ih (by simpa using hparens) (by omega) (.brackets r)
  | union => cases hunion
  | literal value =>
    refine readMember_of_item ?_
    rw [TypeTerm.text_literal, toList_textLiteral_append]
    simp [readItem, readQuoted_flatMap_escapeChar, TypeTerm.plain]
  | object hfields => exact readMember_of_item (readItem_object h hfields hbound r)
  | typeOf hne hnames => exact readMember_of_item (readItem_typeOf hne hnames hr)

theorem EndsMember.readBrackets_eq {r : List Char} (h : EndsMember r) (t : TypeTerm) :
    readBrackets t r = (t, r) := by
  rcases h with h | r
  · cases h <;> rfl
  · rfl

end Parts

theorem readsShort_readType (bound : Nat) : ReadsShort (readType bound) bound := by
  induction bound with
  | zero => exact fun _ _ _ hbound => absurd hbound (Nat.not_lt_zero _)
  | succ bound ih =>
    intro t indentation ht hbound r hr
    -- a leaf may be as long as the whole type, but what stands in its brackets is shorter
    have hleaf : ∀ l ∈ t.leaves, ReadsBack (readMember (readType bound) indentation)
        (l.text indentation) l.plain EndsMember := by
      intro l hl s hs
      obtain ⟨hnamed, hunion⟩ := ht.of_mem_leaves hl
      have hlength := Text.length_le_joinWith " | "
        (List.mem_map_of_mem (f := (·.text indentation)) hl)
      rw [← ht.text_eq] at hlength
      rw [readMember_text ih hnamed hunion (by omega) (.member hs), hs.readBrackets_eq]
    have hread := readSeparated_joinWith " | " (by decide) .bar ht.leaves_ne_nil hleaf r
      ⟨.type hr, hr.behind?_bar⟩
    rw [← ht.text_eq] at hread
    rw [readType, hread, Option.map_some, ht.plain_eq]

theorem TypeTerm.WellNamed.readType_text {t : TypeTerm} (ht : t.WellNamed) (indentation : String) :
    readType ((t.text indentation).length + 1) indentation (t.text indentation).toList
      = some (t.plain, []) := by
  simpa using readsShort_readType _ t indentation ht (Nat.lt_succ_self _) [] .nil

/-- Two types of one text differ at most in how their unions are grouped and in the comments of
their fields. -/
theorem TypeTerm.plain_eq_of_text_eq {t u : TypeTerm} (ht : t.WellNamed) (hu : u.WellNamed)
    {indentation : String} (h : t.text indentation = u.text indentation) : t.plain = u.plain := by
  have hread := ht.readType_text indentation
  rw [h, hu.readType_text indentation] at hread
  exact (congrArg Prod.fst (Option.some.inj hread)).symm

def unionInObject (members : List TypeTerm) : TypeTerm :=
  .object [
    { name := "user-id", type := .generic "Partial" [.array (.union members)], optional := true,
      docs := ["Ends */ early.\nGoes on."] },
    { name := "mode", type := .typeOf "config.mode" }]

theorem wellNamed_unionInObject {members : List TypeTerm} (hne : members ≠ [])
    (hmembers : ∀ t ∈ members, t.WellNamed) : (unionInObject members).WellNamed := by
  refine .object fun f hf => ?_
  rcases List.mem_pair.1 hf with rfl | rfl
  · refine .generic (by decide) (List.cons_ne_nil _ _) fun t ht => ?_
    obtain rfl := List.mem_singleton.1 ht
    exact .array (.union hne hmembers)
  · have hnames : ∀ name ∈ ["config", "mode"], isIdentifier name = true := by decide
    exact .typeOf (List.cons_ne_nil _ _) hnames

theorem TypeTerm.plain_eq_of_text_eq_unionInObject :
    let left := unionInObject [.union [.named "A", .literal "it's"], .named "B"]
    let right := unionInObject [.named "A", .union [.literal "it's", .named "B"]]
    left.WellNamed ∧ right.WellNamed ∧ left.text "  " = right.text "  " ∧
      left.plain = right.plain := by
  intro left right
  have hA : (named "A").WellNamed := .named (by decide)
  have hB : (named "B").WellNamed := .named (by decide)
  have hquoted : (literal "it's").WellNamed := .literal _
  have hpair {t u : TypeTerm} (ht : t.WellNamed) (hu : u.WellNamed) :
      ∀ s ∈ [t, u], s.WellNamed := List.forall_mem_cons.2 ⟨ht, List.forall_mem_singleton.2 hu⟩
  have hleft : left.WellNamed := wellNamed_unionInObject (List.cons_ne_nil _ _)
    (hpair (.union (List.cons_ne_nil _ _) (hpair hA hquoted)) hB)
  have hright : right.WellNamed := wellNamed_unionInObject (List.cons_ne_nil _ _)
    (hpair hA (.union (List.cons_ne_nil _ _) (hpair hquoted hB)))
  have htext : left.text "  " = right.text "  " := rfl
  exact ⟨hleft, hright, htext, plain_eq_of_text_eq hleft hright htext⟩

end ClientGen.Script
