import ClientGen.Proofs.Script.FrontReader
import ClientGen.Proofs.Script.PlainType
/-! A reader of types. It takes the alternatives of a union one after the other, so what it finds
is a type in its plain form. It goes into a shorter text each time, and the number of its steps is
a bound on that length. Objects are read back from both of their layouts, wherever shorter types
are read back. -/
namespace ClientGen.Script

open Text (continuesIdentifier startsIdentifier joinWith guardCommentEnd)

/-- Behind a whole type: the end of the list, the field or the brackets that it stands in. -/
inductive EndsType : List Char → Prop
  | nil : EndsType []
  | paren (r : List Char) : EndsType (')' :: r)
  | angle (r : List Char) : EndsType ('>' :: r)
  | comma (r : List Char) : EndsType (',' :: r)
  | semicolon (r : List Char) : EndsType (';' :: r)
  | brace (r : List Char) : EndsType (' ' :: '\x7d' :: r)

inductive EndsMember : List Char → Prop
  | type {r : List Char} (h : EndsType r) : EndsMember r
  | bar (r : List Char) : EndsMember (' ' :: '|' :: ' ' :: r)

inductive EndsItem : List Char → Prop
  | member {r : List Char} (h : EndsMember r) : EndsItem r
  | brackets (r : List Char) : EndsItem ('[' :: ']' :: r)

theorem EndsType.behind?_bar {r : List Char} (h : EndsType r) : behind? " | " r = none := by
  cases h <;> rfl

theorem EndsType.stops {r : List Char} (h : EndsType r) :
    ∀ c ∈ r.head?, continuesIdentifier c = false ∧ c ≠ '.' := by
  intro c hc
  cases h <;> cases hc <;> decide

theorem EndsItem.stops {r : List Char} (h : EndsItem r) :
    ∀ c ∈ r.head?, continuesIdentifier c = false ∧ c ≠ '.' := by
  rcases h with h | r
  · rcases h with h | r
    · exact h.stops
    · intro c hc
      cases hc
      decide
  · intro c hc
    cases hc
    decide

section Readers

variable (inner : String → FrontReader TypeTerm) (indentation : String)

def readMark : List Char → Bool × List Char
  | '?' :: s => (true, s)
  | s => (false, s)

def readField (type : FrontReader TypeTerm) : FrontReader Field := fun s => do
  let (name, s) ← readKey s
  let (optional, s) := readMark s
  let s ← behind? ": " s
  let (type, s) ← type s
  return (⟨name, type, optional, []⟩, s)

def afterLine (s : List Char) : List Char := (s.dropWhile (· != '\n')).drop 1

/-- A field on each line, up to a line that is not as far in; lines of comments are passed over. -/
def readFieldLines (field : FrontReader Field) : Nat → FrontReader (List Field)
  | 0, _ => none
  | steps + 1, s =>
    match behind? indentation s with
    | none => some ([], s)
    | some s =>
      if s.head? = some '/' then readFieldLines field steps (afterLine s)
      else do
        let (f, s) ← field s
        let s ← behind? ";\n" s
        (readFieldLines field steps s).map fun p => (f :: p.1, p.2)

def readObject : FrontReader TypeTerm
  | '\x7d' :: s => some (.object [], s)
  | '\n' :: s => do
    let deeper := indentation ++ Layout.unit
    let (fields, s) ← readFieldLines deeper (readField (inner deeper)) (s.length + 1) s
    let s ← behind? (indentation ++ "\x7d") s
    return (.object fields, s)
  | ' ' :: s => do
    let (fields, s) ← readSeparated "; " (readField (inner indentation)) s
    let s ← behind? " \x7d" s
    return (.object fields, s)
  | _ => none

def continuesPath (c : Char) : Bool := continuesIdentifier c || c == '.'

/-- Goes on behind a word: with its arguments, or with the second word of a `typeof`. -/
def readBehindWord (word : String) : FrontReader TypeTerm
  | '<' :: s => do
    let (arguments, s) ← readSeparated ", " (inner indentation) s
    let s ← behind? ">" s
    return (.generic word arguments, s)
  | ' ' :: c :: s =>
    if startsIdentifier c then
      let (expression, s) := readRun continuesPath (c :: s)
      some (.typeOf expression, s)
    else some (.named word, ' ' :: c :: s)
  | s => some (.named word, s)

def readWord : FrontReader TypeTerm := fun s =>
  let (word, s) := readRun continuesIdentifier s
  readBehindWord inner indentation word s

def readItem : FrontReader TypeTerm
  | '(' :: s => do
    let (t, s) ← inner indentation s
    let s ← behind? ")" s
    return (t, s)
  | '\'' :: s => (readQuoted s).map fun p => (.literal (String.ofList p.1), p.2)
  | '\x7b' :: s => readObject inner indentation s
  | s => readWord inner indentation s

def readBrackets (t : TypeTerm) : List Char → TypeTerm × List Char
  | '[' :: ']' :: s => readBrackets (.array t) s
  | s => (t, s)

def readMember : FrontReader TypeTerm := fun s =>
  (readItem inner indentation s).map fun p => readBrackets p.1 p.2

end Readers

def readType : Nat → String → FrontReader TypeTerm
  | 0, _, _ => none
  | steps + 1, indentation, s =>
    (readSeparated " | " (readMember (readType steps) indentation) s).map fun p =>
      (.ofAlternatives p.1, p.2)

def ReadsShort (inner : String → FrontReader TypeTerm) (bound : Nat) : Prop :=
  ∀ (t : TypeTerm) (indentation : String), t.WellNamed →
    (t.text indentation).length < bound →
      ReadsBack (inner indentation) (t.text indentation) t.plain EndsType

section Parts

variable {inner : String → FrontReader TypeTerm} {bound : Nat} (indentation : String)

theorem length_text_lt_signature (f : Field) :
    (f.type.text indentation).length < (f.signature indentation).length := by
  obtain ⟨name, type, optional, docs⟩ := f
  have hcolon : (": " : String).length = 2 := rfl
  simp only [Field.signature, String.length_append]
  omega

theorem stops_mark (optional : Bool) (s : List Char) :
    ∀ c ∈ ((if optional then "?" else "").toList ++ (": ".toList ++ s)).head?,
      continuesIdentifier c = false := by
  intro c hc
  cases optional <;> cases hc <;> decide

theorem readMark_append (optional : Bool) (s : List Char) :
    readMark ((if optional then "?" else "").toList ++ (": ".toList ++ s))
      = (optional, ": ".toList ++ s) := by
  cases optional <;> rfl

theorem readsBack_signature (h : ReadsShort inner bound) {f : Field} (hf : f.type.WellNamed)
    (hbound : (f.signature indentation).length ≤ bound) :
    ReadsBack (readField (inner indentation)) (f.signature indentation) f.plain EndsType := by
  intro r hr
  have hlength := length_text_lt_signature indentation f
  obtain ⟨name, type, optional, docs⟩ := f
  have htype := h type indentation hf (Nat.lt_of_lt_of_le hlength hbound) r hr
  have hkey := readsBack_objectKey name _
    (stops_mark optional ((type.text indentation).toList ++ r))
  simp only [Field.signature, String.toList_append, List.append_assoc]
  simp only [readField, hkey, readMark_append, behind?_append, htype, Option.bind_eq_bind,
    Option.bind_some]
  rfl

theorem afterLine_append {l : List Char} (hl : '\n' ∉ l) (r : List Char) :
    afterLine (l ++ '\n' :: r) = r := by
  have hpass : ∀ c ∈ l, (c != '\n') = true := by
    intro c hc
    simpa using fun h : c = '\n' => hl (h ▸ hc)
  rw [afterLine, List.dropWhile_append_of_pos hpass]
  rfl

theorem not_mem_guardCommentEnd {c : Char} {l : List Char} (hc : c ≠ '\\') (hl : c ∉ l) :
    c ∉ guardCommentEnd l := by
  fun_induction guardCommentEnd l with
  | case1 cs ih => simp_all
  | case2 d cs _ ih => simp_all
  | case3 => exact hl

def IsCommentLine (l : List Char) : Prop :=
  ∃ body, '\n' ∉ body ∧ l = indentation.toList ++ '/' :: (body ++ ['\n'])

theorem lines_fieldDocs (docs : List String) :
    ∃ lines : List (List Char), (fieldDocs indentation docs).toList = lines.flatten ∧
      ∀ l ∈ lines, IsCommentLine indentation l := by
  refine ⟨_, toList_joinWith_empty _, ?_⟩
  intro l hl
  simp only [List.mem_map, List.mem_flatMap] at hl
  obtain ⟨_, ⟨doc, _, comment, hcomment, rfl⟩, rfl⟩ := hl
  have hfeed := not_mem_guardCommentEnd (by decide) (Text.not_mem_of_mem_feedLines hcomment)
  refine ⟨"** ".toList ++ guardCommentEnd comment ++ " */".toList, ?_, ?_⟩
  · simp [hfeed]
  · simp [String.toList_append]

variable {indentation}

theorem readFieldLines_comment {l : List Char} (hl : IsCommentLine indentation l)
    (field : FrontReader Field) (steps : Nat) (s : List Char) :
    readFieldLines indentation field (steps + 1) (l ++ s)
      = readFieldLines indentation field steps s := by
  obtain ⟨body, hbody, rfl⟩ := hl
  have hslash : '\n' ∉ '/' :: body := by simpa using hbody
  have hafter : afterLine ('/' :: (body ++ '\n' :: s)) = s := afterLine_append hslash s
  simp only [List.append_assoc, List.cons_append, List.nil_append, readFieldLines, behind?_append,
    List.head?_cons, if_true, hafter]

/-- Steps for the rest of the text are left when the comments have been passed over. -/
theorem readFieldLines_comments {lines : List (List Char)}
    (hlines : ∀ l ∈ lines, IsCommentLine indentation l) (field : FrontReader Field)
    (s : List Char) (rest steps : Nat) (hsteps : lines.flatten.length + rest < steps) :
    ∃ left, rest < left ∧ readFieldLines indentation field steps (lines.flatten ++ s)
      = readFieldLines indentation field left s := by
  induction lines generalizing steps with
  | nil => exact ⟨steps, by simpa using hsteps, rfl⟩
  | cons l lines ih =>
    obtain ⟨steps, rfl⟩ := Nat.exists_eq_succ_of_ne_zero (Nat.ne_zero_of_lt hsteps)
    have hl := hlines l List.mem_cons_self
    have hlength : 0 < l.length := by
      obtain ⟨body, _, rfl⟩ := hl
      rw [List.length_append, List.length_cons]
      omega
    rw [List.flatten_cons, List.length_append] at hsteps
    obtain ⟨left, hleft, hread⟩ :=
      ih (fun k hk => hlines k (List.mem_cons_of_mem l hk)) steps (by omega)
    refine ⟨left, hleft, ?_⟩
    rw [List.flatten_cons, List.append_assoc, readFieldLines_comment hl, hread]

theorem head?_signature (f : Field) (s : List Char) :
    ((f.signature indentation).toList ++ s).head? ≠ some '/' := by
  obtain ⟨name, type, optional, docs⟩ := f
  simp only [Field.signature, String.toList_append, List.append_assoc]
  unfold objectKey
  split
  · next h =>
    obtain ⟨c, cs, hname, hstart⟩ := Text.exists_start_of_isIdentifier h
    rw [hname]
    rintro hslash
    obtain rfl : c = '/' := Option.some.inj hslash
    exact absurd hstart (by decide)
  · rw [toList_textLiteral_append]
    simp

theorem readFieldLines_line {field : FrontReader Field} {f : Field}
    (hfield : ReadsBack field (f.signature indentation) f.plain EndsType) (steps : Nat)
    (s : List Char) :
    readFieldLines indentation field (steps + 1)
        (indentation.toList ++ ((f.signature indentation).toList ++ (";\n".toList ++ s)))
      = (readFieldLines indentation field steps s).map fun p => (f.plain :: p.1, p.2) := by
  have hend : EndsType (";\n".toList ++ s) := .semicolon _
  simp only [readFieldLines, behind?_append, if_neg (head?_signature f _), hfield _ hend,
    Option.bind_eq_bind, Option.bind_some]

theorem readFieldLines_documentedFields (h : ReadsShort inner bound) {fs : List Field}
    (hfs : ∀ f ∈ fs, f.type.WellNamed) (hbound : (documentedFields indentation fs).length ≤ bound)
    {r : List Char} (hr : behind? indentation r = none) (steps : Nat)
    (hsteps : (documentedFields indentation fs).length < steps) :
    readFieldLines indentation (readField (inner indentation)) steps
      ((documentedFields indentation fs).toList ++ r) = some (fs.map (·.plain), r) := by
  induction fs generalizing steps with
  | nil =>
    obtain ⟨steps, rfl⟩ := Nat.exists_eq_succ_of_ne_zero (Nat.ne_zero_of_lt hsteps)
    simp [readFieldLines, documentedFields, hr]
  | cons f fs ih =>
    obtain ⟨lines, hdocs, hlines⟩ := lines_fieldDocs indentation f.docs
    have hdocsLength : (fieldDocs indentation f.docs).length = lines.flatten.length := by
      rw [← String.length_toList, hdocs]
    have hendLength : (";\n" : String).length = 2 := rfl
    simp only [documentedFields, String.length_append, hdocsLength] at hbound hsteps
    obtain ⟨left, hleft, hcomments⟩ := readFieldLines_comments hlines
      (readField (inner indentation))
      (indentation.toList ++ ((f.signature indentation).toList ++ (";\n".toList ++
        ((documentedFields indentation fs).toList ++ r))))
      ((documentedFields indentation fs).length + 1) steps (by omega)
    obtain ⟨left, rfl⟩ := Nat.exists_eq_succ_of_ne_zero (Nat.ne_zero_of_lt hleft)
    have hfield := readsBack_signature indentation h (hfs f List.mem_cons_self) (by omega)
    have hrest := ih (fun g hg => hfs g (List.mem_cons_of_mem f hg)) (by omega) left (by omega)
    simp only [documentedFields, String.toList_append, List.append_assoc, hdocs]
    rw [hcomments, readFieldLines_line hfield, hrest]
    rfl

theorem readObject_inline (h : ReadsShort inner bound) {fields : List Field} (hne : fields ≠ [])
    (hfields : ∀ f ∈ fields, f.type.WellNamed)
    (hbound : (joinWith "; " (fieldSignatures indentation fields)).length ≤ bound) (r : List Char) :
    readObject inner indentation
        (' ' :: ((joinWith "; " (fieldSignatures indentation fields)).toList ++
          (" \x7d".toList ++ r)))
      = some (.object (plainFields fields), r) := by
  rw [fieldSignatures_eq_map] at hbound ⊢
  rw [plainFields_eq_map]
  have hread := readSeparated_joinWith "; " (by decide) (fun s => .semicolon (' ' :: s)) hne
    fun f hf => readsBack_signature indentation h (hfields f hf)
      (Nat.le_trans (Text.length_le_joinWith "; " (List.mem_map_of_mem hf)) hbound)
  have hend : EndsType (" \x7d".toList ++ r) := .brace r
  have hlast : behind? "; " (" \x7d".toList ++ r) = none := rfl
  simp only [readObject, hread _ ⟨hend, hlast⟩, behind?_append, Option.bind_eq_bind,
    Option.bind_some]
  rfl

theorem behind?_deeper (r : List Char) :
    behind? (indentation ++ Layout.unit) ((indentation ++ "\x7d").toList ++ r) = none := by
  apply behind?_eq_none
  simp [String.toList_append, Layout.unit]

theorem readObject_documented (h : ReadsShort inner bound) {fields : List Field}
    (hfields : ∀ f ∈ fields, f.type.WellNamed)
    (hbound : (documentedFields (indentation ++ Layout.unit) fields).length ≤ bound)
    (r : List Char) :
    readObject inner indentation
        ('\n' :: ((documentedFields (indentation ++ Layout.unit) fields).toList ++
          ((indentation ++ "\x7d").toList ++ r)))
      = some (.object (plainFields fields), r) := by
  rw [plainFields_eq_map]
  have hread := readFieldLines_documentedFields h hfields hbound (behind?_deeper r)
    (((documentedFields (indentation ++ Layout.unit) fields).toList ++
      ((indentation ++ "\x7d").toList ++ r)).length + 1)
    (by rw [List.length_append, String.length_toList]; omega)
  simp only [readObject, hread, behind?_append, Option.bind_eq_bind, Option.bind_some]
  rfl

theorem readItem_object (h : ReadsShort inner bound) {fields : List Field}
    (hfields : ∀ f ∈ fields, f.type.WellNamed)
    (hbound : ((TypeTerm.object fields).text indentation).length ≤ bound) (r : List Char) :
    readItem inner indentation (((TypeTerm.object fields).text indentation).toList ++ r)
      = some ((TypeTerm.object fields).plain, r) := by
  rw [TypeTerm.text_object] at hbound ⊢
  split_ifs at hbound ⊢ with hempty hdocs
  · obtain rfl := List.isEmpty_iff.1 hempty
    rfl
  · simp only [String.length_append] at hbound
    have hinline : (joinWith "; " (fieldSignatures indentation fields)).length ≤ bound := by omega
    have hread := readObject_inline h (mt List.isEmpty_iff.2 hempty) hfields hinline r
    simp only [String.toList_append, List.append_assoc]
    exact hread
  · simp only [String.length_append] at hbound
    have hlines : (documentedFields (indentation ++ Layout.unit) fields).length ≤ bound := by omega
    have hread := readObject_documented h hfields hlines r
    simp only [String.toList_append, List.append_assoc] at hread ⊢
    exact hread

end Parts

end ClientGen.Script
