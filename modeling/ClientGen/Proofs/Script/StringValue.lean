import ClientGen.Json.Scan
import ClientGen.Proofs.Text.Encoding
import ClientGen.Proofs.Text.Name
import ClientGen.Script.TypeText
import ClientGen.Text.Lines
import Mathlib.Logic.Function.Basic
/-! The value of a string literal in single quotes, and of an object key, as the grammar of
ECMAScript 2019 has it. A script is told apart from its value: the relations here take a literal
off the front of a text, give its code units and say what is left. Whatever follows a literal that
is written, it is read as the text it was written for and as nothing else. -/
namespace ClientGen.Script

open Json (hexDigit? hexUnit?)
open Text (codeUnits codeUnits_inj continuesIdentifier endsScriptLine isIdentifier pointUnits
  startsIdentifier)

def singleEscapes : List (Char × Char) :=
  [('\'', '\''), ('"', '"'), ('\\', '\\'), ('b', '\x08'), ('f', '\x0c'), ('n', '\n'), ('r', '\r'),
    ('t', '\t'), ('v', '\x0b')]

/-- Characters that begin a longer escape, or none at all: the code of a module is strict and has
no octal escapes. -/
def escapeMarks : List Char := ['0', '1', '2', '3', '4', '5', '6', '7', '8', '9', 'x', 'u']

/-- Behind a backslash, from a text to what is left of it, an escape gives these units. -/
inductive ReadsEscape : List Char → List UInt16 → List Char → Prop
  | single {c value : Char} (hc : (c, value) ∈ singleEscapes) (r : List Char) :
    ReadsEscape (c :: r) (pointUnits value.toNat) r
  | other {c : Char} (hc : c ∉ singleEscapes.map Prod.fst ∧ c ∉ escapeMarks)
      (hline : endsScriptLine c = false) (r : List Char) :
    ReadsEscape (c :: r) (pointUnits c.toNat) r
  | zero {r : List Char} (hr : ∀ c ∈ r.head?, c.isDigit = false) : ReadsEscape ('0' :: r) [0] r
  | hex {a b : Char} {m n : Nat} (ha : hexDigit? a = some m) (hb : hexDigit? b = some n)
      (r : List Char) :
    ReadsEscape ('x' :: a :: b :: r) [.ofNat (m * 16 + n)] r
  | unit {a b c d : Char} {n : Nat} (hn : hexUnit? a b c d = some n) (r : List Char) :
    ReadsEscape ('u' :: a :: b :: c :: d :: r) [.ofNat n] r
  | point {ds : List Char} {ns : List Nat} (hds : ds.mapM hexDigit? = some ns) (hne : ds ≠ [])
      (hbound : ns.foldl (· * 16 + ·) 0 ≤ 0x10FFFF) (r : List Char) :
    ReadsEscape ('u' :: '{' :: (ds ++ '}' :: r)) (pointUnits (ns.foldl (· * 16 + ·) 0)) r
  | lineEnd {c : Char} {r : List Char} (hc : endsScriptLine c = true)
      (hpair : ¬ (c = '\r' ∧ r.head? = some '\n')) :
    ReadsEscape (c :: r) [] r
  | lineEnds (r : List Char) : ReadsEscape ('\r' :: '\n' :: r) [] r

theorem eq_of_mem_singleEscapes {c a b : Char} (ha : (c, a) ∈ singleEscapes)
    (hb : (c, b) ∈ singleEscapes) : a = b := by
  have hall : ∀ p ∈ singleEscapes, ∀ q ∈ singleEscapes, p.1 = q.1 → p.2 = q.2 := by decide
  exact hall _ ha _ hb rfl

theorem not_mark_of_mem_singleEscapes {c value : Char} (h : (c, value) ∈ singleEscapes) :
    c ∉ escapeMarks ∧ endsScriptLine c = false := by
  have hall : ∀ p ∈ singleEscapes, p.1 ∉ escapeMarks ∧ endsScriptLine p.1 = false := by decide
  exact hall _ h

theorem readsEscape_single_iff {c value : Char} (hc : (c, value) ∈ singleEscapes)
    {s r : List Char} {units : List UInt16} :
    ReadsEscape (c :: s) units r ↔ units = pointUnits value.toNat ∧ r = s := by
  obtain ⟨hmark, hline⟩ := not_mark_of_mem_singleEscapes hc
  constructor
  · intro h
    cases h with
    | single hother => exact ⟨by rw [eq_of_mem_singleEscapes hother hc], rfl⟩
    | other hother => exact absurd (List.mem_map_of_mem (f := Prod.fst) hc) hother.1
    | zero => exact absurd (by decide) hmark
    | hex => exact absurd (by decide) hmark
    | unit => exact absurd (by decide) hmark
    | point => exact absurd (by decide) hmark
    | lineEnd hend => exact absurd (hend.symm.trans hline) (by decide)
    | lineEnds => exact absurd hline (by decide)
  · rintro ⟨rfl, rfl⟩
    exact .single hc r

/-- Behind the opening quote, up to the closing one and past it. The separators U+2028 and U+2029
may stand in a string as they are. -/
inductive ReadsCharacters : List Char → List UInt16 → List Char → Prop
  | closing (r : List Char) : ReadsCharacters ('\'' :: r) [] r
  | char {c : Char} {s r : List Char} {units : List UInt16}
      (hc : c ≠ '\'' ∧ c ≠ '\\' ∧ c ≠ '\n' ∧ c ≠ '\r') (rest : ReadsCharacters s units r) :
    ReadsCharacters (c :: s) (pointUnits c.toNat ++ units) r
  | escape {s t r : List Char} {escaped units : List UInt16} (hescape : ReadsEscape s escaped t)
      (rest : ReadsCharacters t units r) :
    ReadsCharacters ('\\' :: s) (escaped ++ units) r

inductive ReadsLiteral : List Char → List UInt16 → List Char → Prop
  | quoted {s r : List Char} {units : List UInt16} (h : ReadsCharacters s units r) :
    ReadsLiteral ('\'' :: s) units r

section Written

variable {units : List UInt16} {r : List Char}

theorem readsCharacters_closing_iff {s : List Char} :
    ReadsCharacters ('\'' :: s) units r ↔ units = [] ∧ r = s := by
  constructor
  · intro h
    cases h with
    | closing => exact ⟨rfl, rfl⟩
    | char hc => exact absurd rfl hc.1
  · rintro ⟨rfl, rfl⟩
    exact .closing r

theorem readsCharacters_char_iff {c : Char} (hc : c ≠ '\'' ∧ c ≠ '\\' ∧ c ≠ '\n' ∧ c ≠ '\r')
    {s : List Char} :
    ReadsCharacters (c :: s) units r ↔
      ∃ others, ReadsCharacters s others r ∧ units = pointUnits c.toNat ++ others := by
  constructor
  · intro h
    cases h with
    | closing => exact absurd rfl hc.1
    | char _ rest => exact ⟨_, rest, rfl⟩
    | escape => exact absurd rfl hc.2.1
  · rintro ⟨others, rest, rfl⟩
    exact .char hc rest

theorem readsCharacters_single_iff {c value : Char} (hc : (c, value) ∈ singleEscapes)
    {s : List Char} :
    ReadsCharacters ('\\' :: c :: s) units r ↔
      ∃ others, ReadsCharacters s others r ∧ units = pointUnits value.toNat ++ others := by
  constructor
  · intro h
    cases h with
    | char hbackslash => exact absurd rfl hbackslash.2.1
    | escape hescape rest =>
      obtain ⟨rfl, rfl⟩ := (readsEscape_single_iff hc).1 hescape
      exact ⟨_, rest, rfl⟩
  · rintro ⟨others, rest, rfl⟩
    exact .escape (.single hc s) rest

theorem readsCharacters_escapeChar_iff (c : Char) {s : List Char} :
    ReadsCharacters (escapeChar c ++ s) units r ↔
      ∃ others, ReadsCharacters s others r ∧ units = pointUnits c.toNat ++ others := by
  unfold escapeChar
  split_ifs with hbackslash hquote hfeed hreturn
  · subst hbackslash
    exact readsCharacters_single_iff (by decide)
  · subst hquote
    exact readsCharacters_single_iff (by decide)
  · subst hfeed
    exact readsCharacters_single_iff (by decide)
  · subst hreturn
    exact readsCharacters_single_iff (by decide)
  · exact readsCharacters_char_iff ⟨hquote, hbackslash, hfeed, hreturn⟩

theorem readsCharacters_value_iff (value : List Char) {t : List Char} :
    ReadsCharacters (value.flatMap escapeChar ++ '\'' :: t) units r ↔
      units = codeUnits value ∧ r = t := by
  induction value generalizing units with
  | nil => exact readsCharacters_closing_iff
  | cons c cs ih =>
    rw [List.flatMap_cons, List.append_assoc, readsCharacters_escapeChar_iff]
    constructor
    · rintro ⟨others, rest, rfl⟩
      obtain ⟨rfl, rfl⟩ := ih.1 rest
      exact ⟨rfl, rfl⟩
    · rintro ⟨rfl, rfl⟩
      exact ⟨codeUnits cs, ih.2 ⟨rfl, rfl⟩, rfl⟩

/-- In front of any text, what is written for a value is read as that value and no further. -/
theorem readsLiteral_textLiteral_iff (value : String) {t : List Char} :
    ReadsLiteral ((textLiteral value).toList ++ t) units r ↔
      units = codeUnits value.toList ∧ r = t := by
  have htext : (textLiteral value).toList ++ t =
      '\'' :: (value.toList.flatMap escapeChar ++ '\'' :: t) := by simp [textLiteral]
  rw [htext, ← readsCharacters_value_iff]
  exact ⟨fun h => by cases h; assumption, .quoted⟩

end Written

theorem mem_escapeChar {c d : Char} (h : d ∈ escapeChar c) : d ≠ '\n' ∧ d ≠ '\r' := by
  unfold escapeChar at h
  split_ifs at h with _ _ hfeed hreturn
  case neg =>
    obtain rfl := List.mem_singleton.1 h
    exact ⟨hfeed, hreturn⟩
  all_goals
    simp only [List.mem_cons, List.not_mem_nil, or_false] at h
    rcases h with rfl | rfl <;> decide

theorem mem_textLiteral {value : String} {c : Char} (h : c ∈ (textLiteral value).toList) :
    c ≠ '\n' ∧ c ≠ '\r' := by
  simp only [textLiteral, String.toList_ofList, List.mem_cons, List.mem_append, List.mem_flatMap,
    List.not_mem_nil, or_false] at h
  rcases h with rfl | ⟨d, _, hd⟩ | rfl
  · decide
  · exact mem_escapeChar hd
  · decide

theorem textLiteral_injective : Function.Injective textLiteral := by
  intro a b h
  have ha := (readsLiteral_textLiteral_iff a (t := [])).2 ⟨rfl, rfl⟩
  rw [h] at ha
  have hunits := ((readsLiteral_textLiteral_iff b).1 ha).1
  exact String.toList_injective (codeUnits_inj hunits)

/-- The properties `ID_Start` and `ID_Continue` of a version of Unicode. All versions agree on the
characters of ASCII. -/
structure IdentifierProperties where
  start : Char → Prop
  continues : Char → Prop
  start_iff : ∀ c : Char, c.toNat < 0x80 → (start c ↔ c.isAlpha = true)
  continues_iff : ∀ c : Char, c.toNat < 0x80 → (continues c ↔ c.isAlphanum = true ∨ c = '_')

def asciiProperties : IdentifierProperties where
  start c := c.isAlpha = true
  continues c := c.isAlphanum = true ∨ c = '_'
  start_iff _ _ := Iff.rfl
  continues_iff _ _ := Iff.rfl

/-- A whole text is the key of a property with this name. Of the other keys there are, numbers
begin with a digit or a point, computed ones with a bracket and some literals with a double quote;
a name with an escape in it has a backslash outside of quotes. -/
inductive KeyOf (unicode : IdentifierProperties) : List Char → List UInt16 → Prop
  | name {c : Char} {cs : List Char} (hstart : unicode.start c ∨ c = '$' ∨ c = '_')
      (hrest : ∀ d ∈ cs, unicode.continues d ∨ d = '$' ∨ d = '\u200c' ∨ d = '\u200d') :
    KeyOf unicode (c :: cs) (codeUnits (c :: cs))
  | literal {s : List Char} {units : List UInt16} (h : ReadsLiteral s units []) :
    KeyOf unicode s units

section Keys

variable {unicode : IdentifierProperties} {units : List UInt16}

theorem not_start_quote : ¬ (unicode.start '\'' ∨ '\'' = '$' ∨ '\'' = '_') := by
  rw [unicode.start_iff '\'' (by decide)]
  decide

theorem keyOf_of_isIdentifier {name : String} (h : isIdentifier name = true) :
    KeyOf unicode name.toList (codeUnits name.toList) := by
  obtain ⟨c, cs, hname, hstart⟩ := Text.exists_start_of_isIdentifier h
  have hchars := Text.continuesIdentifier_of_isIdentifier h
  rw [hname] at hchars ⊢
  refine .name ?_ fun d hd => ?_
  · simp only [startsIdentifier, Bool.or_eq_true, beq_iff_eq] at hstart
    rcases hstart with (halpha | hbar) | hdollar
    · have hascii := (Text.toNat_of_isAlphanum (by rw [Char.isAlphanum, halpha, Bool.true_or])).2
      exact .inl ((unicode.start_iff c hascii).2 halpha)
    · exact .inr (.inr hbar)
    · exact .inr (.inl hdollar)
  · have hd := hchars d (List.mem_cons_of_mem c hd)
    simp only [continuesIdentifier, Bool.or_eq_true, beq_iff_eq] at hd
    rcases hd with (halnum | rfl) | hdollar
    · exact .inl ((unicode.continues_iff d (Text.toNat_of_isAlphanum halnum).2).2 (.inl halnum))
    · exact .inl ((unicode.continues_iff '_' (by decide)).2 (.inr rfl))
    · exact .inr (.inl hdollar)

theorem keyOf_objectKey_iff (name : String) :
    KeyOf unicode (objectKey name).toList units ↔ units = codeUnits name.toList := by
  have hliteral : ReadsLiteral (textLiteral name).toList units [] ↔
      units = codeUnits name.toList := by
    simpa using @readsLiteral_textLiteral_iff units [] name []
  unfold objectKey
  split
  · next hname =>
    refine ⟨fun h => ?_, fun h => h ▸ keyOf_of_isIdentifier hname⟩
    obtain ⟨c, cs, hlist, hstart⟩ := Text.exists_start_of_isIdentifier hname
    rw [hlist] at h ⊢
    cases h with
    | name => rfl
    | literal h =>
      cases h
      cases hstart
  · rw [← hliteral]
    refine ⟨fun h => ?_, .literal⟩
    have htext : (textLiteral name).toList =
        '\'' :: (name.toList.flatMap escapeChar ++ ['\'']) := by simp [textLiteral]
    rw [htext] at h ⊢
    cases h with
    | name hstart => exact absurd hstart not_start_quote
    | literal h => exact h

end Keys

theorem objectKey_injective : Function.Injective objectKey := by
  intro a b h
  have ha : KeyOf asciiProperties (objectKey a).toList (codeUnits a.toList) :=
    (keyOf_objectKey_iff a).2 rfl
  rw [h] at ha
  exact String.toList_injective (codeUnits_inj ((keyOf_objectKey_iff b).1 ha))

/-- Literals and keys decode to what they were written for: a literal is taken off the front of
any text whole, gives its value and nothing else, and stays on its line. -/
theorem literals_decode :
    (∀ (value : String) (t : List Char) (units : List UInt16) (r : List Char),
      ReadsLiteral ((textLiteral value).toList ++ t) units r ↔
        units = codeUnits value.toList ∧ r = t) ∧
    (∀ value : String, '\n' ∉ (textLiteral value).toList ∧ '\r' ∉ (textLiteral value).toList) ∧
    Function.Injective codeUnits ∧ Function.Injective textLiteral ∧
    Function.Injective objectKey ∧
    ∀ (unicode : IdentifierProperties) (name : String) (units : List UInt16),
      KeyOf unicode (objectKey name).toList units ↔ units = codeUnits name.toList := by
  refine ⟨fun value t units r => readsLiteral_textLiteral_iff value, fun value => ⟨?_, ?_⟩,
    fun _ _ => codeUnits_inj, textLiteral_injective, objectKey_injective,
    fun unicode name units => keyOf_objectKey_iff name⟩
  · exact fun h => (mem_textLiteral h).1 rfl
  · exact fun h => (mem_textLiteral h).2 rfl

end ClientGen.Script
