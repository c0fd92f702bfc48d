/-! Texts put together of pieces, and cut into lines: lines that end at a line feed, and lines
that end wherever a script engine would end a `//` comment. Blanks are the characters of the
Unicode property `White_Space`. -/
namespace ClientGen.Text

def isBlank (c : Char) : Bool :=
  let n := c.toNat
  (0x09 ≤ n && n ≤ 0x0D) || n == 0x20 || n == 0x85 || n == 0xA0 || n == 0x1680 ||
    (0x2000 ≤ n && n ≤ 0x200A) || n == 0x2028 || n == 0x2029 || n == 0x202F ||
    n == 0x205F || n == 0x3000

def trimEnd (cs : List Char) : List Char :=
  (cs.reverse.dropWhile isBlank).reverse

def trim (cs : List Char) : List Char :=
  trimEnd (cs.dropWhile isBlank)

def joinWith (sep : String) : List String → String
  | [] => ""
  | [s] => s
  | s :: t :: rest => s ++ sep ++ joinWith sep (t :: rest)

/-- Every `*/` becomes `*\/`, so the text can stand inside a block comment. -/
def guardCommentEnd : List Char → List Char
  | '*' :: '/' :: cs => '*' :: '\\' :: '/' :: guardCommentEnd cs
  | c :: cs => c :: guardCommentEnd cs
  | [] => []

def consLine (c : Char) : List (List Char) → List (List Char)
  | [] => [[c]]
  | l :: ls => (c :: l) :: ls

/-- Lines ended by a line feed, with the carriage return before it; a last line need not
be ended, and nothing after the last end makes no line. -/
def feedLines : List Char → List (List Char)
  | [] => []
  | '\n' :: cs => [] :: feedLines cs
  | '\r' :: '\n' :: cs => [] :: feedLines cs
  | c :: cs => consLine c (feedLines cs)

def endsScriptLine (c : Char) : Bool :=
  c == '\n' || c == '\r' || c == '\u2028' || c == '\u2029'

/-- The pieces between ends of script lines; CR LF is one end. Never empty. -/
def scriptLines : List Char → List (List Char)
  | [] => [[]]
  | '\r' :: '\n' :: cs => [] :: scriptLines cs
  | c :: cs => if endsScriptLine c then [] :: scriptLines cs else consLine c (scriptLines cs)

theorem mem_consLine {c : Char} {l : List Char} {ls : List (List Char)} (h : l ∈ consLine c ls) :
    (∃ t, l = c :: t ∧ (t = [] ∨ t ∈ ls)) ∨ l ∈ ls := by
  cases ls with
  | nil => simp only [consLine, List.mem_singleton] at h; exact .inl ⟨[], h, .inl rfl⟩
  | cons a as =>
    rcases List.mem_cons.1 h with h | h
    · exact .inl ⟨a, h, .inr (by simp)⟩
    · exact .inr (by simp [h])

theorem not_mem_of_mem_feedLines {s l : List Char} (h : l ∈ feedLines s) : '\n' ∉ l := by
  fun_induction feedLines s generalizing l with
  | case1 => cases h
  | case2 cs ih =>
    rcases List.mem_cons.1 h with rfl | h
    · simp
    · exact ih h
  | case3 cs ih =>
    rcases List.mem_cons.1 h with rfl | h
    · simp
    · exact ih h
  | case4 c cs hfeed _ ih =>
    rcases mem_consLine h with ⟨t, rfl, ht⟩ | h
    · intro hmem
      rcases List.mem_cons.1 hmem with hc | hmem
      · exact hfeed hc.symm
      · rcases ht with rfl | ht
        · cases hmem
        · exact ih ht hmem
    · exact ih h

theorem not_endsScriptLine_of_mem_scriptLines {s l : List Char} (h : l ∈ scriptLines s) :
    ∀ c ∈ l, endsScriptLine c = false := by
  fun_induction scriptLines s generalizing l with
  | case1 => simp_all
  | case2 cs ih =>
    rcases List.mem_cons.1 h with rfl | h
    · simp
    · exact ih h
  | case3 c cs _ hc ih =>
    rcases List.mem_cons.1 h with rfl | h
    · simp
    · exact ih h
  | case4 c cs _ hc ih =>
    rcases mem_consLine h with ⟨t, rfl, ht⟩ | h
    · intro d hd
      rcases List.mem_cons.1 hd with rfl | hd
      · simpa using hc
      · rcases ht with rfl | ht
        · cases hd
        · exact ih ht d hd
    · exact ih h

end ClientGen.Text
