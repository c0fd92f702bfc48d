import ClientGen.Json.Draft

namespace ClientGen.Json

/-- Text left over after a piece; at least one character of `s` was read. -/
abbrev Rest (s : List Char) := { r : List Char // r.length < s.length }

def Rest.within {s t : List Char} (h : t.length ≤ s.length) (r : Rest t) : Rest s :=
  ⟨r.1, Nat.lt_of_lt_of_le r.2 h⟩

def isBlank (c : Char) : Bool :=
  c == ' ' || c == '\n' || c == '\t' || c == '\r'

def dropBlanks (s : List Char) : List Char := s.dropWhile isBlank

theorem length_dropBlanks_le (s : List Char) : (dropBlanks s).length ≤ s.length :=
  (List.dropWhile_sublist isBlank).length_le

theorem length_lt_of_dropBlanks {s t : List Char} {c : Char} (h : dropBlanks s = c :: t) :
    t.length < s.length := by
  have := length_dropBlanks_le s
  rw [h] at this
  exact this

def word : List Char → List Char → Except Fault (List Char)
  | [], s => .ok s
  | _ :: _, [] => .error .incomplete
  | w :: ws, c :: cs => if c = w then word ws cs else .error .malformed

theorem length_le_of_word {w s r : List Char} (h : word w s = .ok r) : r.length ≤ s.length := by
  fun_induction word w s with
  | case1 => cases h; exact Nat.le_refl _
  | case2 => cases h
  | case3 w ws cs ih => exact Nat.le_succ_of_le (ih h)
  | case4 => cases h

def hexDigit? (c : Char) : Option Nat :=
  if c.isDigit then some (c.toNat - '0'.toNat)
  else if 'a' ≤ c ∧ c ≤ 'f' then some (c.toNat - 'a'.toNat + 10)
  else if 'A' ≤ c ∧ c ≤ 'F' then some (c.toNat - 'A'.toNat + 10)
  else none

def hexUnit? (a b c d : Char) : Option Nat := do
  let a ← hexDigit? a
  let b ← hexDigit? b
  let c ← hexDigit? c
  let d ← hexDigit? d
  return ((a * 16 + b) * 16 + c) * 16 + d

def isLeading (unit : Nat) : Bool := 0xD800 ≤ unit && unit ≤ 0xDBFF
def isTrailing (unit : Nat) : Bool := 0xDC00 ≤ unit && unit ≤ 0xDFFF

def pairChar (leading trailing : Nat) : Char :=
  Char.ofNat (0x10000 + (leading - 0xD800) * 0x400 + (trailing - 0xDC00))

def plainEscape? : Char → Option Char
  | '"' => some '"'
  | '\\' => some '\\'
  | '/' => some '/'
  | 'b' => some '\x08'
  | 'f' => some '\x0c'
  | 'n' => some '\n'
  | 'r' => some '\r'
  | 't' => some '\t'
  | _ => none

/-- A string that stops: a half pair seen before decides for the reader who wants it. -/
def stopString (lone : Bool) (f : Fault) : Except Flaw String × Option (List Char) :=
  let wanted := if lone then .malformed else f
  (.error ⟨wanted, some f, wanted⟩, none)

/-- The string after its opening quote. `lone` tells whether half of a surrogate pair was
seen without the other, `leading` holds a first half whose second must follow at once. The
four digits of an escape are looked for in the next four bytes of the text. -/
def string (acc : List Char) (lone : Bool) (leading : Option Nat) :
    List Char → Except Flaw String × Option (List Char)
  | [] => stopString lone .incomplete
  | '"' :: cs =>
    (if lone || leading.isSome then .error ⟨.malformed, none, .malformed⟩
      else .ok (String.ofList acc.reverse),
      some cs)
  | '\\' :: 'u' :: a :: b :: c :: d :: cs =>
    match hexUnit? a b c d with
    | none => stopString lone .malformed
    | some unit =>
      match leading with
      | some first =>
        if isTrailing unit then string (pairChar first unit :: acc) lone none cs
        else string acc true none cs
      | none =>
        if isLeading unit then string acc lone (some unit) cs
        else if isTrailing unit then string acc true none cs
        else string (Char.ofNat unit :: acc) lone none cs
  | '\\' :: 'u' :: cs =>
    stopString lone (if (String.ofList cs).utf8ByteSize < 4 then .incomplete else .malformed)
  | '\\' :: c :: cs =>
    match plainEscape? c with
    | none => stopString lone .malformed
    | some e => string (e :: acc) (lone || leading.isSome) none cs
  | ['\\'] => stopString lone .incomplete
  | c :: cs =>
    if c < ' ' then stopString lone .malformed
    else string (c :: acc) (lone || leading.isSome) none cs

theorem length_lt_of_string {acc s r : List Char} {lone : Bool} {leading : Option Nat}
    {key : Except Flaw String} (h : string acc lone leading s = (key, some r)) :
    r.length < s.length := by
  fun_induction string acc lone leading s with
  | case1 => cases h
  | case2 => cases h; simp
  | case3 => cases h
  | case4 | case5 | case6 | case7 | case8 => next ih => have := ih h; simp_all; omega
  | case9 => cases h
  | case10 => cases h
  | case11 => next ih => have := ih h; simp_all; omega
  | case12 => cases h
  | case13 => cases h
  | case14 => next ih => have := ih h; simp_all; omega

def digitValue (c : Char) : Nat := c.toNat - '0'.toNat

def digits (s : List Char) : List Nat := (s.takeWhile Char.isDigit).map digitValue

def afterDigits (s : List Char) : List Char := s.dropWhile Char.isDigit

theorem length_afterDigits_le (s : List Char) : (afterDigits s).length ≤ s.length :=
  (List.dropWhile_sublist Char.isDigit).length_le

/-- A number that ends the text too early counts as cut short only for a reader who wants
it; one who skips it misses a digit. -/
def missingDigit (s : List Char) : Flaw :=
  if s.isEmpty then ⟨.incomplete, some .malformed, .malformed⟩ else .hard .malformed

def someDigits (s : List Char) : Except Flaw (List Nat × List Char) :=
  if (digits s).isEmpty then .error (missingDigit s) else .ok (digits s, afterDigits s)

def wholePart : List Char → Except Flaw (List Nat × List Char)
  | '0' :: c :: cs => if c.isDigit then .error (.hard .malformed) else .ok ([0], c :: cs)
  | s => someDigits s

def fractionPart : List Char → Except Flaw (Option (List Nat) × List Char)
  | '.' :: cs => (someDigits cs).map fun p => (some p.1, p.2)
  | s => .ok (none, s)

def exponentPart : List Char → Except Flaw (Option (Bool × List Nat) × List Char)
  | c :: cs =>
    if c = 'e' ∨ c = 'E' then
      match cs with
      | '+' :: ds => (someDigits ds).map fun p => (some (false, p.1), p.2)
      | '-' :: ds => (someDigits ds).map fun p => (some (true, p.1), p.2)
      | ds => (someDigits ds).map fun p => (some (false, p.1), p.2)
    else .ok (none, c :: cs)
  | [] => .ok (none, [])

def unsignedNumeral (negative : Bool) (s : List Char) : Except Flaw (Numeral × List Char) := do
  let (whole, s) ← wholePart s
  let (fraction, s) ← fractionPart s
  let (exponent, s) ← exponentPart s
  return (⟨negative, whole, fraction, exponent⟩, s)

def numeral : List Char → Except Flaw (Numeral × List Char)
  | '-' :: cs => unsignedNumeral true cs
  | s => unsignedNumeral false s

theorem length_lt_of_someDigits {s : List Char} {p : List Nat × List Char}
    (h : someDigits s = .ok p) : p.2.length < s.length := by
  simp only [someDigits] at h
  split at h
  · cases h
  · next hd =>
    cases h
    cases s with
    | nil => simp [digits] at hd
    | cons c cs =>
      by_cases hc : c.isDigit = true
      · have := length_afterDigits_le cs
        simp only [afterDigits, List.dropWhile_cons, hc, if_true, List.length_cons] at this ⊢
        omega
      · simp [digits, hc] at hd

theorem length_lt_of_wholePart {s : List Char} {p : List Nat × List Char}
    (h : wholePart s = .ok p) : p.2.length < s.length := by
  unfold wholePart at h
  split at h
  · split at h
    · cases h
    · cases h; simp
  · exact length_lt_of_someDigits h

theorem length_lt_of_map_someDigits {s : List Char} {β : Type} {q : β × List Char}
    {f : List Nat × List Char → β × List Char} (h : (someDigits s).map f = .ok q)
    (hf : ∀ p, (f p).2 = p.2) : q.2.length < s.length := by
  cases hs : someDigits s with
  | error e => rw [hs] at h; cases h
  | ok p =>
    rw [hs] at h
    cases h
    rw [hf]
    exact length_lt_of_someDigits hs

theorem length_le_of_fractionPart {s : List Char} {p : Option (List Nat) × List Char}
    (h : fractionPart s = .ok p) : p.2.length ≤ s.length := by
  unfold fractionPart at h
  split at h
  · have hl := length_lt_of_map_someDigits h fun _ => rfl
    simp only [List.length_cons]
    omega
  · cases h; exact Nat.le_refl _

theorem length_le_of_exponentPart {s : List Char} {p : Option (Bool × List Nat) × List Char}
    (h : exponentPart s = .ok p) : p.2.length ≤ s.length := by
  unfold exponentPart at h
  split at h
  · split at h
    · split at h
      all_goals
        have hl := length_lt_of_map_someDigits h fun _ => rfl
        simp only [List.length_cons]
        omega
    · cases h; exact Nat.le_refl _
  · cases h; exact Nat.le_refl _

theorem length_lt_of_unsignedNumeral {s r : List Char} {negative : Bool} {n : Numeral}
    (h : unsignedNumeral negative s = .ok (n, r)) : r.length < s.length := by
  unfold unsignedNumeral at h
  cases hw : wholePart s with
  | error e => rw [hw] at h; cases h
  | ok p =>
    rw [hw] at h
    cases hf : fractionPart p.2 with
    | error e => simp [bind, Except.bind, hf] at h
    | ok q =>
      cases he : exponentPart q.2 with
      | error e => simp [bind, Except.bind, hf, he] at h
      | ok t =>
        simp only [bind, Except.bind, hf, he, pure, Except.pure] at h
        cases h
        have h1 := length_lt_of_wholePart hw
        have h2 := length_le_of_fractionPart hf
        have h3 := length_le_of_exponentPart he
        omega

theorem length_lt_of_numeral {s r : List Char} {n : Numeral} (h : numeral s = .ok (n, r)) :
    r.length < s.length := by
  unfold numeral at h
  split at h
  · exact Nat.lt_succ_of_lt (length_lt_of_unsignedNumeral h)
  · exact length_lt_of_unsignedNumeral h

end ClientGen.Json
