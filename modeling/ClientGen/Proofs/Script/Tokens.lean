import ClientGen.Proofs.Script.Grammar
import ClientGen.Proofs.Text.Split
/-! A script read token by token, and where it cannot be read any further. What is open at a place
is kept with the tokens in front of it, so every report is about a definite character of the
script, whatever line is given for it. -/
namespace ClientGen.Script

inductive Token
  | char (c : Char)
  | escaped (c : Char)
  | lineComment (body : List Char)
  | lastComment (body : List Char)
  | blockComment (body : List Char)
  | quoted (quote : Char) (items : List Char)
  /-- The two characters that open a hole of a template literal. -/
  | hole
deriving DecidableEq, Repr

namespace Token

def text : Token → List Char
  | char c => [c]
  | escaped c => ['\\', c]
  | lineComment body => '/' :: '/' :: (body ++ ['\n'])
  | lastComment body => '/' :: '/' :: body
  | blockComment body => '/' :: '*' :: (body ++ ['*', '/'])
  | quoted quote items => quote :: (items ++ [quote])
  | hole => ['$', '{']

def isLiteral : Token → Bool
  | quoted _ _ => true
  | _ => false

theorem text_ne_nil (t : Token) : t.text ≠ [] := by cases t <;> exact List.cons_ne_nil _ _

end Token

def textOf (ts : List Token) : List Char := ts.flatMap Token.text

/-- The line feeds of the string literals among the tokens. Each stands behind a backslash. -/
def literalFeeds (ts : List Token) : Nat := (textOf (ts.filter Token.isLiteral)).count '\n'

inductive Opening
  | bracket (closing : Char) (before : List Token)
  | template (before : List Token)
  | hole (before : List Token)
deriving DecidableEq, Repr

namespace Opening

def before : Opening → List Token
  | bracket _ before => before
  | template before => before
  | hole before => before

def closing : Opening → Char
  | bracket closing _ => closing
  | template _ => '`'
  | hole _ => '}'

end Opening

def inTemplate : List Opening → Bool
  | .template _ :: _ => true
  | _ => false

/-- Where the first list is open and these tokens are in front, the token is the next one if the
rest stands behind it, and then the last list is open. -/
inductive Step : List Opening → List Token → Token → List Char → List Opening → Prop
  | char {os ts c rest} (hos : inTemplate os = false)
      (hc : c ∉ ['/', '\'', '"', '`', '(', ')', '[', ']', '{', '}']) : Step os ts (.char c) rest os
  | slash {os ts rest} (hos : inTemplate os = false)
      (hrest : rest.head? ≠ some '/' ∧ rest.head? ≠ some '*') : Step os ts (.char '/') rest os
  | lineComment {os ts body rest} (hos : inTemplate os = false) (hbody : '\n' ∉ body) :
      Step os ts (.lineComment body) rest os
  | lastComment {os ts body} (hos : inTemplate os = false) (hbody : '\n' ∉ body) :
      Step os ts (.lastComment body) [] os
  | blockComment {os ts body rest} (hos : inTemplate os = false)
      (hbody : ¬ ['*', '/'] <:+: body) : Step os ts (.blockComment body) rest os
  | quoted {os ts quote items rest} (hos : inTemplate os = false) (hquote : quote ∈ ['\'', '"'])
      (hitems : QuotedItems quote items) : Step os ts (.quoted quote items) rest os
  | opening {os ts opening closing rest} (hos : inTemplate os = false)
      (hpair : (opening, closing) ∈ [('(', ')'), ('[', ']'), ('{', '}')]) :
      Step os ts (.char opening) rest (.bracket closing ts :: os)
  | closing {o os ts c rest} (hos : inTemplate (o :: os) = false) (hc : c ∈ [')', ']', '}'])
      (ho : o.closing = c) : Step (o :: os) ts (.char c) rest os
  | tick {os ts rest} (hos : inTemplate os = false) :
      Step os ts (.char '`') rest (.template ts :: os)
  | templateChar {os ts c rest} (hos : inTemplate os = true) (hc : c ∉ ['`', '\\', '$']) :
      Step os ts (.char c) rest os
  | escaped {os ts c rest} (hos : inTemplate os = true) : Step os ts (.escaped c) rest os
  | dollar {os ts rest} (hos : inTemplate os = true) (hrest : rest.head? ≠ some '{') :
      Step os ts (.char '$') rest os
  | hole {os ts rest} (hos : inTemplate os = true) : Step os ts .hole rest (.hole ts :: os)
  | templateEnd {before os ts rest} : Step (.template before :: os) ts (.char '`') rest os

/-- The tokens stand at the beginning of the code, the rest behind them, and the list is open
there, innermost first. -/
inductive Walk (code : List Char) : List Opening → List Token → List Char → Prop
  | start : Walk code [] [] code
  | snoc {os os' ts t rest} (h : Walk code os ts (t.text ++ rest)) (hstep : Step os ts t rest os') :
      Walk code os' (ts ++ [t]) rest

/-- With this rest of the script there is no next token, or the end comes too early. The report is
about the character behind the last list of tokens, and lacks its line. -/
inductive Stuck : List Opening → List Token → List Char → List Token → (Nat → Imbalance) → Prop
  | unexpected {os ts c rest} (hos : inTemplate os = false) (hc : c ∈ [')', ']', '}'])
      (hclosing : ∀ o ∈ os.head?, o.closing ≠ c) : Stuck os ts (c :: rest) ts (.unexpected c)
  | comment {os ts body} (hos : inTemplate os = false) (hbody : ¬ ['*', '/'] <:+: body) :
      Stuck os ts ('/' :: '*' :: body) ts .unterminatedComment
  /-- A line feed ends the literal, and so does the end of the script. -/
  | string {os ts quote items rest} (hos : inTemplate os = false) (hquote : quote ∈ ['\'', '"'])
      (hitems : QuotedItems quote items)
      (hrest : rest = [] ∨ rest = ['\\'] ∨ rest.head? = some '\n') :
      Stuck os ts (quote :: (items ++ rest)) ts .unterminatedString
  | missing {closing before os ts} :
      Stuck (.bracket closing before :: os) ts [] before (.missing closing)
  | template {before os ts rest} (hrest : rest = [] ∨ rest = ['\\']) :
      Stuck (.template before :: os) ts rest before .unterminatedTemplate
  | hole {before os ts} : Stuck (.hole before :: os) ts [] before .unterminatedTemplate

def FaultAt (code : List Char) (before : List Token) (report : Nat → Imbalance) : Prop :=
  ∃ os ts rest, Walk code os ts rest ∧ Stuck os ts rest before report

theorem Walk.textOf_append {code rest : List Char} {os : List Opening} {ts : List Token}
    (h : Walk code os ts rest) : textOf ts ++ rest = code := by
  induction h with
  | start => rfl
  | snoc _ _ ih => simpa [textOf] using ih

def Imbalance.IsAbout (c : Char) : Imbalance → Prop
  | unexpected closing _ => c = closing
  | missing closing _ => closingOf? c = some closing
  | unterminatedComment _ => c = '/'
  | unterminatedString _ => c = '\'' ∨ c = '"'
  | unterminatedTemplate _ => c = '`' ∨ c = '$'

namespace Opening

def report : Opening → Nat → Imbalance
  | bracket closing _ => .missing closing
  | template _ => .unterminatedTemplate
  | hole _ => .unterminatedTemplate

end Opening

theorem Walk.exists_of_mem {code rest : List Char} {os : List Opening} {ts : List Token}
    (h : Walk code os ts rest) {o : Opening} (ho : o ∈ os) (line : Nat) :
    ∃ c after, code = textOf o.before ++ c :: after ∧ (o.report line).IsAbout c := by
  induction h with
  | start => cases ho
  | @snoc os os' ts t rest hwalk hstep ih =>
    have hcode := hwalk.textOf_append
    cases hstep with
    | opening _ hpair =>
      rcases List.mem_cons.1 ho with rfl | ho
      · refine ⟨_, _, hcode.symm, ?_⟩
        simp only [List.mem_cons, Prod.mk.injEq, List.not_mem_nil, or_false] at hpair
        rcases hpair with ⟨rfl, rfl⟩ | ⟨rfl, rfl⟩ | ⟨rfl, rfl⟩ <;> rfl
      · exact ih ho
    | tick =>
      rcases List.mem_cons.1 ho with rfl | ho
      · exact ⟨_, _, hcode.symm, .inl rfl⟩
      · exact ih ho
    | hole =>
      rcases List.mem_cons.1 ho with rfl | ho
      · exact ⟨_, _, hcode.symm, .inr rfl⟩
      · exact ih ho
    | closing => exact ih (List.mem_cons_of_mem _ ho)
    | templateEnd => exact ih (List.mem_cons_of_mem _ ho)
    | _ => exact ih ho

theorem FaultAt.exists_char {code : List Char} {before : List Token} {report : Nat → Imbalance}
    (h : FaultAt code before report) (line : Nat) :
    ∃ c after, code = textOf before ++ c :: after ∧ (report line).IsAbout c := by
  obtain ⟨os, ts, rest, hwalk, hstuck⟩ := h
  have hcode := hwalk.textOf_append
  cases hstuck with
  | unexpected => exact ⟨_, _, hcode.symm, rfl⟩
  | comment => exact ⟨_, _, hcode.symm, rfl⟩
  | string _ hquote => exact ⟨_, _, hcode.symm, by simpa [Imbalance.IsAbout] using hquote⟩
  | missing => exact hwalk.exists_of_mem List.mem_cons_self line
  | template => exact hwalk.exists_of_mem List.mem_cons_self line
  | hole => exact hwalk.exists_of_mem List.mem_cons_self line

def Proceeds (os : List Opening) (ts : List Token) (cs : List Char) : Prop :=
  (∃ t rest os', cs = t.text ++ rest ∧ Step os ts t rest os') ∨
    ∃ before report, Stuck os ts cs before report

section
variable {os : List Opening} {ts : List Token}

theorem proceeds_slash (hos : inTemplate os = false) (cs : List Char) :
    Proceeds os ts ('/' :: cs) := by
  by_cases hline : cs.head? = some '/'
  · obtain ⟨body, rfl⟩ := List.head?_eq_some_iff.1 hline
    by_cases hfeed : '\n' ∈ body
    · obtain ⟨body, rest, rfl, hbody⟩ := List.eq_append_cons_of_mem hfeed
      exact .inl ⟨_, rest, os, by simp [Token.text], .lineComment hos hbody⟩
    · exact .inl ⟨_, [], os, by simp [Token.text], .lastComment hos hfeed⟩
  by_cases hblock : cs.head? = some '*'
  · obtain ⟨body, rfl⟩ := List.head?_eq_some_iff.1 hblock
    cases hcut : Text.cutFirst ['*', '/'] body with
    | none => exact .inr ⟨ts, _, .comment hos (Text.not_infix_of_cutFirst_eq_none hcut)⟩
    | some p =>
      obtain ⟨inner, rest⟩ := p
      have hbody := Text.not_infix_of_cutFirst (List.cons_ne_nil _ _) hcut
      rw [Text.append_of_cutFirst hcut]
      exact .inl ⟨_, rest, os, by simp [Token.text], .blockComment hos hbody⟩
  · exact .inl ⟨_, cs, os, rfl, .slash hos ⟨hline, hblock⟩⟩

theorem exists_quotedItems (quote : Char) : ∀ cs : List Char, ∃ items rest, cs = items ++ rest ∧
    QuotedItems quote items ∧
      (rest.head? = some quote ∨ rest = [] ∨ rest = ['\\'] ∨ rest.head? = some '\n')
  | [] => ⟨[], [], rfl, .nil, .inr (.inl rfl)⟩
  | c :: cs => by
    by_cases hquote : c = quote
    · exact ⟨[], c :: cs, rfl, .nil, .inl (congrArg some hquote)⟩
    by_cases hfeed : c = '\n'
    · exact ⟨[], c :: cs, rfl, .nil, .inr (.inr (.inr (congrArg some hfeed)))⟩
    by_cases hslash : c = '\\'
    · subst hslash
      cases cs with
      | nil => exact ⟨[], ['\\'], rfl, .nil, .inr (.inr (.inl rfl))⟩
      | cons d cs =>
        obtain ⟨items, rest, rfl, hitems, hrest⟩ := exists_quotedItems quote cs
        exact ⟨'\\' :: d :: items, rest, rfl, .escaped d hitems, hrest⟩
    · obtain ⟨items, rest, rfl, hitems, hrest⟩ := exists_quotedItems quote cs
      exact ⟨c :: items, rest, rfl, .char ⟨hslash, hfeed, hquote⟩ hitems, hrest⟩

theorem proceeds_quote (hos : inTemplate os = false) {quote : Char} (hquote : quote ∈ ['\'', '"'])
    (cs : List Char) : Proceeds os ts (quote :: cs) := by
  obtain ⟨items, rest, rfl, hitems, hclose | hrest⟩ := exists_quotedItems quote cs
  · obtain ⟨rest, rfl⟩ := List.head?_eq_some_iff.1 hclose
    exact .inl ⟨_, rest, os, by simp [Token.text], .quoted hos hquote hitems⟩
  · exact .inr ⟨ts, _, .string hos hquote hitems hrest⟩

theorem proceeds_closing (hos : inTemplate os = false) {c : Char} (hc : c ∈ [')', ']', '}'])
    (cs : List Char) : Proceeds os ts (c :: cs) := by
  by_cases hclosing : ∃ o ∈ os.head?, o.closing = c
  · obtain ⟨o, ho, hclosing⟩ := hclosing
    obtain ⟨os, rfl⟩ := List.head?_eq_some_iff.1 ho
    exact .inl ⟨_, cs, os, rfl, .closing hos hc hclosing⟩
  · exact .inr ⟨ts, _, .unexpected hos hc fun o ho heq => hclosing ⟨o, ho, heq⟩⟩

theorem proceeds_code (hos : inTemplate os = false) (c : Char) (cs : List Char) :
    Proceeds os ts (c :: cs) := by
  by_cases hslash : c = '/'
  · exact hslash ▸ proceeds_slash hos cs
  by_cases hquote : c ∈ ['\'', '"']
  · exact proceeds_quote hos hquote cs
  by_cases htick : c = '`'
  · exact htick ▸ .inl ⟨_, cs, _, rfl, .tick hos⟩
  by_cases hclosing : c ∈ [')', ']', '}']
  · exact proceeds_closing hos hclosing cs
  by_cases hopening : c ∈ ['(', '[', '{']
  · obtain ⟨closing, hpair⟩ : ∃ closing, (c, closing) ∈ [('(', ')'), ('[', ']'), ('{', '}')] := by
      simpa [exists_or] using hopening
    exact .inl ⟨_, cs, _, rfl, .opening hos hpair⟩
  · refine .inl ⟨.char c, cs, os, rfl, .char hos ?_⟩
    simp_all

theorem proceeds_template (hos : inTemplate os = true) (cs : List Char) : Proceeds os ts cs := by
  obtain ⟨before, outer, rfl⟩ : ∃ before outer, os = .template before :: outer := by
    rcases os with _ | ⟨_ | before | _, outer⟩ <;> first | exact ⟨before, outer, rfl⟩ | cases hos
  cases cs with
  | nil => exact .inr ⟨before, _, .template (.inl rfl)⟩
  | cons c cs =>
    by_cases hslash : c = '\\'
    · subst hslash
      cases cs with
      | nil => exact .inr ⟨before, _, .template (.inr rfl)⟩
      | cons d cs => exact .inl ⟨.escaped d, cs, _, rfl, .escaped hos⟩
    by_cases htick : c = '`'
    · exact htick ▸ .inl ⟨_, cs, outer, rfl, .templateEnd⟩
    by_cases hdollar : c = '$'
    · subst hdollar
      by_cases hbrace : cs.head? = some '{'
      · obtain ⟨cs, rfl⟩ := List.head?_eq_some_iff.1 hbrace
        exact .inl ⟨.hole, cs, _, rfl, .hole hos⟩
      · exact .inl ⟨_, cs, _, rfl, .dollar hos hbrace⟩
    · exact .inl ⟨.char c, cs, _, rfl, .templateChar hos (by simp [hslash, htick, hdollar])⟩

/-- No place but the end of a balanced script is without a next token and without a fault. -/
theorem proceeds_or_end (os : List Opening) (ts : List Token) (cs : List Char) :
    Proceeds os ts cs ∨ os = [] ∧ cs = [] := by
  cases hos : inTemplate os with
  | true => exact .inl (proceeds_template hos cs)
  | false =>
    cases cs with
    | cons c cs => exact .inl (proceeds_code hos c cs)
    | nil =>
      rcases os with _ | ⟨⟨closing, before⟩ | before | before, os⟩
      · exact .inr ⟨rfl, rfl⟩
      · exact .inl (.inr ⟨before, _, .missing⟩)
      · cases hos
      · exact .inl (.inr ⟨before, _, .hole⟩)

end

/-- The reading of a script ends behind its last token, with nothing open, or at a fault. -/
theorem Walk.fault_or_end {code : List Char} {os : List Opening} {ts : List Token}
    {rest : List Char} (h : Walk code os ts rest) :
    (∃ before report, FaultAt code before report) ∨ ∃ ts, Walk code [] ts [] := by
  induction hn : rest.length using Nat.strongRecOn generalizing os ts rest with
  | ind n ih =>
    rcases proceeds_or_end os ts rest with hproceeds | ⟨rfl, rfl⟩
    · obtain ⟨t, rest', os', rfl, hstep⟩ | ⟨before, report, hstuck⟩ := hproceeds
      · have hlt : rest'.length < n := by
          have hpos := List.length_pos_iff.2 t.text_ne_nil
          rw [List.length_append] at hn
          omega
        exact ih _ hlt (h.snoc hstep) rfl
      · exact .inl ⟨before, report, os, ts, rest, h, hstuck⟩
    · exact .inr ⟨ts, h⟩

end ClientGen.Script
