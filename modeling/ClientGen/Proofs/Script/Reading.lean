import ClientGen.Proofs.Script.Outcome
import ClientGen.Proofs.Script.Comments
import ClientGen.Script.TypeText
import ClientGen.Text.Name
import ClientGen.Text.Lines
/-! Pieces of a script that begin and end in the code. The bracket check goes through such a
piece and leaves the brackets it opened; a reader that takes comments out leaves its code. Both
are told of characters, literals and comments here, and of whole texts by putting these
together. -/
namespace ClientGen.Script

open Text (endsScriptLine guardCommentEnd isIdentifier)

/-- In the code, with open brackets that wait for these closing ones, the innermost first. -/
def Scanner.awaiting (ks : List Char) : Scanner := ⟨ks.map (.bracket · 0), 0, .plain⟩

@[simp] theorem Scanner.unplaced_awaiting (ks : List Char) :
    (Scanner.awaiting ks).unplaced = Scanner.awaiting ks := by
  simp [Scanner.awaiting, Mode.unplaced, Function.comp_def]

/-- The piece `s` turns the open brackets `ks` into `ks'`, and `t` is left of it when its
comments are taken out. -/
structure Reads (ks s t ks' : List Char) : Prop where
  scans : (Scanner.awaiting ks).outcome s = some (.awaiting ks')
  reads : Reader.read {} s = ({}, t)

namespace Reads

theorem nil (ks : List Char) : Reads ks [] [] ks := ⟨by simp, rfl⟩

theorem append {ks ks' ks'' s t u v : List Char} (h : Reads ks s t ks') (g : Reads ks' u v ks'') :
    Reads ks (s ++ u) (t ++ v) ks'' where
  scans := by rw [Scanner.outcome_append, h.scans, Option.bind_some, g.scans]
  reads := by rw [Reader.read_append, h.reads, g.reads]

end Reads

theorem isClosing_iff {c : Char} : isClosing c = true ↔ c = ')' ∨ c = ']' ∨ c = '}' := by
  simp [isClosing, or_assoc]

/-- Characters that begin no comment and no literal, and are no brackets. -/
def isOrdinary (c : Char) : Bool :=
  !(c == '/' || c == '\'' || c == '"' || c == '`' || isClosing c || (closingOf? c).isSome)

theorem step_awaiting (ks : List Char) (c : Char) :
    (Scanner.awaiting ks).step c = (Scanner.awaiting ks).stepCode c := by
  cases ks <;> rfl

theorem outcome_slash (ks cs : List Char) :
    (Scanner.awaiting ks).outcome ('/' :: cs) =
      Scanner.outcome ⟨ks.map (.bracket · 0), 0, .slash⟩ cs :=
  Scanner.outcome_cons_of_step (by rw [step_awaiting]; rfl) cs

theorem Reads.ordinary (ks : List Char) {c : Char} (h : isOrdinary c = true) :
    Reads ks [c] [c] ks := by
  simp only [isOrdinary, Bool.not_eq_true', Bool.or_eq_false_iff, beq_eq_false_iff_ne,
    Option.isSome_eq_false_iff, Option.isNone_iff_eq_none] at h
  obtain ⟨⟨⟨⟨⟨hslash, hquote⟩, hdouble⟩, htick⟩, hclosing⟩, hopening⟩ := h
  constructor
  · have hstep : (Scanner.awaiting ks).step c = .ok ((Scanner.awaiting ks).pass c) := by
      rw [step_awaiting]
      simp [Scanner.stepCode, hslash, hquote, hdouble, htick, hclosing, hopening]
    rw [Scanner.outcome_cons_of_step hstep, Scanner.outcome_nil]
    simp [Scanner.pass, Scanner.awaiting, Mode.unplaced, Function.comp_def]
  · simp [Reader.read, Reader.next, Reader.nextInCode, Reader.kept, hslash, hquote, hdouble, htick]

theorem Reads.opening (ks : List Char) {c k : Char} (h : closingOf? c = some k) :
    Reads ks [c] [c] (k :: ks) := by
  have hc : c = '(' ∧ k = ')' ∨ c = '[' ∧ k = ']' ∨ c = '{' ∧ k = '}' := by
    unfold closingOf? at h
    split at h <;> simp_all [eq_comm]
  constructor
  · have hstep : (Scanner.awaiting ks).step c =
        .ok ((Scanner.awaiting ks).push (.bracket k 0)) := by
      rw [step_awaiting]
      rcases hc with ⟨rfl, rfl⟩ | ⟨rfl, rfl⟩ | ⟨rfl, rfl⟩ <;> rfl
    rw [Scanner.outcome_cons_of_step hstep, Scanner.outcome_nil]
    simp [Scanner.push, Scanner.awaiting, Mode.unplaced, Function.comp_def]
  · rcases hc with ⟨rfl, rfl⟩ | ⟨rfl, rfl⟩ | ⟨rfl, rfl⟩ <;> rfl

theorem Reads.closing (ks : List Char) {k : Char} (h : isClosing k = true) :
    Reads (k :: ks) [k] [k] ks := by
  have hk := isClosing_iff.1 h
  constructor
  · have hstep : (Scanner.awaiting (k :: ks)).step k = .ok (Scanner.awaiting ks) := by
      rcases hk with rfl | rfl | rfl <;> rfl
    rw [Scanner.outcome_cons_of_step hstep, Scanner.outcome_nil, Scanner.unplaced_awaiting]
  · rcases hk with rfl | rfl | rfl <;> rfl

def bracketsAfter : (ks : List Char) → List Char → Option (List Char)
  | ks, [] => some ks
  | ks, c :: cs =>
    if isOrdinary c then bracketsAfter ks cs
    else
      match closingOf? c with
      | some k => bracketsAfter (k :: ks) cs
      | none =>
        match ks with
        | k :: outer => if isClosing k ∧ c = k then bracketsAfter outer cs else none
        | [] => none

theorem Reads.of_brackets {ks s ks' : List Char} (h : bracketsAfter ks s = some ks') :
    Reads ks s s ks' := by
  induction s generalizing ks with
  | nil => cases h; exact .nil _
  | cons c cs ih =>
    unfold bracketsAfter at h
    split at h
    · next hc => exact (Reads.ordinary ks hc).append (ih h)
    · split at h
      · next k hk => exact (Reads.opening ks hk).append (ih h)
      · split at h
        · split at h
          · next hk =>
            obtain ⟨hclosing, rfl⟩ := hk
            exact (Reads.closing _ hclosing).append (ih h)
          · cases h
        · cases h

theorem bracketsAfter_of_ordinary {s : List Char} (h : ∀ c ∈ s, isOrdinary c = true)
    (ks : List Char) : bracketsAfter ks s = some ks := by
  induction s with
  | nil => rfl
  | cons c cs ih =>
    unfold bracketsAfter
    rw [if_pos (h c List.mem_cons_self)]
    exact ih fun d hd => h d (List.mem_cons_of_mem c hd)

def Ordinary (s : String) : Prop := ∀ c ∈ s.toList, isOrdinary c = true

instance (s : String) : Decidable (Ordinary s) :=
  List.decidableBAll (isOrdinary · = true) s.toList

namespace Ordinary

theorem append {s t : String} (hs : Ordinary s) (ht : Ordinary t) : Ordinary (s ++ t) := by
  intro c hc
  rw [String.toList_append] at hc
  exact (List.mem_append.1 hc).elim (hs c) (ht c)

theorem of_continuesIdentifier {s : String}
    (h : ∀ c ∈ s.toList, Text.continuesIdentifier c = true) : Ordinary s := by
  intro c hc
  have hc := h c hc
  have hne (d : Char) (hd : Text.continuesIdentifier d = false) : c ≠ d := by
    rintro rfl
    rw [hd] at hc
    cases hc
  have hopening : closingOf? c = none := by
    unfold closingOf?
    split
    · exact absurd rfl (hne '(' (by decide))
    · exact absurd rfl (hne '[' (by decide))
    · exact absurd rfl (hne '{' (by decide))
    · rfl
  simp [isOrdinary, isClosing, hopening, hne '/' (by decide), hne '\'' (by decide),
    hne '"' (by decide), hne '`' (by decide), hne ')' (by decide), hne ']' (by decide),
    hne '}' (by decide)]

theorem of_isIdentifier {s : String} (h : isIdentifier s = true) : Ordinary s :=
  of_continuesIdentifier (Text.continuesIdentifier_of_isIdentifier h)

end Ordinary

theorem outcome_quoted (fs : List Frame) (v rest : List Char) :
    Scanner.outcome ⟨fs, 0, .quoted '\'' false⟩ (v.flatMap escapeChar ++ rest) =
      Scanner.outcome ⟨fs, 0, .quoted '\'' false⟩ rest := by
  induction v with
  | nil => rfl
  | cons c cs ih =>
    rw [List.flatMap_cons, List.append_assoc, ← ih]
    unfold escapeChar
    split_ifs with h1 h2 h3 h4 <;>
      simp [Scanner.outcome, Scanner.run_cons, Scanner.step, Except.bind, *]

theorem read_quoted (v rest : List Char) :
    Reader.read ⟨.quoted '\'' false, []⟩ (v.flatMap escapeChar ++ rest) =
      ((Reader.read ⟨.quoted '\'' false, []⟩ rest).1,
        v.flatMap escapeChar ++ (Reader.read ⟨.quoted '\'' false, []⟩ rest).2) := by
  induction v with
  | nil => rfl
  | cons c cs ih =>
    rw [List.flatMap_cons, List.append_assoc]
    unfold escapeChar at ih ⊢
    split_ifs with h1 h2 h3 h4 <;> simp [Reader.read, Reader.next, Reader.kept, *]

theorem Reads.literal (ks : List Char) (value : String) :
    Reads ks (textLiteral value).toList (textLiteral value).toList ks := by
  simp only [textLiteral, String.toList_ofList]
  constructor
  · have hstep : (Scanner.awaiting ks).step '\'' =
        .ok { Scanner.awaiting ks with mode := .quoted '\'' false } := by
      rw [step_awaiting]
      rfl
    rw [Scanner.outcome_cons_of_step hstep]
    change Scanner.outcome ⟨ks.map (.bracket · 0), 0, .quoted '\'' false⟩ _ = _
    rw [outcome_quoted]
    exact congrArg some (Scanner.unplaced_awaiting ks)
  · rw [Reader.read_cons]
    change ((Reader.read ⟨.quoted '\'' false, []⟩ _).1,
      ['\''] ++ (Reader.read ⟨.quoted '\'' false, []⟩ _).2) = _
    rw [read_quoted]
    rfl

theorem outcome_lineComment (fs : List Frame) {body : List Char} (h : '\n' ∉ body)
    (rest : List Char) :
    Scanner.outcome ⟨fs, 0, .lineComment⟩ (body ++ rest) =
      Scanner.outcome ⟨fs, 0, .lineComment⟩ rest := by
  induction body with
  | nil => rfl
  | cons c cs ih =>
    rw [List.mem_cons, not_or] at h
    have hstep : Scanner.step ⟨fs, 0, .lineComment⟩ c = .ok ⟨fs, 0, .lineComment⟩ := by
      simp [Scanner.step, Ne.symm h.1]
    rw [List.cons_append, Scanner.outcome_cons_of_step hstep]
    exact ih h.2

theorem read_lineComment {body : List Char} (h : ∀ c ∈ body, endsScriptLine c = false)
    (rest : List Char) :
    Reader.read ⟨.lineComment, []⟩ (body ++ rest) = Reader.read ⟨.lineComment, []⟩ rest := by
  induction body with
  | nil => rfl
  | cons c cs ih =>
    have hc := h c List.mem_cons_self
    rw [List.cons_append, Reader.read_cons]
    simp only [Reader.next, Reader.kept, hc, Bool.false_eq_true, if_false, List.nil_append]
    exact ih fun d hd => h d (List.mem_cons_of_mem c hd)

theorem Reads.lineComment (ks : List Char) {body : List Char}
    (h : ∀ c ∈ body, endsScriptLine c = false) :
    Reads ks ('/' :: '/' :: (body ++ ['\n'])) ['\n'] ks := by
  have hfeed : '\n' ∉ body := fun hmem => absurd (h '\n' hmem) (by decide)
  constructor
  · rw [outcome_slash ks, Scanner.outcome_cons_of_step (t := ⟨_, 0, .lineComment⟩) rfl,
      outcome_lineComment _ hfeed]
    exact congrArg some (Scanner.unplaced_awaiting ks)
  · rw [Reader.read_cons, Reader.read_cons]
    change ((Reader.read ⟨.lineComment, []⟩ _).1, (Reader.read ⟨.lineComment, []⟩ _).2) = _
    rw [read_lineComment h]
    rfl

/-- Reads on in a block comment, behind a star or not; nothing is left where it ends. -/
def starAfter (star : Bool) : List Char → Option Bool
  | [] => some star
  | c :: cs => if star ∧ c = '/' then none else starAfter (c == '*') cs

theorem starAfter_append (star : Bool) (cs ds : List Char) :
    starAfter star (cs ++ ds) = (starAfter star cs).bind (starAfter · ds) := by
  induction cs generalizing star with
  | nil => rfl
  | cons c cs ih =>
    simp only [List.cons_append, starAfter]
    split
    · rfl
    · exact ih _

theorem starAfter_guardCommentEnd (star : Bool) {l : List Char}
    (h : star = true → l.head? ≠ some '/') :
    ∃ last, starAfter star (guardCommentEnd l) = some last := by
  fun_induction guardCommentEnd l generalizing star with
  | case1 cs ih =>
    obtain ⟨last, hl⟩ := ih false (by simp)
    exact ⟨last, by cases star <;> simp [starAfter, hl]⟩
  | case2 c cs hcs ih =>
    have hc : ¬(star = true ∧ c = '/') := by
      rintro ⟨hs, rfl⟩
      exact h hs rfl
    obtain ⟨last, hl⟩ := ih (c == '*') (by
      intro hstar hhead
      obtain ⟨ds, rfl⟩ := List.head?_eq_some_iff.1 hhead
      exact hcs ds (eq_of_beq hstar) rfl)
    exact ⟨last, by rw [starAfter, if_neg hc, hl]⟩
  | case3 => exact ⟨star, rfl⟩

/-- A comment goes on through a text unless a star and a slash are in it, or it begins with the
slash for the star in front of it. -/
theorem isSome_starAfter_iff (star : Bool) (l : List Char) :
    (starAfter star l).isSome = true ↔
      ¬ ['*', '/'] <:+: l ∧ ¬ (star = true ∧ l.head? = some '/') := by
  induction l generalizing star with
  | nil => simp [starAfter]
  | cons c cs ih =>
    have hpair : ['*', '/'] <+: c :: cs ↔ c = '*' ∧ cs.head? = some '/' := by
      cases cs <;> simp [List.cons_prefix_cons, eq_comm]
    rw [starAfter, List.infix_cons_iff, hpair]
    split
    · next h => simp [h]
    · next h =>
      rw [ih]
      simp only [List.head?_cons, Option.some.injEq, beq_iff_eq, h, not_false_eq_true, and_true,
        not_or]
      exact and_comm

theorem starAfter_closing {body : List Char} (h : ¬ ['*', '/'] <:+: body) :
    starAfter false (body ++ ['*']) = some true := by
  obtain ⟨last, hlast⟩ := Option.isSome_iff_exists.1
    ((isSome_starAfter_iff false body).2 ⟨h, by simp⟩)
  rw [starAfter_append, hlast]
  simp [starAfter]

theorem exists_of_starAfter {body : List Char} (h : starAfter false body = some true) :
    ∃ b, body = b ++ ['*'] ∧ ¬ ['*', '/'] <:+: b := by
  rcases List.eq_nil_or_concat body with rfl | ⟨b, c, rfl⟩
  · cases h
  · rw [List.concat_eq_append, starAfter_append] at h
    obtain ⟨star, hstar, hc⟩ := Option.bind_eq_some_iff.1 h
    have hopen := (isSome_starAfter_iff false b).1 (by rw [hstar]; rfl)
    simp only [starAfter] at hc
    split at hc
    · cases hc
    · exact ⟨b, by simpa using hc, hopen.1⟩

theorem outcome_blockComment (fs : List Frame) {star last : Bool} {body : List Char}
    (h : starAfter star body = some last) (rest : List Char) :
    Scanner.outcome ⟨fs, 0, .blockComment 0 star⟩ (body ++ rest) =
      Scanner.outcome ⟨fs, 0, .blockComment 0 last⟩ rest := by
  induction body generalizing star with
  | nil => cases h; rfl
  | cons c cs ih =>
    rw [starAfter] at h
    split at h
    · cases h
    · next hc =>
      have hstep : Scanner.step ⟨fs, 0, .blockComment 0 star⟩ c =
          .ok ⟨fs, lineAfter c 0, .blockComment 0 (c == '*')⟩ := by
        simp only [Scanner.step, if_neg hc]
      rw [List.cons_append, Scanner.outcome_cons_of_step hstep, Scanner.outcome_line, ih h]

theorem read_blockComment {star last : Bool} {body : List Char}
    (h : starAfter star body = some last) (rest : List Char) :
    Reader.read ⟨.blockComment star, []⟩ (body ++ rest) =
      Reader.read ⟨.blockComment last, []⟩ rest := by
  induction body generalizing star with
  | nil => cases h; rfl
  | cons c cs ih =>
    rw [starAfter] at h
    split at h
    · cases h
    · next hc =>
      rw [List.cons_append, Reader.read_cons]
      simp only [Reader.next, Reader.kept, if_neg hc, List.nil_append]
      exact ih h

theorem Reads.blockComment (ks : List Char) {body : List Char}
    (h : starAfter false body = some true) :
    Reads ks ('/' :: '*' :: (body ++ ['/'])) [] ks := by
  constructor
  · rw [outcome_slash ks, Scanner.outcome_cons_of_step (t := ⟨_, 0, .blockComment 0 false⟩) rfl,
      outcome_blockComment _ h]
    exact congrArg some (Scanner.unplaced_awaiting ks)
  · rw [Reader.read_cons, Reader.read_cons]
    change ((Reader.read ⟨.blockComment false, []⟩ _).1,
      (Reader.read ⟨.blockComment false, []⟩ _).2) = _
    rw [read_blockComment h]
    rfl

end ClientGen.Script
