import ClientGen.Proofs.Script.Grammar
import ClientGen.Proofs.Script.Reading
/-! What the bracket check does with a piece of a script: the state it is in behind the piece, with
the lines it counted. Each piece is told for any open frames and any text behind it. -/
namespace ClientGen.Script

def partOf : List Frame → Part
  | [] => .code true
  | .template _ :: _ => .template
  | _ :: _ => .code false

namespace Scanner

def result (s : Scanner) (cs : List Char) : Except Imbalance Unit := (s.run cs).bind verdict

theorem result_cons {s t : Scanner} {c : Char} (h : s.step c = .ok t) (cs : List Char) :
    s.result (c :: cs) = t.result cs := by
  simp only [result, run_cons, h, Except.bind]

theorem result_of_error {s : Scanner} {c : Char} {i : Imbalance} (h : s.step c = .error i)
    (cs : List Char) : s.result (c :: cs) = .error i := by
  simp only [result, run_cons, h, Except.bind]

end Scanner

theorem lineAfter_eq (c : Char) (line : Nat) : lineAfter c line = line + [c].count '\n' := by
  unfold lineAfter
  by_cases hc : c = '\n' <;> simp [hc]

section
variable {fs : List Frame} {last : Bool} {line : Nat} {cs : List Char}

theorem step_code (hfs : partOf fs = .code last) (line : Nat) (c : Char) :
    Scanner.step ⟨fs, line, .plain⟩ c = Scanner.stepCode ⟨fs, line, .plain⟩ c := by
  rcases fs with _ | ⟨_ | _ | _, _⟩ <;> first | rfl | cases hfs

theorem exists_of_partOf_template (hfs : partOf fs = .template) :
    ∃ line outer, fs = .template line :: outer := by
  rcases fs with _ | ⟨_ | line | _, outer⟩ <;> first | exact ⟨line, outer, rfl⟩ | cases hfs

theorem step_char (hfs : partOf fs = .code last) {c : Char}
    (hc : c ∉ ['/', '\'', '"', '`', '(', ')', '[', ']', '{', '}']) :
    Scanner.step ⟨fs, line, .plain⟩ c = .ok ⟨fs, lineAfter c line, .plain⟩ := by
  simp only [List.mem_cons, List.not_mem_nil, or_false, not_or] at hc
  have hopening : closingOf? c = none := by
    unfold closingOf?
    split <;> simp_all
  rw [step_code hfs]
  simp [Scanner.stepCode, Scanner.pass, isClosing, hopening, hc]

theorem step_opening (hfs : partOf fs = .code last) {opening closing : Char}
    (hpair : (opening, closing) ∈ [('(', ')'), ('[', ']'), ('{', '}')]) :
    Scanner.step ⟨fs, line, .plain⟩ opening = .ok ⟨.bracket closing line :: fs, line, .plain⟩ := by
  rw [step_code hfs]
  simp only [List.mem_cons, Prod.mk.injEq, List.not_mem_nil, or_false] at hpair
  rcases hpair with ⟨rfl, rfl⟩ | ⟨rfl, rfl⟩ | ⟨rfl, rfl⟩ <;> rfl

theorem stepCode_closing {mode : Mode} {c : Char} (hc : c ∈ [')', ']', '}']) :
    Scanner.stepCode ⟨fs, line, mode⟩ c =
      match close? c fs with
      | some frames => .ok ⟨frames, line, .plain⟩
      | none => .error (.unexpected c line) := by
  simp only [List.mem_cons, List.not_mem_nil, or_false] at hc
  rcases hc with rfl | rfl | rfl <;> rfl

theorem step_quote (hfs : partOf fs = .code last) {quote : Char} (hquote : quote ∈ ['\'', '"']) :
    Scanner.step ⟨fs, line, .plain⟩ quote = .ok ⟨fs, line, .quoted quote false⟩ := by
  rw [step_code hfs]
  simp only [List.mem_cons, List.not_mem_nil, or_false] at hquote
  rcases hquote with rfl | rfl <;> rfl

theorem step_templateChar (hfs : partOf fs = .template) {c : Char} (hc : c ∉ ['`', '\\', '$']) :
    Scanner.step ⟨fs, line, .plain⟩ c = .ok ⟨fs, lineAfter c line, .plain⟩ := by
  obtain ⟨opened, outer, rfl⟩ := exists_of_partOf_template hfs
  simp only [List.mem_cons, List.not_mem_nil, or_false, not_or] at hc
  simp [Scanner.step, Scanner.stepPlain, Scanner.stepTemplate, Scanner.pass, hc]

/-- A slash or a dollar sign that begins nothing leaves no trace. -/
theorem result_plain {mode : Mode}
    (hend : Scanner.verdict ⟨fs, line, mode⟩ = Scanner.verdict ⟨fs, line, .plain⟩)
    (hstep : ∀ c ∈ cs.head?,
      Scanner.step ⟨fs, line, mode⟩ c = Scanner.step ⟨fs, line, .plain⟩ c) :
    Scanner.result ⟨fs, line, mode⟩ cs = Scanner.result ⟨fs, line, .plain⟩ cs := by
  cases cs with
  | nil => exact hend
  | cons c cs =>
    have hc := hstep c rfl
    simp only [Scanner.result, Scanner.run_cons, hc]

theorem result_slash (hfs : partOf fs = .code last)
    (hcs : cs.head? ≠ some '/' ∧ cs.head? ≠ some '*') :
    Scanner.result ⟨fs, line, .plain⟩ ('/' :: cs) = Scanner.result ⟨fs, line, .plain⟩ cs := by
  have hstep : Scanner.step ⟨fs, line, .plain⟩ '/' = .ok ⟨fs, line, .slash⟩ :=
    step_code hfs line '/'
  rw [Scanner.result_cons hstep]
  refine result_plain ?_ fun c hc => ?_
  · rcases fs with _ | ⟨_ | _ | _, _⟩ <;> rfl
  · rw [Option.mem_def] at hc
    simp only [hc, ne_eq, Option.some.injEq] at hcs
    simp only [Scanner.step, if_neg hcs.1, if_neg hcs.2]
    rfl

theorem result_comment (hfs : partOf fs = .code last) {c : Char} {mode : Mode}
    (hmode : Scanner.step ⟨fs, line, .slash⟩ c = .ok ⟨fs, line, mode⟩) :
    Scanner.result ⟨fs, line, .plain⟩ ('/' :: c :: cs) = Scanner.result ⟨fs, line, mode⟩ cs := by
  have hslash : Scanner.step ⟨fs, line, .plain⟩ '/' = .ok ⟨fs, line, .slash⟩ :=
    step_code hfs line '/'
  rw [Scanner.result_cons hslash, Scanner.result_cons hmode]

theorem verdict_lineComment (fs : List Frame) (line : Nat) :
    Scanner.verdict ⟨fs, line, .lineComment⟩ = Scanner.verdict ⟨fs, line, .plain⟩ := by
  rcases fs with _ | ⟨_ | _ | _, _⟩ <;> rfl

theorem result_lineBody {body : List Char} (hbody : '\n' ∉ body) :
    Scanner.result ⟨fs, line, .lineComment⟩ (body ++ cs) =
      Scanner.result ⟨fs, line, .lineComment⟩ cs := by
  induction body with
  | nil => rfl
  | cons c body ih =>
    rw [List.mem_cons, not_or] at hbody
    have hstep : Scanner.step ⟨fs, line, .lineComment⟩ c = .ok ⟨fs, line, .lineComment⟩ := by
      simp only [Scanner.step, if_neg (Ne.symm hbody.1)]
    rw [List.cons_append, Scanner.result_cons hstep, ih hbody.2]

theorem result_blockBody {opened : Nat} {star final : Bool} {body : List Char}
    (h : starAfter star body = some final) :
    Scanner.result ⟨fs, line, .blockComment opened star⟩ (body ++ cs) =
      Scanner.result ⟨fs, line + body.count '\n', .blockComment opened final⟩ cs := by
  induction body generalizing star line with
  | nil => cases h; rfl
  | cons c body ih =>
    rw [starAfter] at h
    split at h
    · cases h
    · next hc =>
      have hstep : Scanner.step ⟨fs, line, .blockComment opened star⟩ c =
          .ok ⟨fs, lineAfter c line, .blockComment opened (c == '*')⟩ := by
        simp only [Scanner.step, if_neg hc]
      rw [List.cons_append, Scanner.result_cons hstep, ih h, lineAfter_eq, Nat.add_assoc,
        ← List.count_append, List.singleton_append]

theorem result_blockBody_closing {opened : Nat} {body : List Char}
    (hbody : ¬ ['*', '/'] <:+: body) :
    Scanner.result ⟨fs, line, .blockComment opened false⟩ (body ++ '*' :: '/' :: cs) =
      Scanner.result ⟨fs, line + body.count '\n', .plain⟩ cs := by
  have hstar := starAfter_closing hbody
  have hsplit : body ++ '*' :: '/' :: cs = (body ++ ['*']) ++ '/' :: cs := by simp
  have hfeeds : (body ++ ['*']).count '\n' = body.count '\n' := by simp
  have hend : Scanner.step ⟨fs, line + body.count '\n', .blockComment opened true⟩ '/' =
      .ok ⟨fs, line + body.count '\n', .plain⟩ := rfl
  rw [hsplit, result_blockBody hstar, hfeeds, Scanner.result_cons hend]

/-- The line feeds of a string literal are not counted. -/
theorem result_quotedItems {quote : Char} {items : List Char} (h : QuotedItems quote items) :
    Scanner.result ⟨fs, line, .quoted quote false⟩ (items ++ cs) =
      Scanner.result ⟨fs, line, .quoted quote false⟩ cs := by
  induction h with
  | nil => rfl
  | @escaped c s _ ih =>
    have hslash : Scanner.step ⟨fs, line, .quoted quote false⟩ '\\' =
        .ok ⟨fs, line, .quoted quote true⟩ := rfl
    have hc : Scanner.step ⟨fs, line, .quoted quote true⟩ c =
        .ok ⟨fs, line, .quoted quote false⟩ := rfl
    rw [List.cons_append, List.cons_append, Scanner.result_cons hslash, Scanner.result_cons hc, ih]
  | @char c s hc _ ih =>
    have hstep : Scanner.step ⟨fs, line, .quoted quote false⟩ c =
        .ok ⟨fs, line, .quoted quote false⟩ := by
      simp only [Scanner.step, if_neg hc.1, if_neg hc.2.1, if_neg hc.2.2]
    rw [List.cons_append, Scanner.result_cons hstep, ih]

theorem result_quoted (hfs : partOf fs = .code last) {quote : Char} (hquote : quote ∈ ['\'', '"'])
    {items : List Char} (hitems : QuotedItems quote items) :
    Scanner.result ⟨fs, line, .plain⟩ (quote :: (items ++ quote :: cs)) =
      Scanner.result ⟨fs, line, .plain⟩ cs := by
  have hclose : Scanner.step ⟨fs, line, .quoted quote false⟩ quote = .ok ⟨fs, line, .plain⟩ := by
    simp only [List.mem_cons, List.not_mem_nil, or_false] at hquote
    rcases hquote with rfl | rfl <;> rfl
  rw [Scanner.result_cons (step_quote hfs hquote), result_quotedItems hitems,
    Scanner.result_cons hclose]

theorem result_escaped (hfs : partOf fs = .template) (c : Char) :
    Scanner.result ⟨fs, line, .plain⟩ ('\\' :: c :: cs) =
      Scanner.result ⟨fs, lineAfter c line, .plain⟩ cs := by
  obtain ⟨opened, outer, rfl⟩ := exists_of_partOf_template hfs
  have hslash : Scanner.step ⟨.template opened :: outer, line, .plain⟩ '\\' =
      .ok ⟨.template opened :: outer, line, .escaped⟩ := rfl
  have hc : Scanner.step ⟨.template opened :: outer, line, .escaped⟩ c =
      .ok ⟨.template opened :: outer, lineAfter c line, .plain⟩ := rfl
  rw [Scanner.result_cons hslash, Scanner.result_cons hc]

theorem result_dollar (hfs : partOf fs = .template) (hcs : cs.head? ≠ some '{') :
    Scanner.result ⟨fs, line, .plain⟩ ('$' :: cs) = Scanner.result ⟨fs, line, .plain⟩ cs := by
  obtain ⟨opened, outer, rfl⟩ := exists_of_partOf_template hfs
  have hstep : Scanner.step ⟨.template opened :: outer, line, .plain⟩ '$' =
      .ok ⟨.template opened :: outer, line, .dollar⟩ := rfl
  rw [Scanner.result_cons hstep]
  refine result_plain rfl fun c hc => ?_
  have hne : c ≠ '{' := by
    rintro rfl
    exact hcs hc
  simp only [Scanner.step, if_neg hne]
  rfl

theorem result_hole (hfs : partOf fs = .template) :
    Scanner.result ⟨fs, line, .plain⟩ ('$' :: '{' :: cs) =
      Scanner.result ⟨.hole line :: fs, line, .plain⟩ cs := by
  obtain ⟨opened, outer, rfl⟩ := exists_of_partOf_template hfs
  have hdollar : Scanner.step ⟨.template opened :: outer, line, .plain⟩ '$' =
      .ok ⟨.template opened :: outer, line, .dollar⟩ := rfl
  have hopen : Scanner.step ⟨.template opened :: outer, line, .dollar⟩ '{' =
      .ok ⟨.hole line :: .template opened :: outer, line, .plain⟩ := rfl
  rw [Scanner.result_cons hdollar, Scanner.result_cons hopen]

end

end ClientGen.Script
