import ClientGen.Proofs.Script.Scanning
/-! The bracket check goes through every script of the grammar: each token takes it back to the
code or the template literal it stood in, and a bracketed text back to what is around it. -/
namespace ClientGen.Script

namespace Scanner

def Accepts (s : Scanner) (cs : List Char) : Prop :=
  ∃ t, s.outcome cs = some t ∧ t.verdict = .ok ()

theorem verdict_unplaced (s : Scanner) : s.unplaced.verdict = .ok () ↔ s.verdict = .ok () := by
  obtain ⟨frames, line, mode⟩ := s
  cases mode <;> rcases frames with _ | ⟨_ | _ | _, _⟩ <;> simp [verdict, Mode.unplaced]

theorem accepts_nil (s : Scanner) : s.Accepts [] ↔ s.verdict = .ok () := by
  simp [Accepts, verdict_unplaced]

theorem accepts_cons {s t : Scanner} {c : Char} (h : s.step c = .ok t) (cs : List Char) :
    s.Accepts (c :: cs) ↔ t.Accepts cs := by
  simp only [Accepts, outcome_cons_of_step h]

theorem Accepts.exists_step {s : Scanner} {c : Char} {cs : List Char} (h : s.Accepts (c :: cs)) :
    ∃ t, s.step c = .ok t ∧ t.Accepts cs := by
  cases hs : s.step c with
  | ok t => exact ⟨t, rfl, (accepts_cons hs cs).1 h⟩
  | error i =>
    obtain ⟨u, hu, -⟩ := h
    simp [outcome, run_cons, hs, Except.bind] at hu

theorem accepts_line (frames : List Frame) (line : Nat) (mode : Mode) (cs : List Char) :
    Accepts ⟨frames, line, mode⟩ cs ↔ Accepts ⟨frames, 0, mode⟩ cs := by
  simp only [Accepts, outcome_line frames line]

theorem accepts_iff_result (s : Scanner) (cs : List Char) :
    s.Accepts cs ↔ s.result cs = .ok () := by
  unfold Accepts outcome result
  cases s.run cs with
  | error i => simp [Except.bind]
  | ok t => simp [Except.bind, verdict_unplaced]

end Scanner

theorem checkBalance_eq_ok (code : String) :
    checkBalance code = .ok () ↔ Scanner.Accepts {} code.toList :=
  (Scanner.accepts_iff_result {} code.toList).symm

section
variable {fs : List Frame} {last : Bool} {cs : List Char}

theorem accepts_char (hfs : partOf fs = .code last) {c : Char}
    (hc : c ∉ ['/', '\'', '"', '`', '(', ')', '[', ']', '{', '}']) :
    Scanner.Accepts ⟨fs, 0, .plain⟩ (c :: cs) ↔ Scanner.Accepts ⟨fs, 0, .plain⟩ cs := by
  rw [Scanner.accepts_cons (step_char hfs hc), Scanner.accepts_line]

theorem accepts_slash (hfs : partOf fs = .code last)
    (hcs : cs.head? ≠ some '/' ∧ cs.head? ≠ some '*') :
    Scanner.Accepts ⟨fs, 0, .plain⟩ ('/' :: cs) ↔ Scanner.Accepts ⟨fs, 0, .plain⟩ cs := by
  rw [Scanner.accepts_iff_result, result_slash hfs hcs, Scanner.accepts_iff_result]

theorem accepts_comment (hfs : partOf fs = .code last) {c : Char} {mode : Mode}
    (hmode : Scanner.step ⟨fs, 0, .slash⟩ c = .ok ⟨fs, 0, mode⟩) :
    Scanner.Accepts ⟨fs, 0, .plain⟩ ('/' :: c :: cs) ↔ Scanner.Accepts ⟨fs, 0, mode⟩ cs := by
  rw [Scanner.accepts_iff_result, result_comment hfs hmode, Scanner.accepts_iff_result]

theorem accepts_lineBody {body : List Char} (hbody : '\n' ∉ body) :
    Scanner.Accepts ⟨fs, 0, .lineComment⟩ (body ++ cs) ↔
      Scanner.Accepts ⟨fs, 0, .lineComment⟩ cs := by
  rw [Scanner.accepts_iff_result, result_lineBody hbody, Scanner.accepts_iff_result]

theorem accepts_blockBody {body : List Char} (hbody : ¬ ['*', '/'] <:+: body) :
    Scanner.Accepts ⟨fs, 0, .blockComment 0 false⟩ (body ++ '*' :: '/' :: cs) ↔
      Scanner.Accepts ⟨fs, 0, .plain⟩ cs := by
  rw [Scanner.accepts_iff_result, result_blockBody_closing hbody, ← Scanner.accepts_iff_result,
    Scanner.accepts_line]

theorem accepts_quoted (hfs : partOf fs = .code last) {quote : Char} (hquote : quote ∈ ['\'', '"'])
    {items : List Char} (hitems : QuotedItems quote items) :
    Scanner.Accepts ⟨fs, 0, .plain⟩ (quote :: (items ++ quote :: cs)) ↔
      Scanner.Accepts ⟨fs, 0, .plain⟩ cs := by
  rw [Scanner.accepts_iff_result, result_quoted hfs hquote hitems, Scanner.accepts_iff_result]

theorem accepts_opening (hfs : partOf fs = .code last) {opening closing : Char}
    (hpair : (opening, closing) ∈ [('(', ')'), ('[', ']'), ('{', '}')]) :
    Scanner.Accepts ⟨fs, 0, .plain⟩ (opening :: cs) ↔
      Scanner.Accepts ⟨.bracket closing 0 :: fs, 0, .plain⟩ cs :=
  Scanner.accepts_cons (step_opening hfs hpair) cs

theorem accepts_closing {closing : Char} (hclosing : isClosing closing = true) :
    Scanner.Accepts ⟨.bracket closing 0 :: fs, 0, .plain⟩ (closing :: cs) ↔
      Scanner.Accepts ⟨fs, 0, .plain⟩ cs := by
  refine Scanner.accepts_cons ?_ cs
  rcases isClosing_iff.1 hclosing with rfl | rfl | rfl <;> rfl

theorem accepts_templateChar (hfs : partOf fs = .template) {c : Char}
    (hc : c ∉ ['`', '\\', '$']) :
    Scanner.Accepts ⟨fs, 0, .plain⟩ (c :: cs) ↔ Scanner.Accepts ⟨fs, 0, .plain⟩ cs := by
  rw [Scanner.accepts_cons (step_templateChar hfs hc), Scanner.accepts_line]

theorem accepts_templateEscaped (hfs : partOf fs = .template) (c : Char) :
    Scanner.Accepts ⟨fs, 0, .plain⟩ ('\\' :: c :: cs) ↔ Scanner.Accepts ⟨fs, 0, .plain⟩ cs := by
  rw [Scanner.accepts_iff_result, result_escaped hfs, ← Scanner.accepts_iff_result,
    Scanner.accepts_line]

theorem accepts_dollar (hfs : partOf fs = .template) (hcs : cs.head? ≠ some '{') :
    Scanner.Accepts ⟨fs, 0, .plain⟩ ('$' :: cs) ↔ Scanner.Accepts ⟨fs, 0, .plain⟩ cs := by
  rw [Scanner.accepts_iff_result, result_dollar hfs hcs, Scanner.accepts_iff_result]

theorem accepts_hole (hfs : partOf fs = .template) :
    Scanner.Accepts ⟨fs, 0, .plain⟩ ('$' :: '{' :: cs) ↔
      Scanner.Accepts ⟨.hole 0 :: fs, 0, .plain⟩ cs := by
  rw [Scanner.accepts_iff_result, result_hole hfs, Scanner.accepts_iff_result]

def Part.Ends : Part → List Char → Prop
  | .code true, cs => cs = []
  | .code false, cs => ∃ c ∈ cs.head?, isClosing c = true
  | .template, cs => cs.head? = some '`'

theorem Part.Ends.not_comment (hcs : (Part.code last).Ends cs) :
    cs.head? ≠ some '/' ∧ cs.head? ≠ some '*' := by
  cases last with
  | true =>
    obtain rfl : cs = [] := hcs
    exact ⟨nofun, nofun⟩
  | false =>
    obtain ⟨c, hc, hclosing⟩ := hcs
    rw [Option.mem_def] at hc
    rw [hc]
    constructor <;> rintro ⟨⟩ <;> cases hclosing

end

/-- The check goes through a derived text and comes out as it went in. -/
theorem Derives.accepts {part : Part} {s : List Char} (h : Derives part s) {fs : List Frame}
    (hfs : partOf fs = part) {cs : List Char} (hends : part.Ends cs)
    (hcs : Scanner.Accepts ⟨fs, 0, .plain⟩ cs) : Scanner.Accepts ⟨fs, 0, .plain⟩ (s ++ cs) := by
  induction h generalizing fs cs with
  | nil => exact hcs
  | char hc _ ih => exact (accepts_char hfs hc).2 (ih hfs hends hcs)
  | @slash last s hs _ ih =>
    refine (accepts_slash hfs ?_).2 (ih hfs hends hcs)
    -- the rule looks no further than the code, the check does
    cases s with
    | nil => exact hends.not_comment
    | cons c s => exact hs
  | lineComment hbody _ ih =>
    have hfeed : Scanner.step ⟨fs, 0, .lineComment⟩ '\n' = .ok ⟨fs, 1, .plain⟩ := rfl
    rw [List.cons_append, List.cons_append, List.append_assoc, List.cons_append,
      accepts_comment hfs (c := '/') rfl, accepts_lineBody hbody, Scanner.accepts_cons hfeed,
      Scanner.accepts_line]
    exact ih hfs hends hcs
  | lastComment hbody =>
    obtain rfl : cs = [] := hends
    rw [List.cons_append, List.cons_append, accepts_comment hfs (c := '/') rfl,
      accepts_lineBody hbody]
    cases fs with
    | nil => exact (Scanner.accepts_nil _).2 rfl
    | cons f fs => cases f <;> cases hfs
  | blockComment hbody _ ih =>
    rw [List.cons_append, List.cons_append, List.append_assoc, List.cons_append, List.cons_append,
      accepts_comment hfs (c := '*') rfl, accepts_blockBody hbody]
    exact ih hfs hends hcs
  | quoted hquote hitems _ ih =>
    rw [List.cons_append, List.append_assoc, List.cons_append, accepts_quoted hfs hquote hitems]
    exact ih hfs hends hcs
  | @bracket last opening closing inner s hpair _ _ ihinner ih =>
    have hclosing : isClosing closing = true := by
      simp only [List.mem_cons, Prod.mk.injEq, List.not_mem_nil, or_false] at hpair
      rcases hpair with ⟨-, rfl⟩ | ⟨-, rfl⟩ | ⟨-, rfl⟩ <;> rfl
    rw [List.cons_append, List.append_assoc, List.cons_append, accepts_opening hfs hpair]
    exact ihinner rfl ⟨closing, rfl, hclosing⟩ ((accepts_closing hclosing).2 (ih hfs hends hcs))
  | @template last text s _ _ ihtext ih =>
    have hopen : Scanner.step ⟨fs, 0, .plain⟩ '`' = .ok ⟨.template 0 :: fs, 0, .plain⟩ :=
      step_code hfs 0 '`'
    have hclose : Scanner.step ⟨.template 0 :: fs, 0, .plain⟩ '`' = .ok ⟨fs, 0, .plain⟩ := rfl
    rw [List.cons_append, List.append_assoc, List.cons_append, Scanner.accepts_cons hopen]
    exact ihtext rfl rfl ((Scanner.accepts_cons hclose _).2 (ih hfs hends hcs))
  | templateChar hc _ ih => exact (accepts_templateChar hfs hc).2 (ih hfs hends hcs)
  | templateEscaped c _ ih => exact (accepts_templateEscaped hfs c).2 (ih hfs hends hcs)
  | @dollar s hs _ ih =>
    refine (accepts_dollar hfs ?_).2 (ih hfs hends hcs)
    cases s with
    | nil =>
      have htick : cs.head? = some '`' := hends
      simp [htick]
    | cons c s => exact hs
  | hole _ _ ihinner ih =>
    have hclose : Scanner.step ⟨.hole 0 :: fs, 0, .plain⟩ '}' = .ok ⟨fs, 0, .plain⟩ := rfl
    rw [List.cons_append, List.cons_append, List.append_assoc, List.cons_append, accepts_hole hfs]
    exact ihinner rfl ⟨'}', rfl, rfl⟩ ((Scanner.accepts_cons hclose _).2 (ih hfs hends hcs))

end ClientGen.Script
