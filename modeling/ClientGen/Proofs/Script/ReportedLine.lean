import ClientGen.Proofs.Script.Scanning
import ClientGen.Proofs.Script.Tokens
/-! The lines that the bracket check reports. It reports what is wrong with a script just where
the tokens of the script go no further, and the line it gives is the real one less the line feeds
of the string literals in front: those alone are passed over without being counted. -/
namespace ClientGen.Script

theorem checkBalance_eq_result (code : String) :
    checkBalance code = Scanner.result {} code.toList := rfl

def countedLine (ts : List Token) : Nat :=
  1 + (textOf (ts.filter fun t => !t.isLiteral)).count '\n'

def Token.feeds (t : Token) : Nat := if t.isLiteral then 0 else t.text.count '\n'

theorem countedLine_snoc (ts : List Token) (t : Token) :
    countedLine (ts ++ [t]) = countedLine ts + t.feeds := by
  rw [countedLine, countedLine, Token.feeds, List.filter_append]
  cases h : t.isLiteral <;> simp [textOf, h, Nat.add_assoc]

theorem Token.add_feeds_char (line : Nat) (c : Char) : line + (char c).feeds = lineAfter c line :=
  (lineAfter_eq c line).symm

theorem Token.add_feeds_escaped (line : Nat) (c : Char) :
    line + (escaped c).feeds = lineAfter c line := by
  rw [lineAfter_eq]
  simp [feeds, isLiteral, text, List.count_cons]

theorem count_textOf_cons (t : Token) (ts : List Token) :
    (textOf (t :: ts)).count '\n' = t.text.count '\n' + (textOf ts).count '\n' := by
  simp [textOf]

/-- The line feeds that are not counted are those of string literals. -/
theorem countedLine_add_literalFeeds (ts : List Token) :
    countedLine ts + literalFeeds ts = 1 + (textOf ts).count '\n' := by
  unfold countedLine literalFeeds
  induction ts with
  | nil => rfl
  | cons t ts ih =>
    cases h : t.isLiteral with
    | true =>
      rw [List.filter_cons_of_neg (by simp [h]), List.filter_cons_of_pos h, count_textOf_cons,
        count_textOf_cons]
      omega
    | false =>
      rw [List.filter_cons_of_pos (by simp [h]), List.filter_cons_of_neg (by simp [h]),
        count_textOf_cons, count_textOf_cons]
      omega

namespace Opening

def frame : Opening → Frame
  | bracket closing before => .bracket closing (countedLine before)
  | template before => .template (countedLine before)
  | hole before => .hole (countedLine before)

end Opening

def scannerAt (os : List Opening) (ts : List Token) : Scanner :=
  ⟨os.map Opening.frame, countedLine ts, .plain⟩

theorem partOf_frames_of_code {os : List Opening} (h : inTemplate os = false) :
    ∃ last, partOf (os.map Opening.frame) = .code last := by
  rcases os with _ | ⟨_ | _ | _, os⟩
  · exact ⟨true, rfl⟩
  · exact ⟨false, rfl⟩
  · cases h
  · exact ⟨false, rfl⟩

theorem partOf_frames_of_template {os : List Opening} (h : inTemplate os = true) :
    partOf (os.map Opening.frame) = .template := by
  rcases os with _ | ⟨_ | _ | _, os⟩ <;> first | rfl | cases h

section
variable {fs : List Frame} {last : Bool} {line : Nat} {cs : List Char}

theorem result_lineComment (hfs : partOf fs = .code last) {body : List Char} (hbody : '\n' ∉ body) :
    Scanner.result ⟨fs, line, .plain⟩ ((Token.lineComment body).text ++ cs) =
      Scanner.result ⟨fs, line + (Token.lineComment body).feeds, .plain⟩ cs := by
  have hfeeds : (Token.lineComment body).feeds = 1 := by
    simp [Token.feeds, Token.isLiteral, Token.text, List.count_eq_zero_of_not_mem hbody]
  have hfeed : Scanner.step ⟨fs, line, .lineComment⟩ '\n' = .ok ⟨fs, line + 1, .plain⟩ := rfl
  rw [Token.text, List.cons_append, List.cons_append, List.append_assoc,
    result_comment hfs (c := '/') rfl, result_lineBody hbody, List.singleton_append,
    Scanner.result_cons hfeed, hfeeds]

theorem result_lastComment (hfs : partOf fs = .code last) {body : List Char} (hbody : '\n' ∉ body) :
    Scanner.result ⟨fs, line, .plain⟩ ((Token.lastComment body).text ++ []) =
      Scanner.result ⟨fs, line + (Token.lastComment body).feeds, .plain⟩ [] := by
  have hfeeds : (Token.lastComment body).feeds = 0 := by
    simp [Token.feeds, Token.isLiteral, Token.text, List.count_eq_zero_of_not_mem hbody]
  rw [Token.text, List.cons_append, List.cons_append, result_comment hfs (c := '/') rfl,
    result_lineBody hbody, hfeeds, Nat.add_zero]
  exact verdict_lineComment fs line

theorem result_blockComment (hfs : partOf fs = .code last) {body : List Char}
    (hbody : ¬ ['*', '/'] <:+: body) :
    Scanner.result ⟨fs, line, .plain⟩ ((Token.blockComment body).text ++ cs) =
      Scanner.result ⟨fs, line + (Token.blockComment body).feeds, .plain⟩ cs := by
  have hfeeds : (Token.blockComment body).feeds = body.count '\n' := by
    simp [Token.feeds, Token.isLiteral, Token.text]
  have hsplit : (Token.blockComment body).text ++ cs =
      '/' :: '*' :: (body ++ '*' :: '/' :: cs) := by simp [Token.text]
  rw [hsplit, result_comment hfs (c := '*') rfl, result_blockBody_closing hbody, hfeeds]

end

theorem scannerAt_snoc (os : List Opening) (ts : List Token) (t : Token) :
    scannerAt os (ts ++ [t]) = ⟨os.map Opening.frame, countedLine ts + t.feeds, .plain⟩ := by
  rw [scannerAt, countedLine_snoc]

theorem close?_frames {o : Opening} {os : List Opening} (ho : inTemplate (o :: os) = false)
    (c : Char) :
    close? c ((o :: os).map Opening.frame) =
      if o.closing = c then some (os.map Opening.frame) else none := by
  cases o with
  | bracket closing before => rfl
  | template before => cases ho
  | hole before => simp [close?, Opening.frame, Opening.closing, eq_comm]

theorem Step.result {os os' : List Opening} {ts : List Token} {t : Token} {rest : List Char}
    (h : Step os ts t rest os') :
    (scannerAt os ts).result (t.text ++ rest) = (scannerAt os' (ts ++ [t])).result rest := by
  rw [scannerAt_snoc]
  cases h with
  | @char _ _ c _ hos hc =>
    obtain ⟨last, hfs⟩ := partOf_frames_of_code hos
    rw [Token.add_feeds_char]
    exact Scanner.result_cons (step_char hfs hc) rest
  | slash hos hrest =>
    obtain ⟨last, hfs⟩ := partOf_frames_of_code hos
    exact result_slash hfs hrest
  | lineComment hos hbody =>
    obtain ⟨last, hfs⟩ := partOf_frames_of_code hos
    exact result_lineComment hfs hbody
  | lastComment hos hbody =>
    obtain ⟨last, hfs⟩ := partOf_frames_of_code hos
    exact result_lastComment hfs hbody
  | blockComment hos hbody =>
    obtain ⟨last, hfs⟩ := partOf_frames_of_code hos
    exact result_blockComment hfs hbody
  | @quoted _ _ quote items _ hos hquote hitems =>
    obtain ⟨last, hfs⟩ := partOf_frames_of_code hos
    have htext : (Token.quoted quote items).text ++ rest = quote :: (items ++ quote :: rest) := by
      simp [Token.text]
    rw [htext]
    exact result_quoted hfs hquote hitems
  | @opening _ _ opening closing _ hos hpair =>
    obtain ⟨last, hfs⟩ := partOf_frames_of_code hos
    have hfeeds : (Token.char opening).feeds = 0 := by
      simp only [List.mem_cons, Prod.mk.injEq, List.not_mem_nil, or_false] at hpair
      rcases hpair with ⟨rfl, rfl⟩ | ⟨rfl, rfl⟩ | ⟨rfl, rfl⟩ <;> rfl
    rw [hfeeds]
    exact Scanner.result_cons (step_opening hfs hpair) rest
  | @closing o _ _ c _ hos hc ho =>
    obtain ⟨last, hfs⟩ := partOf_frames_of_code hos
    have hfeeds : (Token.char c).feeds = 0 := by
      simp only [List.mem_cons, List.not_mem_nil, or_false] at hc
      rcases hc with rfl | rfl | rfl <;> rfl
    rw [hfeeds]
    refine Scanner.result_cons ?_ rest
    rw [scannerAt, step_code hfs, stepCode_closing hc, close?_frames hos, if_pos ho]
    rfl
  | tick hos =>
    obtain ⟨last, hfs⟩ := partOf_frames_of_code hos
    exact Scanner.result_cons (step_code hfs _ '`') rest
  | @templateChar _ _ c _ hos hc =>
    rw [Token.add_feeds_char]
    exact Scanner.result_cons (step_templateChar (partOf_frames_of_template hos) hc) rest
  | @escaped _ _ c _ hos =>
    rw [Token.add_feeds_escaped]
    exact result_escaped (partOf_frames_of_template hos) c
  | dollar hos hrest => exact result_dollar (partOf_frames_of_template hos) hrest
  | hole hos => exact result_hole (partOf_frames_of_template hos)
  | templateEnd => exact Scanner.result_cons rfl rest

theorem Walk.result {code rest : List Char} {os : List Opening} {ts : List Token}
    (h : Walk code os ts rest) : Scanner.result {} code = (scannerAt os ts).result rest := by
  induction h with
  | start => rfl
  | snoc _ hstep ih => rw [ih, hstep.result]

theorem Stuck.result {os : List Opening} {ts before : List Token} {rest : List Char}
    {report : Nat → Imbalance} (h : Stuck os ts rest before report) :
    (scannerAt os ts).result rest = .error (report (countedLine before)) := by
  cases h with
  | @unexpected _ _ c rest hos hc hclosing =>
    obtain ⟨last, hfs⟩ := partOf_frames_of_code hos
    refine Scanner.result_of_error ?_ rest
    have hnone : close? c (os.map Opening.frame) = none := by
      cases os with
      | nil => rfl
      | cons o os => rw [close?_frames hos, if_neg (hclosing o rfl)]
    rw [scannerAt, step_code hfs, stepCode_closing hc, hnone]
  | @comment _ _ body hos hbody =>
    obtain ⟨last, hfs⟩ := partOf_frames_of_code hos
    obtain ⟨star, hstar⟩ := Option.isSome_iff_exists.1
      ((isSome_starAfter_iff false body).2 ⟨hbody, by simp⟩)
    rw [scannerAt, result_comment hfs (c := '*') rfl, ← List.append_nil body,
      result_blockBody hstar]
    rfl
  | @string _ _ quote items rest hos hquote hitems hrest =>
    obtain ⟨last, hfs⟩ := partOf_frames_of_code hos
    rw [scannerAt, Scanner.result_cons (step_quote hfs hquote), result_quotedItems hitems]
    rcases hrest with rfl | rfl | hrest
    · rfl
    · rfl
    · obtain ⟨rest, rfl⟩ := List.head?_eq_some_iff.1 hrest
      exact Scanner.result_of_error rfl rest
  | missing => rfl
  | template hrest => rcases hrest with rfl | rfl <;> rfl
  | hole => rfl

theorem FaultAt.result {code : List Char} {before : List Token} {report : Nat → Imbalance}
    (h : FaultAt code before report) :
    Scanner.result {} code = .error (report (countedLine before)) := by
  obtain ⟨os, ts, rest, hwalk, hstuck⟩ := h
  rw [hwalk.result, hstuck.result]

/-- What is rejected has a fault, for its tokens do not go up to the end. -/
theorem exists_faultAt {code : String} {i : Imbalance} (h : checkBalance code = .error i) :
    ∃ before report, FaultAt code.toList before report ∧ i = report (countedLine before) := by
  have hstart : Walk code.toList [] [] code.toList := .start
  rw [checkBalance_eq_result] at h
  rcases hstart.fault_or_end with ⟨before, report, hfault⟩ | ⟨ts, hend⟩
  · rw [hfault.result] at h
    exact ⟨before, report, hfault, by cases h; rfl⟩
  · rw [hend.result] at h
    cases h

/-- The check rejects a script for a fault in it, and with that of the faults which its tokens
lead to. The line it gives is that of the character which the report is about, less one for each
line feed that a string literal further ahead runs over. -/
theorem reported_line_iff (code : String) (i : Imbalance) :
    checkBalance code = .error i ↔
      ∃ before report line c after, FaultAt code.toList before report ∧ i = report line ∧
        code.toList = textOf before ++ c :: after ∧ i.IsAbout c ∧
        line + literalFeeds before = 1 + (textOf before).count '\n' := by
  constructor
  · intro h
    obtain ⟨before, report, hfault, rfl⟩ := exists_faultAt h
    obtain ⟨c, after, hcode, habout⟩ := hfault.exists_char (countedLine before)
    exact ⟨before, report, _, c, after, hfault, rfl, hcode, habout,
      countedLine_add_literalFeeds before⟩
  · rintro ⟨before, report, line, c, after, hfault, rfl, -, -, hline⟩
    have hcounted := countedLine_add_literalFeeds before
    obtain rfl : line = countedLine before := by omega
    rw [checkBalance_eq_result, hfault.result]

def brokenLiteral : Token := .quoted '\'' ['a', '\\', '\n', 'b']

/-- The bracket stands on the third line, and is reported on the second. -/
theorem reported_line_behind_brokenLiteral :
    FaultAt "'a\\\nb'\n)".toList [brokenLiteral, .char '\n'] (.unexpected ')') ∧
      1 + (textOf [brokenLiteral, .char '\n']).count '\n' = 3 ∧
      checkBalance "'a\\\nb'\n)" = .error (.unexpected ')' 2) := by
  have hitems : QuotedItems '\'' ['a', '\\', '\n', 'b'] :=
    .char (by decide) (.escaped '\n' (.char (by decide) .nil))
  have hliteral : Step [] [] brokenLiteral ['\n', ')'] [] := .quoted rfl (by decide) hitems
  have hfeed : Step [] [brokenLiteral] (.char '\n') [')'] [] := .char rfl (by decide)
  have hwalk : Walk "'a\\\nb'\n)".toList [] [brokenLiteral, .char '\n'] [')'] :=
    (Walk.start.snoc hliteral).snoc hfeed
  exact ⟨⟨[], _, _, hwalk, .unexpected rfl (by decide) nofun⟩, rfl, rfl⟩

end ClientGen.Script
