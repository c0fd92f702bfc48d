import ClientGen.Proofs.Script.PlainType
import ClientGen.Proofs.Script.StringValue
import ClientGen.Proofs.Script.TypeReader
/-! Texts of which no line is blank. A text is put together of pieces: one that fills its lines may
go on with any piece that stays on its line, or that fills the lines it begins. Types are such
pieces, the ones that take several lines as well. -/
namespace ClientGen.Script

open Text (continuesIdentifier guardCommentEnd isBlank isIdentifier joinWith)

/-- Reads on in a line that holds more than blanks, or does not yet; there is no result if a line
ends that does not. -/
def filledAfter (filled : Bool) : List Char → Option Bool
  | [] => some filled
  | c :: cs =>
    if c = '\n' then if filled then filledAfter false cs else none
    else filledAfter (filled || !isBlank c) cs

theorem filledAfter_append (filled : Bool) (cs ds : List Char) :
    filledAfter filled (cs ++ ds) = (filledAfter filled cs).bind (filledAfter · ds) := by
  induction cs generalizing filled with
  | nil => rfl
  | cons c cs ih =>
    simp only [List.cons_append, filledAfter]
    split_ifs
    · exact ih _
    · rfl
    · exact ih _

theorem filledAfter_oneLine {s : List Char} (h : '\n' ∉ s) (filled : Bool) :
    filledAfter filled s = some (filled || !s.all isBlank) := by
  induction s generalizing filled with
  | nil => simp [filledAfter]
  | cons c cs ih =>
    rw [List.mem_cons, not_or] at h
    rw [filledAfter, if_neg (Ne.symm h.1), ih h.2]
    simp [Bool.not_and, Bool.or_assoc]

theorem filledAfter_true_of_false {s : List Char} (h : filledAfter false s = some true) :
    filledAfter true s = some true := by
  induction s with
  | nil => cases h
  | cons c cs ih =>
    by_cases hfeed : c = '\n'
    · simp [filledAfter, hfeed] at h
    · rw [filledAfter, if_neg hfeed] at h ⊢
      cases hblank : isBlank c
      · simpa [hblank] using h
      · exact ih (by simpa [hblank] using h)

def endedLines (ls : List (List Char)) : List Char := ls.flatMap (· ++ ['\n'])

/-- Where the reading comes to an end, the text is made of lines that are not blank, but for the
first that may have been filled before. -/
theorem exists_lines_of_filledAfter {filled : Bool} {s : List Char}
    (h : filledAfter filled s = some true) :
    ∃ first others, s ++ ['\n'] = endedLines (first :: others) ∧
      ('\n' ∉ first ∧ (filled = true ∨ first.all isBlank = false)) ∧
      ∀ l ∈ others, '\n' ∉ l ∧ l.all isBlank = false := by
  induction s generalizing filled with
  | nil => exact ⟨[], [], rfl, ⟨by simp, .inl (Option.some.inj h)⟩, by simp⟩
  | cons c cs ih =>
    rw [filledAfter] at h
    split_ifs at h with hfeed hfilled
    · obtain ⟨first, others, hlines, ⟨hline, hfirst⟩, hothers⟩ := ih h
      have hfirst := hfirst.resolve_left Bool.false_ne_true
      refine ⟨[], first :: others, ?_, ⟨by simp, .inl hfilled⟩,
        List.forall_mem_cons.2 ⟨⟨hline, hfirst⟩, hothers⟩⟩
      rw [List.cons_append, hlines, hfeed]
      rfl
    · obtain ⟨first, others, hlines, ⟨hline, hfirst⟩, hothers⟩ := ih h
      refine ⟨c :: first, others, ?_, ⟨?_, ?_⟩, hothers⟩
      · rw [List.cons_append, hlines]
        rfl
      · simpa using ⟨Ne.symm hfeed, hline⟩
      · cases filled
        · rw [List.all_cons, Bool.and_eq_false_iff]
          exact .inr (hfirst.imp_left fun hc => by simpa using hc)
        · exact .inl rfl

def OneLine (s : String) : Prop := '\n' ∉ s.toList

/-- No line of the text is blank. -/
def Filled (s : String) : Prop := filledAfter false s.toList = some true

/-- No line of the text is blank when it goes on in one that is not. -/
def Fits (s : String) : Prop := filledAfter true s.toList = some true

instance (s : String) : Decidable (OneLine s) := inferInstanceAs (Decidable ('\n' ∉ s.toList))

instance (s : String) : Decidable (Filled s) :=
  inferInstanceAs (Decidable (filledAfter false s.toList = some true))

instance (s : String) : Decidable (Fits s) :=
  inferInstanceAs (Decidable (filledAfter true s.toList = some true))

theorem Filled.exists_lines {s : String} (h : Filled s) :
    ∃ ls, s.toList ++ ['\n'] = endedLines ls ∧ ls ≠ [] ∧
      ∀ l ∈ ls, '\n' ∉ l ∧ l.all isBlank = false := by
  obtain ⟨first, others, hlines, ⟨hline, hfirst⟩, hothers⟩ := exists_lines_of_filledAfter h
  have hfirst := hfirst.resolve_left Bool.false_ne_true
  exact ⟨first :: others, hlines, List.cons_ne_nil _ _,
    List.forall_mem_cons.2 ⟨⟨hline, hfirst⟩, hothers⟩⟩

theorem Filled.fits {s : String} (h : Filled s) : Fits s := filledAfter_true_of_false h

namespace OneLine

theorem append {s t : String} (hs : OneLine s) (ht : OneLine t) : OneLine (s ++ t) := by
  unfold OneLine
  rw [String.toList_append, List.mem_append]
  exact fun h => h.elim hs ht

theorem fits {s : String} (h : OneLine s) : Fits s := by
  unfold Fits
  rw [filledAfter_oneLine h, Bool.true_or]

theorem filled {s : String} (h : OneLine s) (hc : s.toList.all isBlank = false) : Filled s := by
  unfold Filled
  rw [filledAfter_oneLine h, hc]
  rfl

theorem append_filled {s t : String} (hs : OneLine s) (ht : Filled t) : Filled (s ++ t) := by
  unfold Filled
  rw [String.toList_append, filledAfter_append, filledAfter_oneLine hs, Option.bind_some]
  generalize (false || !s.toList.all isBlank) = filled
  cases filled
  · exact ht
  · exact ht.fits

theorem of_spaces {s : String} (h : Spaces s) : OneLine s :=
  fun hfeed => absurd (h '\n' hfeed) (by decide)

theorem textLiteral (value : String) : OneLine (textLiteral value) :=
  fun h => (mem_textLiteral h).1 rfl

theorem of_continuesIdentifier {s : String}
    (h : ∀ c ∈ s.toList, continuesIdentifier c = true) : OneLine s :=
  fun hfeed => absurd (h '\n' hfeed) (by decide)

theorem of_isIdentifier {s : String} (h : isIdentifier s = true) : OneLine s :=
  of_continuesIdentifier (Text.continuesIdentifier_of_isIdentifier h)

theorem objectKey (name : String) : OneLine (objectKey name) := by
  unfold Script.objectKey
  split
  · next h => exact of_isIdentifier h
  · exact textLiteral name

theorem joinWith {sep : String} (hsep : OneLine sep) {ss : List String}
    (h : ∀ s ∈ ss, OneLine s) : OneLine (joinWith sep ss) := by
  intro hfeed
  rcases Text.mem_joinWith hfeed with hfeed | ⟨s, hs, hfeed⟩
  · exact hsep hfeed
  · exact h s hs hfeed

end OneLine

theorem Fits.append {s t : String} (hs : Fits s) (ht : Fits t) : Fits (s ++ t) := by
  unfold Fits
  rw [String.toList_append, filledAfter_append, hs]
  exact ht

theorem Filled.append {s t : String} (hs : Filled s) (ht : Fits t) : Filled (s ++ t) := by
  unfold Filled
  rw [String.toList_append, filledAfter_append, hs]
  exact ht

theorem Fits.joinWith {sep : String} (hsep : Fits sep) {ss : List String}
    (h : ∀ s ∈ ss, Fits s) : Fits (joinWith sep ss) := by
  induction ss with
  | nil => rfl
  | cons s ss ih =>
    have hs := h s List.mem_cons_self
    cases ss with
    | nil => exact hs
    | cons t ts => exact (hs.append hsep).append (ih fun u hu => h u (List.mem_cons_of_mem s hu))

theorem isBlank_of_continuesIdentifier {c : Char} (h : continuesIdentifier c = true) :
    isBlank c = false := by
  simp only [continuesIdentifier, Bool.or_eq_true, beq_iff_eq] at h
  rcases h with (h | rfl) | rfl
  · have := Text.toNat_of_isAlphanum h
    simp only [isBlank, Bool.or_eq_false_iff, Bool.and_eq_false_iff, decide_eq_false_iff_not,
      beq_eq_false_iff_ne]
    omega
  · decide
  · decide

theorem Filled.of_isIdentifier {s : String} (h : isIdentifier s = true) : Filled s := by
  apply (OneLine.of_isIdentifier h).filled
  obtain ⟨c, cs, hlist, hstart⟩ := Text.exists_start_of_isIdentifier h
  have hc := Text.continuesIdentifier_of_startsIdentifier hstart
  rw [hlist, List.all_cons, isBlank_of_continuesIdentifier hc, Bool.false_and]

def FillsLines (s : String) : Prop := filledAfter false s.toList = some false

instance (s : String) : Decidable (FillsLines s) :=
  inferInstanceAs (Decidable (filledAfter false s.toList = some false))

theorem FillsLines.append {s t : String} (hs : FillsLines s) (ht : FillsLines t) :
    FillsLines (s ++ t) := by
  unfold FillsLines
  rw [String.toList_append, filledAfter_append, hs]
  exact ht

theorem FillsLines.append_filled {s t : String} (hs : FillsLines s) (ht : Filled t) :
    Filled (s ++ t) := by
  unfold Filled
  rw [String.toList_append, filledAfter_append, hs]
  exact ht

theorem Filled.feed {s : String} (h : Filled s) : FillsLines (s ++ "\n") := by
  unfold FillsLines
  rw [String.toList_append, filledAfter_append, h]
  rfl

theorem FillsLines.joinWith {ss : List String} (h : ∀ s ∈ ss, FillsLines s) :
    FillsLines (joinWith "" ss) := by
  induction ss with
  | nil => rfl
  | cons s ss ih =>
    have hs := h s List.mem_cons_self
    cases ss with
    | nil => exact hs
    | cons t ts =>
      rw [Text.joinWith_cons "" s (List.cons_ne_nil t ts), String.append_empty]
      exact hs.append (ih fun u hu => h u (List.mem_cons_of_mem s hu))

section Fields

variable {indentation : String}

theorem fillsLines_fieldDocs (hi : Spaces indentation) (docs : List String) :
    FillsLines (fieldDocs indentation docs) := by
  apply FillsLines.joinWith
  intro s hs
  simp only [List.mem_map, List.mem_flatMap] at hs
  obtain ⟨_, _, l, hl, rfl⟩ := hs
  have hopen : Filled "/** " := by decide
  have hbody : OneLine (String.ofList (guardCommentEnd l)) := by
    unfold OneLine
    rw [String.toList_ofList]
    exact not_mem_guardCommentEnd (by decide) (Text.not_mem_of_mem_feedLines hl)
  have hclose : Fits " */" := by decide
  have hend : " */\n" = " */" ++ "\n" := by decide
  rw [hend, ← String.append_assoc]
  exact ((((OneLine.of_spaces hi).append_filled hopen).append hbody.fits).append hclose).feed

theorem filled_signature {f : Field} (h : Fits (f.type.text indentation)) :
    Filled (f.signature indentation) := by
  obtain ⟨name, type, optional, docs⟩ := f
  have hmark : OneLine (if optional then "?" else "") := by cases optional <;> decide
  have hcolon : Filled ": " := by decide
  simp only [Field.signature]
  exact (((OneLine.objectKey name).append hmark).append_filled hcolon).append h

theorem fillsLines_documentedFields (hi : Spaces indentation) {fs : List Field}
    (h : ∀ f ∈ fs, Fits (f.type.text indentation)) :
    FillsLines (documentedFields indentation fs) := by
  induction fs with
  | nil => rfl
  | cons f fs ih =>
    have hend : ";\n" = ";" ++ "\n" := by decide
    have hline := ((OneLine.of_spaces hi).append_filled
      (filled_signature (h f List.mem_cons_self))).append (t := ";") (by decide)
    have hrest := ih fun g hg => h g (List.mem_cons_of_mem f hg)
    have hlines := ((fillsLines_fieldDocs hi f.docs).append hline.feed).append hrest
    rw [documentedFields, hend]
    simpa only [String.append_assoc] using hlines

end Fields

theorem TypeTerm.WellNamed.fits_text {t : TypeTerm} (ht : t.WellNamed) {indentation : String}
    (hi : Spaces indentation) : Fits (t.text indentation) := by
  induction ht generalizing indentation with
  | named hname => exact (OneLine.of_isIdentifier hname).fits
  | generic hname _ _ ih =>
    have hopen : Fits "<" := by decide
    have hclose : Fits ">" := by decide
    rw [text_generic, typeTexts_eq_map]
    refine (((OneLine.of_isIdentifier hname).fits.append hopen).append
      (.joinWith (by decide) ?_)).append hclose
    exact List.forall_mem_map.2 fun t ht => ih t ht hi
  | array _ ih =>
    have hopen : Fits "(" := by decide
    have hclose : Fits ")[]" := by decide
    have hbrackets : Fits "[]" := by decide
    rw [text_array]
    split
    · exact (hopen.append (ih hi)).append hclose
    · exact (ih hi).append hbrackets
  | union _ _ ih =>
    rw [text_union, typeTexts_eq_map]
    exact .joinWith (by decide) (List.forall_mem_map.2 fun t ht => ih t ht hi)
  | literal value => exact (OneLine.textLiteral value).fits
  | @object fields _ ih =>
    have hopen : Fits "\x7b " := by decide
    have hclose : Fits " \x7d" := by decide
    rw [text_object, fieldSignatures_eq_map]
    split_ifs
    · decide
    · refine (hopen.append (.joinWith (by decide) ?_)).append hclose
      exact List.forall_mem_map.2 fun f hf => (filled_signature (ih f hf hi)).fits
    · -- behind its first line stand the fields, and it ends on a line of its own
      have hunit : Spaces Layout.unit := by decide
      have hfields := fillsLines_documentedFields (hi.append hunit)
        fun f hf => ih f hf (hi.append hunit)
      have hfirst : FillsLines "\x7b\n" := by decide
      have hbrace : Filled "\x7d" := by decide
      have hlast := (OneLine.of_spaces hi).append_filled hbrace
      simpa only [String.append_assoc] using ((hfirst.append hfields).append_filled hlast).fits
  | typeOf _ hnames =>
    have hopen : Fits "typeof " := by decide
    refine hopen.append (OneLine.joinWith (by decide) ?_).fits
    exact fun name h => .of_isIdentifier (hnames name h)

end ClientGen.Script
