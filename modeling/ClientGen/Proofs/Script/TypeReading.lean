import ClientGen.Proofs.Script.Alike

namespace ClientGen.Script

open Text (isIdentifier joinWith guardCommentEnd feedLines)

theorem alike_objectKey (ks : List Char) (name : String) :
    Alike ks (objectKey name) (objectKey name) ks := by
  unfold objectKey
  split
  · next h => exact .of_ordinary (Ordinary.of_isIdentifier h) ks
  · exact .literal ks name

theorem toList_joinWith_empty (ss : List String) :
    (joinWith "" ss).toList = (ss.map String.toList).flatten := by
  fun_induction joinWith "" ss with
  | case1 => rfl
  | case2 s => simp
  | case3 s t rest ih => simpa [String.toList_append] using ih

theorem commentLines_fieldDocs {indentation : String} (hi : Spaces indentation)
    (docs : List String) : CommentLines (fieldDocs indentation docs).toList := by
  unfold fieldDocs
  rw [toList_joinWith_empty]
  apply CommentLines.flatten
  intro s hs
  simp only [List.mem_map, List.mem_flatMap] at hs
  obtain ⟨_, ⟨doc, _, l, _, rfl⟩, rfl⟩ := hs
  have hbody : starAfter false ("* ".toList ++ guardCommentEnd l ++ " *".toList) = some true := by
    obtain ⟨last, hl⟩ := starAfter_guardCommentEnd false (l := l) (by simp)
    have hopen : starAfter false "* ".toList = some false := by decide
    rw [starAfter_append, starAfter_append, hopen, Option.bind_some, hl, Option.bind_some]
    cases last <;> decide
  simpa [String.toList_append] using CommentLines.block hi hbody

structure TypeTerm.Alike (t u : TypeTerm) : Prop where
  text (ks : List Char) {indentation : String} (hi : Spaces indentation) :
    Script.Alike ks (t.text indentation) (u.text indentation) ks
  isUnion : t.isUnion = u.isUnion

structure Field.Alike (f g : Field) : Prop where
  name : f.name = g.name
  optional : f.optional = g.optional
  type : f.type.Alike g.type
  /-- Whether a field has comments decides the layout of the whole type. -/
  docs : f.docs.isEmpty = g.docs.isEmpty

theorem typeTexts_eq_map (indentation : String) (ts : List TypeTerm) :
    typeTexts indentation ts = ts.map (·.text indentation) := by
  induction ts with
  | nil => rfl
  | cons t ts ih => rw [typeTexts, ih, List.map_cons]

theorem fieldSignatures_eq_map (indentation : String) (fs : List Field) :
    fieldSignatures indentation fs = fs.map (·.signature indentation) := by
  induction fs with
  | nil => rfl
  | cons f fs ih => rw [fieldSignatures, ih, List.map_cons]

namespace Field.Alike

theorem signature {f g : Field} (h : f.Alike g) (ks : List Char) {indentation : String}
    (hi : Spaces indentation) :
    Script.Alike ks (f.signature indentation) (g.signature indentation) ks := by
  obtain ⟨name, type, optional, docs⟩ := f
  obtain ⟨name', type', optional', docs'⟩ := g
  obtain ⟨rfl, rfl, htype, _⟩ := h
  simp only [Field.signature]
  refine (((alike_objectKey ks name).append ?_).append (.of_brackets rfl)).append
    (htype.text ks hi)
  cases optional <;> exact .of_brackets rfl

theorem documentedFields {fs gs : List Field} (h : List.Forall₂ Field.Alike fs gs)
    (ks : List Char) {indentation : String} (hi : Spaces indentation) :
    AlikeLines ks (documentedFields indentation fs).toList
      (documentedFields indentation gs).toList ks := by
  induction h with
  | nil => exact .nil ks
  | @cons f g fs gs hfg _ ih =>
    have hdocs := (commentLines_fieldDocs hi f.docs).alike (commentLines_fieldDocs hi g.docs) ks
    have hline := AlikeLines.of_line hi ((hfg.signature ks hi).append (.of_brackets (s := ";") rfl))
    simpa [Script.documentedFields, String.toList_append] using (hdocs.append hline).append ih

end Field.Alike

theorem forall₂_texts {ts us : List TypeTerm} (h : List.Forall₂ TypeTerm.Alike ts us)
    (ks : List Char) {indentation : String} (hi : Spaces indentation) :
    List.Forall₂ (Alike ks · · ks) (typeTexts indentation ts) (typeTexts indentation us) := by
  rw [typeTexts_eq_map, typeTexts_eq_map]
  exact List.rel_map (fun _ _ htu => htu.text ks hi) h

theorem forall₂_signatures {fs gs : List Field} (h : List.Forall₂ Field.Alike fs gs)
    (ks : List Char) {indentation : String} (hi : Spaces indentation) :
    List.Forall₂ (Alike ks · · ks) (fieldSignatures indentation fs)
      (fieldSignatures indentation gs) := by
  rw [fieldSignatures_eq_map, fieldSignatures_eq_map]
  exact List.rel_map (fun _ _ hfg => hfg.signature ks hi) h

namespace TypeTerm.Alike

theorem named {name : String} (h : Ordinary name) : Alike (.named name) (.named name) where
  text ks _ _ := by simpa [TypeTerm.text_named] using .of_ordinary h ks
  isUnion := rfl

theorem literal (value : String) : Alike (.literal value) (.literal value) where
  text ks _ _ := by simpa [TypeTerm.text_literal] using .literal ks value
  isUnion := rfl

theorem typeOf {expression : String} (h : Ordinary expression) :
    Alike (.typeOf expression) (.typeOf expression) where
  text ks _ _ := by
    simp only [TypeTerm.text_typeOf]
    exact .append (.of_brackets rfl) (.of_ordinary h ks)
  isUnion := rfl

theorem generic {name : String} (h : Ordinary name) {ts us : List TypeTerm}
    (htu : List.Forall₂ Alike ts us) : Alike (.generic name ts) (.generic name us) where
  text ks _ hi := by
    simp only [TypeTerm.text_generic]
    exact (((Script.Alike.of_ordinary h ks).append (.of_brackets rfl)).append
      (.joinWith (by decide) (forall₂_texts htu ks hi))).append (.of_brackets rfl)
  isUnion := rfl

theorem array {t u : TypeTerm} (h : Alike t u) : Alike (.array t) (.array u) where
  text ks _ hi := by
    simp only [TypeTerm.text_array, h.isUnion]
    split
    · exact ((Script.Alike.of_brackets (s := "(") rfl).append (h.text (')' :: ks) hi)).append
        (.of_brackets rfl)
    · exact (h.text ks hi).append (.of_brackets rfl)
  isUnion := rfl

theorem union {ts us : List TypeTerm} (h : List.Forall₂ Alike ts us) :
    Alike (.union ts) (.union us) where
  text ks _ hi := by
    simp only [TypeTerm.text_union]
    exact .joinWith (by decide) (forall₂_texts h ks hi)
  isUnion := rfl

theorem documented {fs gs : List Field} (h : List.Forall₂ Field.Alike fs gs) (ks : List Char)
    {indentation : String} (hi : Spaces indentation) :
    Script.Alike ks
      ("\x7b\n" ++ documentedFields (indentation ++ Layout.unit) fs ++ indentation ++ "\x7d")
      ("\x7b\n" ++ documentedFields (indentation ++ Layout.unit) gs ++ indentation ++ "\x7d")
      ks := by
  have hunit : Spaces Layout.unit := by decide
  obtain ⟨u, v, hu, hv, wu, wv, huv⟩ :=
    Field.Alike.documentedFields h ('}' :: ks) (hi.append hunit)
  have hopen : Reads ks "\x7b\n".toList "\x7b\n".toList ('}' :: ks) := .of_brackets rfl
  have hclose : Reads ('}' :: ks) (indentation.toList ++ ['}']) (indentation.toList ++ ['}']) ks :=
    (hi.reads _).append (.of_brackets rfl)
  refine ⟨_, _, ?_, ?_, ((SameLines.refl ['{']).append (.of_wholeLines wu wv huv)).append
    (.refl (indentation.toList ++ ['}']))⟩
  · simpa [String.toList_append] using (hopen.append hu).append hclose
  · simpa [String.toList_append] using (hopen.append hv).append hclose

theorem object {fs gs : List Field} (h : List.Forall₂ Field.Alike fs gs) :
    Alike (.object fs) (.object gs) where
  text ks _ hi := by
    have hempty : fs.isEmpty = gs.isEmpty := by cases h <;> rfl
    have hdocs : fs.all (·.docs.isEmpty) = gs.all (·.docs.isEmpty) := by
      clear hempty
      induction h with
      | nil => rfl
      | cons hfg _ ih => rw [List.all_cons, List.all_cons, hfg.docs, ih]
    simp only [TypeTerm.text_object, hempty, hdocs]
    split
    · exact .of_brackets rfl
    · split
      · exact ((Script.Alike.of_brackets (s := "\x7b ") rfl).append
          (.joinWith (by decide) (forall₂_signatures h _ hi))).append (.of_brackets rfl)
      · exact documented h ks hi
  isUnion := rfl

end TypeTerm.Alike

end ClientGen.Script
