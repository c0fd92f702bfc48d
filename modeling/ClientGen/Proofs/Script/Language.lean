import ClientGen.Proofs.Script.Derived
/-! The bracket check accepts the scripts of the grammar and no others. To see that an accepted
text is derived, what was read of an incomplete token is kept beside the state; from the end of
the text back, one step at a time, the rest grows into what the open frames ask for. -/
namespace ClientGen.Script

def Frame.closing : Frame → Char
  | bracket closing _ => closing
  | template _ => '`'
  | hole _ => '}'

/-- The rest of a text, where these frames are open. -/
def Closes : List Frame → List Char → Prop
  | [], cs => Derives (.code true) cs
  | f :: fs, cs => ∃ inner rest,
    cs = inner ++ f.closing :: rest ∧ Derives (partOf (f :: fs)) inner ∧ Closes fs rest

theorem Closes.prepend {fs : List Frame} {part : Part} {cs ds : List Char} (h : Closes fs cs)
    (hfs : partOf fs = part) (p : List Char) (hds : ds = p ++ cs)
    (hp : ∀ t, t <+: cs → Derives part t → Derives part (p ++ t)) : Closes fs ds := by
  subst hds hfs
  cases fs with
  | nil => exact hp cs (List.prefix_refl cs) h
  | cons f fs =>
    obtain ⟨inner, rest, rfl, hinner, hrest⟩ := h
    exact ⟨p ++ inner, rest, (List.append_assoc ..).symm,
      hp inner (List.prefix_append ..) hinner, hrest⟩

/-- What was read of a token that is not complete yet. -/
inductive Pending : Mode → Part → List Char → Prop
  | plain (part : Part) : Pending .plain part []
  | slash (last : Bool) : Pending .slash (.code last) ['/']
  | lineComment (last : Bool) {body : List Char} (hbody : '\n' ∉ body) :
      Pending .lineComment (.code last) ('/' :: '/' :: body)
  | blockComment (last : Bool) (opened : Nat) {star : Bool} {body : List Char}
      (hbody : starAfter false body = some star) :
      Pending (.blockComment opened star) (.code last) ('/' :: '*' :: body)
  | quoted (last : Bool) {quote : Char} {items : List Char} (hquote : quote ∈ ['\'', '"'])
      (hitems : QuotedItems quote items) :
      Pending (.quoted quote false) (.code last) (quote :: items)
  | quotedEscaped (last : Bool) {quote : Char} {items : List Char} (hquote : quote ∈ ['\'', '"'])
      (hitems : QuotedItems quote items) :
      Pending (.quoted quote true) (.code last) (quote :: (items ++ ['\\']))
  | escaped : Pending .escaped .template ['\\']
  | dollar : Pending .dollar .template ['$']

/-- With what is pending, the rest of the text is what the open frames ask for. -/
def Scanner.Completed (s : Scanner) (cs : List Char) : Prop :=
  ∀ part p, partOf s.frames = part → Pending s.mode part p → Closes s.frames (p ++ cs)

section
variable {fs : List Frame} {last : Bool} {line : Nat} {mode : Mode} {c : Char} {cs : List Char}
  {t : Scanner}

theorem Scanner.Completed.closes (h : Scanner.Completed ⟨fs, line, .plain⟩ cs) : Closes fs cs :=
  h _ _ rfl (.plain _)

theorem closes_opening (hfs : partOf fs = .code last) {opening closing : Char}
    (hpair : (opening, closing) ∈ [('(', ')'), ('[', ']'), ('{', '}')])
    (h : Closes (.bracket closing line :: fs) cs) : Closes fs (opening :: cs) := by
  obtain ⟨inner, rest, rfl, hinner, hrest⟩ := h
  refine hrest.prepend hfs (opening :: (inner ++ [closing])) (by simp [Frame.closing])
    fun s _ hs => ?_
  simpa using Derives.bracket hpair hinner hs

theorem closes_tick (hfs : partOf fs = .code last) (h : Closes (.template line :: fs) cs) :
    Closes fs ('`' :: cs) := by
  obtain ⟨text, rest, rfl, htext, hrest⟩ := h
  refine hrest.prepend hfs ('`' :: (text ++ ['`'])) (by simp [Frame.closing]) fun s _ hs => ?_
  simpa using Derives.template htext hs

theorem closes_hole (hfs : partOf fs = .template) (h : Closes (.hole line :: fs) cs) :
    Closes fs ('$' :: '{' :: cs) := by
  obtain ⟨inner, rest, rfl, hinner, hrest⟩ := h
  refine hrest.prepend hfs ('$' :: '{' :: (inner ++ ['}'])) (by simp [Frame.closing])
    fun s _ hs => ?_
  simpa using Derives.hole hinner hs

theorem closes_closing {frames : List Frame} (hclose : close? c fs = some frames)
    (h : Closes frames cs) : Closes fs (c :: cs) := by
  have hc : ∃ f, fs = f :: frames ∧ f.closing = c := by
    rcases fs with _ | ⟨⟨closing, line⟩ | line | line, fs⟩ <;> simp only [close?] at hclose
    · cases hclose
    · split at hclose
      · next hc => cases hclose; exact ⟨_, rfl, hc⟩
      · cases hclose
    · cases hclose
    · split at hclose
      · next hc => cases hclose; exact ⟨_, rfl, hc.symm⟩
      · cases hclose
  obtain ⟨f, rfl, rfl⟩ := hc
  exact ⟨[], cs, rfl, .nil _, h⟩

theorem closes_stepCode (hfs : partOf fs = .code last)
    (hstep : Scanner.stepCode ⟨fs, line, mode⟩ c = .ok t) (ht : t.Completed cs) :
    Closes fs (c :: cs) := by
  unfold Scanner.stepCode at hstep
  split at hstep
  · next hc =>
    cases hstep
    exact hc ▸ ht _ _ hfs (.slash last)
  split at hstep
  · next hc =>
    cases hstep
    exact ht _ _ hfs (.quoted last (by simpa using hc) .nil)
  split at hstep
  · next hc =>
    cases hstep
    exact hc ▸ closes_tick hfs ht.closes
  split at hstep
  · split at hstep
    · next frames hclose =>
      cases hstep
      exact closes_closing hclose ht.closes
    · cases hstep
  · next hslash hquote htick hclosing =>
    split at hstep
    · next closing hopening =>
      cases hstep
      refine closes_opening hfs ?_ ht.closes
      unfold closingOf? at hopening
      split at hopening <;> cases hopening <;> decide
    · next hopening =>
      cases hstep
      have hne {o k : Char} (ho : closingOf? o = some k) : c ≠ o := by
        rintro rfl
        rw [hopening] at ho
        cases ho
      refine ht.closes.prepend hfs [c] rfl fun s _ hs => .char ?_ hs
      simp only [isClosing, Bool.not_eq_true, Bool.or_eq_false_iff, beq_eq_false_iff_ne] at hclosing
      simp [hslash, not_or.1 hquote, htick, hclosing, hne (o := '(') rfl, hne (o := '[') rfl,
        hne (o := '{') rfl]

theorem closes_stepTemplate {opened : Nat} {outer : List Frame}
    (ht : Scanner.Completed
      (Scanner.stepTemplate ⟨.template opened :: outer, line, mode⟩ outer c) cs) :
    Closes (.template opened :: outer) (c :: cs) := by
  unfold Scanner.stepTemplate at ht
  split at ht
  · next hc => exact hc ▸ ht _ _ rfl .escaped
  split at ht
  · next hc => exact hc ▸ ⟨[], cs, rfl, .nil _, ht.closes⟩
  split at ht
  · next hc => exact hc ▸ ht _ _ rfl .dollar
  · next hslash htick hdollar =>
    refine ht.closes.prepend rfl [c] rfl fun s _ hs => .templateChar ?_ hs
    simp [hslash, htick, hdollar]

theorem closes_stepPlain (hstep : Scanner.stepPlain ⟨fs, line, mode⟩ c = .ok t)
    (ht : t.Completed cs) : Closes fs (c :: cs) := by
  rcases fs with _ | ⟨_ | _ | _, outer⟩
  · exact closes_stepCode rfl hstep ht
  · exact closes_stepCode rfl hstep ht
  · cases hstep
    exact closes_stepTemplate ht
  · exact closes_stepCode rfl hstep ht

theorem head?_ne_of_prefix_cons {s : List Char} {d : Char} (h : s <+: c :: cs) (hne : c ≠ d) :
    s.head? ≠ some d := by
  cases s with
  | nil => exact nofun
  | cons e s =>
    obtain rfl := (List.cons_prefix_cons.1 h).1
    simpa using hne

theorem closes_slash (hfs : partOf fs = .code last)
    (hstep : Scanner.step ⟨fs, line, .slash⟩ c = .ok t) (ht : t.Completed cs) :
    Closes fs ('/' :: c :: cs) := by
  simp only [Scanner.step] at hstep
  split at hstep
  · next hc =>
    cases hstep
    exact hc ▸ ht _ _ hfs (.lineComment last List.not_mem_nil)
  split at hstep
  · next hc =>
    cases hstep
    exact hc ▸ ht _ ['/', '*'] hfs (.blockComment last line rfl)
  · next hslash hstar =>
    refine (closes_stepPlain hstep ht).prepend hfs ['/'] rfl fun s hs hderives => ?_
    exact .slash ⟨head?_ne_of_prefix_cons hs hslash, head?_ne_of_prefix_cons hs hstar⟩ hderives

theorem closes_lineComment (hfs : partOf fs = .code last) {body : List Char} (hbody : '\n' ∉ body)
    (hstep : Scanner.step ⟨fs, line, .lineComment⟩ c = .ok t) (ht : t.Completed cs) :
    Closes fs ('/' :: '/' :: (body ++ c :: cs)) := by
  simp only [Scanner.step] at hstep
  split at hstep
  · next hc =>
    cases hstep
    subst hc
    refine ht.closes.prepend hfs ('/' :: '/' :: (body ++ ['\n'])) (by simp) fun s _ hs => ?_
    simpa using Derives.lineComment hbody hs
  · next hc =>
    cases hstep
    have hbody : '\n' ∉ body ++ [c] := by simp [hbody, Ne.symm hc]
    simpa using ht _ _ hfs (.lineComment last hbody)

theorem closes_blockComment (hfs : partOf fs = .code last) {opened : Nat} {star : Bool}
    {body : List Char} (hbody : starAfter false body = some star)
    (hstep : Scanner.step ⟨fs, line, .blockComment opened star⟩ c = .ok t)
    (ht : t.Completed cs) : Closes fs ('/' :: '*' :: (body ++ c :: cs)) := by
  simp only [Scanner.step] at hstep
  split at hstep
  · next hc =>
    obtain ⟨rfl, rfl⟩ := hc
    cases hstep
    -- the star of the comment's end was read as one of its body
    obtain ⟨b, rfl, hb⟩ := exists_of_starAfter hbody
    refine ht.closes.prepend hfs ('/' :: '*' :: (b ++ ['*', '/'])) (by simp) fun s _ hs => ?_
    simpa using Derives.blockComment hb hs
  · next hc =>
    cases hstep
    have hbody : starAfter false (body ++ [c]) = some (c == '*') := by
      rw [starAfter_append, hbody]
      simp only [Option.bind_some, starAfter, if_neg hc]
    simpa using ht _ _ hfs (.blockComment last opened hbody)

theorem closes_quoted (hfs : partOf fs = .code last) {quote : Char} {items : List Char}
    (hquote : quote ∈ ['\'', '"']) (hitems : QuotedItems quote items)
    (hstep : Scanner.step ⟨fs, line, .quoted quote false⟩ c = .ok t) (ht : t.Completed cs) :
    Closes fs (quote :: (items ++ c :: cs)) := by
  simp only [Scanner.step] at hstep
  split at hstep
  · next hc =>
    cases hstep
    simpa [hc] using ht _ _ hfs (.quotedEscaped last hquote hitems)
  split at hstep
  · cases hstep
  split at hstep
  · next hc =>
    cases hstep
    subst hc
    refine ht.closes.prepend hfs (c :: (items ++ [c])) (by simp) fun s _ hs => ?_
    simpa using Derives.quoted hquote hitems hs
  · next hslash hfeed hclose =>
    cases hstep
    have hitems := hitems.append (.char ⟨hslash, hfeed, hclose⟩ .nil)
    simpa using ht _ _ hfs (.quoted last hquote hitems)

theorem closes_dollar (hfs : partOf fs = .template)
    (hstep : Scanner.step ⟨fs, line, .dollar⟩ c = .ok t) (ht : t.Completed cs) :
    Closes fs ('$' :: c :: cs) := by
  simp only [Scanner.step] at hstep
  split at hstep
  · next hc =>
    cases hstep
    exact hc ▸ closes_hole hfs ht.closes
  · next hbrace =>
    refine (closes_stepPlain hstep ht).prepend hfs ['$'] rfl fun s hs hderives => ?_
    exact .dollar (head?_ne_of_prefix_cons hs hbrace) hderives

end

namespace Scanner

/-- One step back, what is pending grows into a token or the text within a frame. -/
theorem Completed.of_step {s t : Scanner} {c : Char} {cs : List Char} (hstep : s.step c = .ok t)
    (ht : t.Completed cs) : s.Completed (c :: cs) := by
  obtain ⟨fs, line, mode⟩ := s
  intro part p hfs hp
  cases hp with
  | plain => exact closes_stepPlain hstep ht
  | slash => exact closes_slash hfs hstep ht
  | lineComment last hbody => exact closes_lineComment hfs hbody hstep ht
  | blockComment last opened hbody => exact closes_blockComment hfs hbody hstep ht
  | quoted last hquote hitems => exact closes_quoted hfs hquote hitems hstep ht
  | quotedEscaped last hquote hitems =>
    cases hstep
    have hitems := hitems.append (.escaped c .nil)
    simpa using ht _ _ hfs (.quoted last hquote hitems)
  | escaped =>
    cases hstep
    exact ht.closes.prepend hfs ['\\', c] rfl fun s _ hs => .templateEscaped c hs
  | dollar => exact closes_dollar hfs hstep ht

theorem Completed.of_verdict {s : Scanner} (h : s.verdict = .ok ()) : s.Completed [] := by
  obtain ⟨fs, line, mode⟩ := s
  have hfs : fs = [] := by
    cases fs with
    | nil => rfl
    | cons f fs => cases mode <;> cases f <;> cases h
  subst hfs
  intro part p hpart hp
  rw [List.append_nil]
  cases hp with
  | plain => exact .nil _
  | slash last => exact .slash ⟨nofun, nofun⟩ (.nil _)
  | lineComment last hbody => exact .lastComment hbody
  | blockComment | quoted | quotedEscaped => cases h
  | escaped | dollar => cases hpart

theorem Accepts.completed {s : Scanner} {cs : List Char} (h : s.Accepts cs) : s.Completed cs := by
  induction cs generalizing s with
  | nil => exact .of_verdict ((accepts_nil s).1 h)
  | cons c cs ih =>
    obtain ⟨t, hstep, ht⟩ := h.exists_step
    exact .of_step hstep (ih ht)

end Scanner

/-- The check accepts a script just when the whole of it is code. -/
theorem checkBalance_eq_ok_iff (code : String) :
    checkBalance code = .ok () ↔ Derives (.code true) code.toList := by
  rw [checkBalance_eq_ok]
  constructor
  · intro h
    exact h.completed.closes
  · intro h
    rw [Scanner.accepts_line, ← List.append_nil code.toList]
    exact h.accepts rfl rfl ((Scanner.accepts_nil _).2 rfl)

end ClientGen.Script
