import ClientGen.Script.TypeText
import ClientGen.Text.Lines
import ClientGen.Text.Name
import ClientGen.Proofs.Text.Name
import ClientGen.Proofs.Text.Split
import Mathlib.Data.List.Basic
/-! Readers that undo printing: each takes one value off the front of a text and leaves the rest
behind it. That a printed value is read back is stated for every rest that can follow it, so that
the readers of parts make up the reader of a whole. -/
namespace ClientGen.Script

open Text (continuesIdentifier isIdentifier startsIdentifier joinWith)

abbrev FrontReader (α : Type) := List Char → Option (α × List Char)

/-- In front of every rest that `ends` it, `text` is read as `value`. -/
def ReadsBack {α : Type} (read : FrontReader α) (text : String) (value : α)
    (ends : List Char → Prop) : Prop :=
  ∀ r, ends r → read (text.toList ++ r) = some (value, r)

def behind? (text : String) (s : List Char) : Option (List Char) := s.dropPrefix? text.toList

theorem behind?_append (text : String) (r : List Char) :
    behind? text (text.toList ++ r) = some r :=
  List.dropPrefix?_append_of_beq r (beq_self_eq_true text.toList)

theorem behind?_eq_none {text : String} {s : List Char} (h : ¬ text.toList <+: s) :
    behind? text s = none := by
  rw [behind?, Option.eq_none_iff_forall_ne_some]
  intro r hr
  obtain ⟨p, rfl, hp⟩ := List.dropPrefix?_eq_some_iff.1 hr
  exact h (eq_of_beq hp ▸ List.prefix_append p r)

def readRun (p : Char → Bool) (s : List Char) : String × List Char :=
  (String.ofList (s.takeWhile p), s.dropWhile p)

theorem readRun_append {p : Char → Bool} {run : String} {r : List Char}
    (hrun : ∀ c ∈ run.toList, p c = true) (hr : ∀ c ∈ r.head?, p c = false) :
    readRun p (run.toList ++ r) = (run, r) := by
  have hstop : r.takeWhile p = [] ∧ r.dropWhile p = r := by
    cases r with
    | nil => exact ⟨rfl, rfl⟩
    | cons c cs => simp [hr c rfl]
  rw [readRun, List.takeWhile_append_of_pos hrun, List.dropWhile_append_of_pos hrun, hstop.1,
    hstop.2, List.append_nil, String.ofList_toList]

def unescaped (c : Char) : Char := if c = 'n' then '\n' else if c = 'r' then '\r' else c

/-- Begins behind the opening quote. -/
def readQuoted : FrontReader (List Char)
  | [] => none
  | '\'' :: s => some ([], s)
  | '\\' :: c :: s => (readQuoted s).map fun p => (unescaped c :: p.1, p.2)
  | c :: s => (readQuoted s).map fun p => (c :: p.1, p.2)

theorem readQuoted_escapeChar (c : Char) (s : List Char) :
    readQuoted (escapeChar c ++ s) = (readQuoted s).map fun p => (c :: p.1, p.2) := by
  unfold escapeChar
  split_ifs with hbackslash hquote hfeed hreturn
  · subst hbackslash; rfl
  · subst hquote; rfl
  · subst hfeed; rfl
  · subst hreturn; rfl
  · simp [readQuoted, hbackslash]

theorem readQuoted_flatMap_escapeChar (value r : List Char) :
    readQuoted (value.flatMap escapeChar ++ '\'' :: r) = some (value, r) := by
  induction value with
  | nil => rfl
  | cons c cs ih =>
    rw [List.flatMap_cons, List.append_assoc, readQuoted_escapeChar, ih, Option.map_some]

theorem toList_textLiteral_append (value : String) (r : List Char) :
    (textLiteral value).toList ++ r = '\'' :: (value.toList.flatMap escapeChar ++ '\'' :: r) := by
  simp [textLiteral]

def readKey : FrontReader String
  | '\'' :: s => (readQuoted s).map fun p => (String.ofList p.1, p.2)
  | s => some (readRun continuesIdentifier s)

theorem readsBack_objectKey (name : String) :
    ReadsBack readKey (objectKey name) name
      fun r => ∀ c ∈ r.head?, continuesIdentifier c = false := by
  intro r hr
  unfold objectKey
  split
  · next h =>
    obtain ⟨c, cs, hname, hstart⟩ := Text.exists_start_of_isIdentifier h
    have hrun := readRun_append (Text.continuesIdentifier_of_isIdentifier h) hr
    rw [hname] at hrun ⊢
    unfold readKey
    split
    · next hc =>
      obtain rfl : c = '\'' := (List.cons.inj hc).1
      exact absurd hstart (by decide)
    · rw [hrun]
  · rw [toList_textLiteral_append, readKey, readQuoted_flatMap_escapeChar, Option.map_some,
      String.ofList_toList]

/-- At most as many items as there are steps. -/
def readItems {α : Type} (sep : String) (item : FrontReader α) : Nat → FrontReader (List α)
  | 0, _ => none
  | steps + 1, s => do
    let (a, s) ← item s
    match behind? sep s with
    | none => some ([a], s)
    | some s => (readItems sep item steps s).map fun p => (a :: p.1, p.2)

def readSeparated {α : Type} (sep : String) (item : FrontReader α) : FrontReader (List α) :=
  fun s => readItems sep item (s.length + 1) s

section Separated

variable {α β : Type} (sep : String) {item : FrontReader α} {text : β → String} {value : β → α}
  {ends : List Char → Prop} {bs : List β}

theorem readItems_joinWith (hsep : sep ≠ "") (hends : ∀ r, ends (sep.toList ++ r))
    (hitem : ∀ b ∈ bs, ReadsBack item (text b) (value b) ends) (hne : bs ≠ []) {r : List Char}
    (hr : ends r) (hlast : behind? sep r = none) (steps : Nat)
    (hsteps : (joinWith sep (bs.map text)).length < steps) :
    readItems sep item steps ((joinWith sep (bs.map text)).toList ++ r)
      = some (bs.map value, r) := by
  induction bs generalizing steps with
  | nil => exact absurd rfl hne
  | cons b bs ih =>
    obtain ⟨steps, rfl⟩ := Nat.exists_eq_succ_of_ne_zero (Nat.ne_zero_of_lt hsteps)
    have hb := hitem b List.mem_cons_self
    by_cases hbs : bs = []
    · subst hbs
      simp [readItems, joinWith, hb r hr, hlast]
    · have hmap : bs.map text ≠ [] := mt List.map_eq_nil_iff.1 hbs
      have hlength : 0 < sep.length := by
        rw [← String.length_toList]
        exact List.length_pos_of_ne_nil (by simpa using hsep)
      rw [List.map_cons, Text.joinWith_cons sep _ hmap] at hsteps ⊢
      simp only [String.length_append] at hsteps
      have hrest := ih (fun c hc => hitem c (List.mem_cons_of_mem b hc)) hbs steps (by omega)
      simp only [String.toList_append, List.append_assoc]
      rw [readItems, hb _ (hends _)]
      simp [behind?_append, hrest]

theorem readSeparated_joinWith (hsep : sep ≠ "") (hends : ∀ r, ends (sep.toList ++ r))
    (hne : bs ≠ []) (hitem : ∀ b ∈ bs, ReadsBack item (text b) (value b) ends) :
    ReadsBack (readSeparated sep item) (joinWith sep (bs.map text)) (bs.map value)
      fun r => ends r ∧ behind? sep r = none := by
  rintro r ⟨hr, hlast⟩
  apply readItems_joinWith sep hsep hends hitem hne hr hlast _
  rw [List.length_append, String.length_toList]
  omega

end Separated

end ClientGen.Script
