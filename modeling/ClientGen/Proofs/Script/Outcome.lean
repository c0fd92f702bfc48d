import ClientGen.Script.Balance
import Mathlib.Tactic.SplitIfs
/-! What the bracket check makes of a text when line numbers are left out. They show in its
reports only, so the outcome of a text is that of its parts, one after the other. -/
namespace ClientGen.Script

namespace Frame

def unplaced : Frame → Frame
  | bracket closing _ => bracket closing 0
  | template _ => template 0
  | hole _ => hole 0

@[simp] theorem unplaced_bracket (closing : Char) (line : Nat) :
    (bracket closing line).unplaced = bracket closing 0 := rfl

@[simp] theorem unplaced_template (line : Nat) : (template line).unplaced = template 0 := rfl

@[simp] theorem unplaced_hole (line : Nat) : (hole line).unplaced = hole 0 := rfl

@[simp] theorem unplaced_unplaced (f : Frame) : f.unplaced.unplaced = f.unplaced := by
  cases f <;> rfl

end Frame

namespace Mode

def unplaced : Mode → Mode
  | blockComment _ star => blockComment 0 star
  | m => m

@[simp] theorem unplaced_blockComment (opened : Nat) (star : Bool) :
    (blockComment opened star).unplaced = blockComment 0 star := rfl

@[simp] theorem unplaced_unplaced (m : Mode) : m.unplaced.unplaced = m.unplaced := by
  cases m <;> rfl

end Mode

theorem close?_map_unplaced (c : Char) (fs : List Frame) :
    close? c (fs.map Frame.unplaced) = (close? c fs).map (List.map Frame.unplaced) := by
  cases fs with
  | nil => rfl
  | cons f fs =>
    cases f with
    | bracket closing line => by_cases h : closing = c <;> simp [close?, h]
    | template line => rfl
    | hole line => by_cases h : c = '}' <;> simp [close?, h]

namespace Scanner

def unplaced (s : Scanner) : Scanner := ⟨s.frames.map Frame.unplaced, 0, s.mode.unplaced⟩

@[simp] theorem unplaced_mk (frames : List Frame) (line : Nat) (mode : Mode) :
    unplaced ⟨frames, line, mode⟩ = ⟨frames.map Frame.unplaced, 0, mode.unplaced⟩ := rfl

@[simp] theorem unplaced_unplaced (s : Scanner) : s.unplaced.unplaced = s.unplaced := by
  simp [unplaced]

/-- A step or a run without line numbers; nothing is left of a report. -/
def shape (r : Except Imbalance Scanner) : Option Scanner := r.toOption.map unplaced

@[simp] theorem shape_ok (s : Scanner) : shape (.ok s) = some s.unplaced := rfl

@[simp] theorem shape_error (i : Imbalance) : shape (.error i) = none := rfl

theorem shape_stepCode (s : Scanner) (c : Char) :
    shape (s.unplaced.stepCode c) = shape (s.stepCode c) := by
  unfold stepCode
  by_cases hslash : c = '/'
  · simp [hslash, unplaced]
  by_cases hquote : c = '\'' ∨ c = '"'
  · simp [hslash, hquote, unplaced]
  by_cases htick : c = '`'
  · simp [htick, push, unplaced]
  by_cases hclose : isClosing c = true
  · simp only [hslash, hquote, htick, hclose, if_true, if_false]
    have hc := close?_map_unplaced c s.frames
    simp only [unplaced] at hc ⊢
    rw [hc]
    cases close? c s.frames <;> simp
  · simp only [hslash, hquote, htick, hclose, if_false]
    cases closingOf? c <;> simp [push, pass, unplaced]

theorem shape_stepPlain (s : Scanner) (c : Char) :
    shape (s.unplaced.stepPlain c) = shape (s.stepPlain c) := by
  obtain ⟨frames, line, mode⟩ := s
  cases frames with
  | nil => exact shape_stepCode ⟨[], line, mode⟩ c
  | cons f frames =>
    cases f with
    | bracket closing opened =>
      exact shape_stepCode ⟨.bracket closing opened :: frames, line, mode⟩ c
    | hole opened => exact shape_stepCode ⟨.hole opened :: frames, line, mode⟩ c
    | template opened =>
      simp only [stepPlain, stepTemplate, unplaced_mk, List.map_cons, Frame.unplaced_template]
      split_ifs <;> simp [pass]

theorem shape_step (s : Scanner) (c : Char) : shape (s.unplaced.step c) = shape (s.step c) := by
  obtain ⟨frames, line, mode⟩ := s
  have plain := shape_stepPlain ⟨frames, line, mode⟩ c
  cases mode with
  | plain => exact plain
  | slash =>
    change shape (if c = '/' then _ else if c = '*' then _ else _) = shape (step _ c)
    simp only [step]
    split_ifs
    · simp
    · simp
    · exact plain
  | dollar =>
    change shape (if c = '{' then _ else _) = shape (step _ c)
    simp only [step]
    split_ifs
    · simp [push]
    · exact plain
  | quoted quote escaped =>
    cases escaped with
    | true => simp [step, Mode.unplaced]
    | false =>
      simp only [step, unplaced_mk, Mode.unplaced]
      split_ifs <;> simp [Mode.unplaced]
  | lineComment =>
    simp only [step, unplaced_mk, Mode.unplaced]
    split_ifs <;> simp [pass, Mode.unplaced]
  | blockComment opened star =>
    simp only [step, unplaced_mk, Mode.unplaced_blockComment]
    split_ifs <;> simp [pass]
  | escaped => simp [step, pass, Mode.unplaced]

/-- What is left open behind a text, unless something in it is out of place. -/
def outcome (s : Scanner) (cs : List Char) : Option Scanner := shape (s.run cs)

@[simp] theorem outcome_nil (s : Scanner) : s.outcome [] = some s.unplaced := rfl

theorem outcome_cons_of_step {s t : Scanner} {c : Char} (h : s.step c = .ok t) (cs : List Char) :
    s.outcome (c :: cs) = t.outcome cs := by
  simp [outcome, run_cons, h, Except.bind]

theorem outcome_unplaced (s : Scanner) (cs : List Char) : s.unplaced.outcome cs = s.outcome cs := by
  induction cs generalizing s with
  | nil => simp
  | cons c cs ih =>
    have hstep := shape_step s c
    cases hs : s.step c with
    | error i =>
      cases hu : s.unplaced.step c with
      | error j => simp [outcome, run_cons, hs, hu, Except.bind]
      | ok u => simp [hs, hu] at hstep
    | ok t =>
      cases hu : s.unplaced.step c with
      | error j => simp [hs, hu] at hstep
      | ok u =>
        simp only [hs, hu, shape_ok, Option.some.injEq] at hstep
        rw [outcome_cons_of_step hs, outcome_cons_of_step hu, ← ih u, hstep, ih t]

theorem outcome_line (frames : List Frame) (line : Nat) (mode : Mode) (cs : List Char) :
    outcome ⟨frames, line, mode⟩ cs = outcome ⟨frames, 0, mode⟩ cs := by
  rw [← outcome_unplaced, ← outcome_unplaced ⟨frames, 0, mode⟩]
  rfl

theorem outcome_append (s : Scanner) (cs ds : List Char) :
    s.outcome (cs ++ ds) = (s.outcome cs).bind (·.outcome ds) := by
  unfold outcome
  rw [run_append]
  cases s.run cs with
  | error i => rfl
  | ok t => exact (outcome_unplaced t ds).symm

end Scanner

end ClientGen.Script
