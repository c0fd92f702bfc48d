/-! Whether the brackets of a script are balanced. Comments, string literals and the text of
template literals are skipped; the holes of template literals are code again. A slash never
begins a regular expression here. -/
namespace ClientGen.Script

inductive Frame
  | bracket (closing : Char) (line : Nat)
  | template (line : Nat)
  | hole (line : Nat)
deriving DecidableEq, Repr

/-- What the characters just before say about the next one. -/
inductive Mode
  /-- Nothing: the innermost frame decides. -/
  | plain
  /-- In code, a slash that may begin a comment. -/
  | slash
  | lineComment
  /-- `star` is set behind a star that may end the comment. -/
  | blockComment (opened : Nat) (star : Bool)
  | quoted (quote : Char) (escaped : Bool)
  | escaped
  | dollar
deriving DecidableEq, Repr

inductive Imbalance
  | unterminatedComment (line : Nat)
  | unterminatedString (line : Nat)
  | unexpected (closing : Char) (line : Nat)
  | missing (closing : Char) (opened : Nat)
  | unterminatedTemplate (opened : Nat)
deriving DecidableEq, Repr

namespace Imbalance

def describe : Imbalance → String
  | unterminatedComment line => "unterminated comment starting at line " ++ line.repr
  | unterminatedString line => "unterminated string at line " ++ line.repr
  | unexpected closing line => "unexpected '" ++ closing.toString ++ "' at line " ++ line.repr
  | missing closing opened =>
    "missing '" ++ closing.toString ++ "' for delimiter opened at line " ++ opened.repr
  | unterminatedTemplate opened =>
    "unterminated template literal starting at line " ++ opened.repr

def message (i : Imbalance) : String :=
  "Code generation failed: Generated code is invalid: " ++ i.describe

end Imbalance

def closingOf? : Char → Option Char
  | '(' => some ')'
  | '[' => some ']'
  | '{' => some '}'
  | _ => none

def isClosing (c : Char) : Bool := c == ')' || c == ']' || c == '}'

/-- What the innermost frame leaves open when a closing bracket is met. -/
def close? (c : Char) : List Frame → Option (List Frame)
  | .bracket closing _ :: frames => if closing = c then some frames else none
  | .hole _ :: frames => if c = '}' then some frames else none
  | _ => none

structure Scanner where
  frames : List Frame := []
  /-- The line of the next character, where a line feed behind a backslash in a string
  literal does not count. -/
  line : Nat := 1
  mode : Mode := .plain
deriving DecidableEq, Repr

def lineAfter (c : Char) (line : Nat) : Nat := if c = '\n' then line + 1 else line

namespace Scanner

def pass (s : Scanner) (c : Char) : Scanner :=
  { s with line := lineAfter c s.line, mode := .plain }

def push (s : Scanner) (f : Frame) : Scanner :=
  { s with frames := f :: s.frames, mode := .plain }

def stepCode (s : Scanner) (c : Char) : Except Imbalance Scanner :=
  if c = '/' then .ok { s with mode := .slash }
  else if c = '\'' ∨ c = '"' then .ok { s with mode := .quoted c false }
  else if c = '`' then .ok (s.push (.template s.line))
  else if isClosing c then
    match close? c s.frames with
    | some frames => .ok { s with frames, mode := .plain }
    | none => .error (.unexpected c s.line)
  else
    match closingOf? c with
    | some closing => .ok (s.push (.bracket closing s.line))
    | none => .ok (s.pass c)

/-- `outer` are the frames around the template literal. -/
def stepTemplate (s : Scanner) (outer : List Frame) (c : Char) : Scanner :=
  if c = '\\' then { s with mode := .escaped }
  else if c = '`' then { s with frames := outer, mode := .plain }
  else if c = '$' then { s with mode := .dollar }
  else s.pass c

def stepPlain (s : Scanner) (c : Char) : Except Imbalance Scanner :=
  match s.frames with
  | .template _ :: outer => .ok (s.stepTemplate outer c)
  | _ => s.stepCode c

def step (s : Scanner) (c : Char) : Except Imbalance Scanner :=
  match s.mode with
  | .plain => s.stepPlain c
  | .slash =>
    if c = '/' then .ok { s with mode := .lineComment }
    else if c = '*' then .ok { s with mode := .blockComment s.line false }
    else s.stepPlain c
  | .lineComment => .ok (if c = '\n' then s.pass c else s)
  | .blockComment opened star =>
    if star ∧ c = '/' then .ok (s.pass c)
    else .ok { s with line := lineAfter c s.line, mode := .blockComment opened (c == '*') }
  | .quoted quote true => .ok { s with mode := .quoted quote false }
  | .quoted quote false =>
    if c = '\\' then .ok { s with mode := .quoted quote true }
    else if c = '\n' then .error (.unterminatedString s.line)
    else if c = quote then .ok { s with mode := .plain }
    else .ok s
  | .escaped => .ok (s.pass c)
  | .dollar => if c = '{' then .ok (s.push (.hole s.line)) else s.stepPlain c

def run (s : Scanner) (cs : List Char) : Except Imbalance Scanner := cs.foldlM step s

theorem run_cons (s : Scanner) (c : Char) (cs : List Char) :
    s.run (c :: cs) = (s.step c).bind (·.run cs) := rfl

theorem run_append (s : Scanner) (cs ds : List Char) :
    s.run (cs ++ ds) = (s.run cs).bind (·.run ds) := List.foldlM_append

def verdict (s : Scanner) : Except Imbalance Unit :=
  match s.mode, s.frames with
  | .blockComment opened _, _ => .error (.unterminatedComment opened)
  | .quoted _ _, _ => .error (.unterminatedString s.line)
  | _, [] => .ok ()
  | _, .bracket closing opened :: _ => .error (.missing closing opened)
  | _, .template opened :: _ => .error (.unterminatedTemplate opened)
  | _, .hole opened :: _ => .error (.unterminatedTemplate opened)

end Scanner

/-- Accepts a script whose brackets, comments and literals are all closed. -/
def checkBalance (code : String) : Except Imbalance Unit := do
  (← Scanner.run {} code.toList).verdict

end ClientGen.Script
