import ClientGen.Text.Lines
/-! A script without its comments. String and template literals are passed over as they
stand, the holes of template literals with them; `//` comments end where a script engine ends
them, block comments at the first `*/`. -/
namespace ClientGen.Script

open Text (endsScriptLine isBlank)

inductive Place
  | code
  /-- Behind a slash of the code, which may begin a comment. -/
  | slash
  | lineComment
  /-- `star` is set behind a star that may end the comment. -/
  | blockComment (star : Bool)
  | quoted (quote : Char) (escaped : Bool)
  | template
  | escaped
  | dollar
deriving DecidableEq, Repr

structure Reader where
  place : Place := .code
  /-- The holes around the place, each with the number of braces open in it. -/
  holes : List Nat := []
deriving DecidableEq, Repr

namespace Reader

def nextInCode (holes : List Nat) (c : Char) : Reader :=
  if c = '/' then ⟨.slash, holes⟩
  else if c = '\'' ∨ c = '"' then ⟨.quoted c false, holes⟩
  else if c = '`' then ⟨.template, holes⟩
  else
    match holes with
    | [] => ⟨.code, []⟩
    | braces :: outer =>
      if c = '{' then ⟨.code, (braces + 1) :: outer⟩
      else if c = '}' then
        match braces with
        | 0 => ⟨.template, outer⟩
        | braces + 1 => ⟨.code, braces :: outer⟩
      else ⟨.code, holes⟩

def nextInTemplate (holes : List Nat) (c : Char) : Reader :=
  if c = '\\' then ⟨.escaped, holes⟩
  else if c = '`' then ⟨.code, holes⟩
  else if c = '$' then ⟨.dollar, holes⟩
  else ⟨.template, holes⟩

def next : Reader → Char → Reader
  | ⟨.code, holes⟩, c => nextInCode holes c
  | ⟨.slash, holes⟩, c =>
    if c = '/' then ⟨.lineComment, holes⟩
    else if c = '*' then ⟨.blockComment false, holes⟩
    else nextInCode holes c
  | ⟨.lineComment, holes⟩, c => if endsScriptLine c then ⟨.code, holes⟩ else ⟨.lineComment, holes⟩
  | ⟨.blockComment star, holes⟩, c =>
    if star ∧ c = '/' then ⟨.code, holes⟩ else ⟨.blockComment (c == '*'), holes⟩
  | ⟨.quoted quote true, holes⟩, _ => ⟨.quoted quote false, holes⟩
  | ⟨.quoted quote false, holes⟩, c =>
    if c = '\\' then ⟨.quoted quote true, holes⟩
    else if c = quote then ⟨.code, holes⟩
    else ⟨.quoted quote false, holes⟩
  | ⟨.template, holes⟩, c => nextInTemplate holes c
  | ⟨.escaped, holes⟩, _ => ⟨.template, holes⟩
  | ⟨.dollar, holes⟩, c => if c = '{' then ⟨.code, 0 :: holes⟩ else nextInTemplate holes c

/-- What stays of a character. A slash is held back until it is known what it begins. -/
def kept : Reader → Char → List Char
  | ⟨_, _ :: _⟩, c => [c]
  | ⟨.code, []⟩, c => if c = '/' then [] else [c]
  | ⟨.slash, []⟩, c => if c = '/' ∨ c = '*' then [] else ['/', c]
  | ⟨.lineComment, []⟩, c => if endsScriptLine c then [c] else []
  | ⟨.blockComment _, []⟩, _ => []
  | ⟨_, []⟩, c => [c]

def pending (r : Reader) : List Char := if r = ⟨.slash, []⟩ then ['/'] else []

def read (r : Reader) : List Char → Reader × List Char
  | [] => (r, [])
  | c :: cs =>
    let (last, rest) := (r.next c).read cs
    (last, r.kept c ++ rest)

theorem read_cons (r : Reader) (c : Char) (cs : List Char) :
    r.read (c :: cs) = (((r.next c).read cs).1, r.kept c ++ ((r.next c).read cs).2) := rfl

theorem read_append (r : Reader) (cs ds : List Char) :
    r.read (cs ++ ds) =
      (((r.read cs).1.read ds).1, (r.read cs).2 ++ ((r.read cs).1.read ds).2) := by
  induction cs generalizing r with
  | nil => rfl
  | cons c cs ih => simp [read_cons, ih]

end Reader

def withoutComments (cs : List Char) : List Char :=
  let (last, kept) := Reader.read {} cs
  kept ++ last.pending

def filledLines (cs : List Char) : List (List Char) :=
  (cs.splitOn '\n').filter fun l => !l.all isBlank

/-- The lines of a script that are left when its comments are taken out. -/
def codeLines (code : String) : List (List Char) := filledLines (withoutComments code.toList)

end ClientGen.Script
