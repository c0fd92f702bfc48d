/-! Indented lines. A layout is a list of steps; a line may depend on the indentation it
stands at, so that a text of several lines can continue it. -/
namespace ClientGen.Script

inductive Layout.Step
  | line (text : (indentation : String) → String)
  /-- At most one empty line, and none at the top. -/
  | blank
  | indent
  | dedent

abbrev Layout := List Layout.Step

namespace Layout

def line (text : String) : Step := .line fun _ => text

def unit : String := "  "

def indentation : Nat → String
  | 0 => ""
  | n + 1 => unit ++ indentation n

/-- What has been written, the last character first. -/
structure Canvas where
  reversed : List Char := []
  level : Nat := 0

namespace Canvas

def write (c : Canvas) (text : String) : Canvas :=
  { c with reversed := text.toList.reverseAux c.reversed }

def line (c : Canvas) (text : String) : Canvas :=
  if text.isEmpty then c.write "\n"
  else ((c.write (indentation c.level)).write text).write "\n"

def blank (c : Canvas) : Canvas :=
  match c.reversed with
  | [] => c
  | '\n' :: '\n' :: _ => c
  | _ => c.write "\n"

def step (c : Canvas) : Step → Canvas
  | .line text => c.line (text (indentation c.level))
  | .blank => c.blank
  | .indent => { c with level := c.level + 1 }
  | .dedent => { c with level := c.level - 1 }

def run (c : Canvas) (l : Layout) : Canvas := l.foldl step c

@[simp] theorem run_nil (c : Canvas) : c.run [] = c := rfl

@[simp] theorem run_cons (c : Canvas) (s : Step) (l : Layout) :
    c.run (s :: l) = (c.step s).run l := rfl

@[simp] theorem run_append (c : Canvas) (l m : Layout) : c.run (l ++ m) = (c.run l).run m :=
  List.foldl_append

@[simp] theorem level_line (c : Canvas) (text : String) : (c.line text).level = c.level := by
  unfold line
  split <;> rfl

@[simp] theorem level_blank (c : Canvas) : c.blank.level = c.level := by
  unfold blank
  split <;> rfl

/-- Of the line feeds at the end, one stays. -/
def trimFeeds : List Char → List Char
  | '\n' :: '\n' :: cs => trimFeeds ('\n' :: cs)
  | cs => cs

def text (c : Canvas) : String := String.ofList (trimFeeds c.reversed).reverse

end Canvas

def text (l : Layout) : String := (Canvas.run {} l).text

def spaced : List Layout → Layout
  | [] => []
  | [l] => l
  | l :: m :: rest => l ++ .blank :: spaced (m :: rest)

def block (head : String → String) (body : Layout) (tail : String) : Layout :=
  .line head :: .indent :: (body ++ [.dedent, line tail])

end Layout

end ClientGen.Script
