import ClientGen.Json.Scan
/-! The four kinds of TOML strings. Each is read behind its opening quotes and gives the text
and what follows the closing ones. Controls other than the tab are refused. -/
namespace ClientGen.Toml

abbrev Reader (α : Type) := List Char → Option (α × List Char)

def isControl (c : Char) : Bool := (c < ' ' && c != '\t') || c == '\x7f'

def escape? : Char → Option Char
  | 'b' => some '\x08'
  | 't' => some '\t'
  | 'n' => some '\n'
  | 'f' => some '\x0c'
  | 'r' => some '\r'
  | '"' => some '"'
  | '\\' => some '\\'
  | _ => none

/-- The character with that number, unless it is half of a surrogate pair or too large. -/
def scalarChar? (n : Nat) : Option Char := if n.isValidChar then some (Char.ofNat n) else none

def shortEscape? (a b c d : Char) : Option Char := do scalarChar? (← Json.hexUnit? a b c d)

def longEscape? (a b c d e f g h : Char) : Option Char := do
  scalarChar? ((← Json.hexUnit? a b c d) * 0x10000 + (← Json.hexUnit? e f g h))

def basic (acc : List Char) : Reader String
  | [] => none
  | '"' :: cs => some (String.ofList acc.reverse, cs)
  | '\\' :: 'u' :: a :: b :: c :: d :: cs =>
    match shortEscape? a b c d with
    | some x => basic (x :: acc) cs
    | none => none
  | '\\' :: 'U' :: a :: b :: c :: d :: e :: f :: g :: h :: cs =>
    match longEscape? a b c d e f g h with
    | some x => basic (x :: acc) cs
    | none => none
  | '\\' :: c :: cs =>
    match escape? c with
    | some x => basic (x :: acc) cs
    | none => none
  | c :: cs => if isControl c || c == '\\' then none else basic (c :: acc) cs

def literal (acc : List Char) : Reader String
  | [] => none
  | '\'' :: cs => some (String.ofList acc.reverse, cs)
  | c :: cs => if isControl c then none else literal (c :: acc) cs

/-- Behind a backslash at the end of a line, blanks and ends of lines are left out; the first
end of a line must come before anything else. -/
inductive Gap
  | none
  | lineEnd
  | trimming
deriving DecidableEq, Repr

/-- Up to two quotes may stand before the closing three. An end of line is a line feed. -/
def multiBasic (acc : List Char) (gap : Gap) : Reader String
  | [] => Option.none
  | '"' :: '"' :: '"' :: '"' :: '"' :: cs =>
    if gap = .lineEnd then Option.none else some (String.ofList ('"' :: '"' :: acc).reverse, cs)
  | '"' :: '"' :: '"' :: '"' :: cs =>
    if gap = .lineEnd then Option.none else some (String.ofList ('"' :: acc).reverse, cs)
  | '"' :: '"' :: '"' :: cs =>
    if gap = .lineEnd then Option.none else some (String.ofList acc.reverse, cs)
  | '\r' :: '\n' :: cs =>
    if gap = .none then multiBasic ('\n' :: acc) .none cs else multiBasic acc .trimming cs
  | '\n' :: cs =>
    if gap = .none then multiBasic ('\n' :: acc) .none cs else multiBasic acc .trimming cs
  | '\\' :: 'u' :: a :: b :: c :: d :: cs =>
    match gap, shortEscape? a b c d with
    | .lineEnd, _ => Option.none
    | _, some x => multiBasic (x :: acc) .none cs
    | _, Option.none => Option.none
  | '\\' :: 'U' :: a :: b :: c :: d :: e :: f :: g :: h :: cs =>
    match gap, longEscape? a b c d e f g h with
    | .lineEnd, _ => Option.none
    | _, some x => multiBasic (x :: acc) .none cs
    | _, Option.none => Option.none
  | '\\' :: c :: cs =>
    match gap, escape? c with
    | .lineEnd, _ => Option.none
    | _, some x => multiBasic (x :: acc) .none cs
    | _, Option.none =>
      if c = ' ' ∨ c = '\t' then multiBasic acc .lineEnd cs
      else if c = '\n' then multiBasic acc .trimming cs
      else if c = '\r' ∧ cs.head? = some '\n' then multiBasic acc .lineEnd cs
      else Option.none
  | c :: cs =>
    if gap ≠ .none ∧ (c = ' ' ∨ c = '\t') then multiBasic acc gap cs
    else if gap = .lineEnd ∨ isControl c ∨ c = '\\' then Option.none
    else multiBasic (c :: acc) .none cs

def multiLiteral (acc : List Char) : Reader String
  | [] => none
  | '\'' :: '\'' :: '\'' :: '\'' :: '\'' :: cs =>
    some (String.ofList ('\'' :: '\'' :: acc).reverse, cs)
  | '\'' :: '\'' :: '\'' :: '\'' :: cs => some (String.ofList ('\'' :: acc).reverse, cs)
  | '\'' :: '\'' :: '\'' :: cs => some (String.ofList acc.reverse, cs)
  | '\r' :: '\n' :: cs => multiLiteral ('\n' :: acc) cs
  | '\n' :: cs => multiLiteral ('\n' :: acc) cs
  | c :: cs => if isControl c then none else multiLiteral (c :: acc) cs

def dropFirstLineEnd : List Char → List Char
  | '\r' :: '\n' :: cs => cs
  | '\n' :: cs => cs
  | cs => cs

end ClientGen.Toml
