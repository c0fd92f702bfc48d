import ClientGen.Table
import ClientGen.Toml.Scalar
import ClientGen.Toml.Quoted
/-! Reading a TOML text into a table. No setting is a number, a boolean or a date, so those keep
their spelling. Arrays of tables are refused: no setting is one. -/
namespace ClientGen.Toml

inductive Value
  | text (value : String)
  | scalar (spelling : String)
  | list (items : List Value)
  | table (entries : List (String × Value))
deriving Inhabited

/-- How a table came to be. Only one that a header further in implied can still get a header
of its own, and only one made by dotted keys can still get dotted keys. -/
inductive Source
  | header
  | implied
  | dotted
deriving DecidableEq, Repr

inductive Node
  | value (v : Value)
  | table (source : Source) (entries : List (String × Node))
deriving Inhabited

mutual

def Node.close : Node → Value
  | .value v => v
  | .table _ entries => .table (closeAll entries)

def closeAll : List (String × Node) → List (String × Value)
  | [] => []
  | (k, n) :: rest => (k, n.close) :: closeAll rest

end

def insertDotted (key : String) (v : Value) :
    (path : List String) → Table Node → Option (Table Node)
  | [], t => if t.contains key then none else some (t.put key (.value v))
  | [p], t =>
    match t.get? p with
    | none => some (t.put p (.table .dotted [(key, .value v)]))
    | some (.table .dotted inner) =>
      if Table.contains inner key then none
      else some (t.put p (.table .dotted (Table.put inner key (.value v))))
    | some _ => none
  | p :: ps, t =>
    match t.get? p with
    | none => (insertDotted key v ps []).map fun inner => t.put p (.table .dotted inner)
    | some (.table .header _) => none
    | some (.table source inner) =>
      (insertDotted key v ps inner).map fun inner => t.put p (.table source inner)
    | some (.value _) => none

def within (f : Table Node → Option (Table Node)) :
    (path : List String) → Table Node → Option (Table Node)
  | [], t => f t
  | p :: ps, t =>
    match t.get? p with
    | none => (within f ps []).map fun inner => t.put p (.table .implied inner)
    | some (.table source inner) =>
      (within f ps inner).map fun inner => t.put p (.table source inner)
    | some (.value _) => none

/-- A header for `key`, which may have been implied but not made in any other way. -/
def openTable (key : String) (t : Table Node) : Option (Table Node) :=
  match t.get? key with
  | none => some (t.put key (.table .header []))
  | some (.table .implied inner) => some (t.put key (.table .header inner))
  | some _ => none

def isBlank (c : Char) : Bool := c == ' ' || c == '\t'

def dropBlanks (s : List Char) : List Char := s.dropWhile isBlank

def dropComment : List Char → List Char
  | '#' :: cs => cs.dropWhile fun c => !isControl c
  | cs => cs

def lineEnd (s : List Char) : Option (List Char) :=
  match dropComment (dropBlanks s) with
  | [] => some []
  | '\n' :: cs => some cs
  | '\r' :: '\n' :: cs => some cs
  | _ => none

def dropGaps : (fuel : Nat) → List Char → List Char
  | 0, s => s
  | fuel + 1, s =>
    match dropComment (dropBlanks s) with
    | '\n' :: cs => dropGaps fuel cs
    | '\r' :: '\n' :: cs => dropGaps fuel cs
    | _ => dropBlanks s

def isBareKeyChar (c : Char) : Bool := c.isAlphanum || c == '_' || c == '-'

def simpleKey : Reader String
  | '"' :: cs => basic [] cs
  | '\'' :: cs => literal [] cs
  | cs =>
    let run := cs.takeWhile isBareKeyChar
    if run.isEmpty then none else some (String.ofList run, cs.drop run.length)

def dottedKey : (fuel : Nat) → Reader (List String)
  | 0, _ => none
  | fuel + 1, s => do
    let (key, s) ← simpleKey (dropBlanks s)
    match dropBlanks s with
    | '.' :: s =>
      let (keys, s) ← dottedKey fuel s
      return (key :: keys, s)
    | s => return ([key], s)

/-- How deep arrays and inline tables may stand inside each other, and how many simple keys a
dotted key may have. -/
def maxDepth : Nat := 79

def keyPath (s : List Char) : Option (List String × String × List Char) := do
  let (keys, s) ← dottedKey s.length s
  if maxDepth < keys.length then none else return (keys.dropLast, ← keys.getLast?, s)

def keyValue (value : Reader Value) (t : Table Node) : Reader (Table Node) := fun s => do
  let (path, key, s) ← keyPath s
  match s with
  | '=' :: s =>
    let (v, s) ← value (dropBlanks s)
    return (← insertDotted key v path t, s)
  | _ => none

/-- The items behind an opening bracket. A comma may follow the last one. -/
def arrayItems (value : Reader Value) : (fuel : Nat) → Reader (List Value)
  | 0, _ => none
  | fuel + 1, s =>
    match dropGaps s.length s with
    | ']' :: s => some ([], s)
    | s => do
      let (v, s) ← value s
      match dropGaps s.length s with
      | ']' :: s => return ([v], s)
      | ',' :: s =>
        let (vs, s) ← arrayItems value fuel s
        return (v :: vs, s)
      | _ => none

/-- The entries of an inline table, of which there is one more. No comma follows the last. -/
def inlineEntries (value : Reader Value) : (fuel : Nat) → Table Node → Reader (Table Node)
  | 0, _, _ => none
  | fuel + 1, t, s => do
    let (t, s) ← keyValue value t (dropBlanks s)
    match dropBlanks s with
    | '}' :: s => return (t, s)
    | ',' :: s => inlineEntries value fuel t s
    | _ => none

def inlineTable (value : Reader Value) : Reader (Table Node) := fun s =>
  match dropBlanks s with
  | '}' :: s => some ([], s)
  | s => inlineEntries value s.length [] s

def scalar : Reader Value := fun s =>
  let run := scalarRun s
  if isScalar run then some (.scalar (String.ofList run), s.drop run.length) else none

def value : (depth : Nat) → Reader Value
  | _, '"' :: '"' :: '"' :: cs =>
    (multiBasic [] .none (dropFirstLineEnd cs)).map fun p => (.text p.1, p.2)
  | _, '"' :: cs => (basic [] cs).map fun p => (.text p.1, p.2)
  | _, '\'' :: '\'' :: '\'' :: cs =>
    (multiLiteral [] (dropFirstLineEnd cs)).map fun p => (.text p.1, p.2)
  | _, '\'' :: cs => (literal [] cs).map fun p => (.text p.1, p.2)
  | depth + 1, '[' :: cs => (arrayItems (value depth) cs.length cs).map fun p => (.list p.1, p.2)
  | depth + 1, '{' :: cs =>
    (inlineTable (value depth) cs).map fun p => (.table (closeAll p.1), p.2)
  | _, s => scalar s

def header : Reader (List String × String)
  | '[' :: s => do
    let (path, key, s) ← keyPath s
    match s with
    | ']' :: s => return ((path, key), s)
    | _ => none
  | _ => none

/-- `current` is the path of the table that the last header opened. -/
def lines :
    (fuel : Nat) → (current : List String) → Table Node → List Char → Option (Table Node)
  | 0, _, t, _ => some t
  | fuel + 1, current, t, s =>
    match dropBlanks s with
    | [] => some t
    | c :: cs =>
      if c = '[' then do
        let ((path, key), rest) ← header (c :: cs)
        lines fuel (path ++ [key]) (← within (openTable key) path t) (← lineEnd rest)
      else if c = '#' ∨ c = '\n' ∨ c = '\r' then do
        lines fuel current t (← lineEnd (c :: cs))
      else do
        let (path, key, rest) ← keyPath (c :: cs)
        match rest with
        | '=' :: rest =>
          let (v, rest) ← value maxDepth (dropBlanks rest)
          lines fuel current (← within (insertDotted key v path) current t) (← lineEnd rest)
        | _ => none

def dropMark : List Char → List Char
  | '\ufeff' :: cs => cs
  | cs => cs

def ofText (text : String) : Option (List (String × Value)) :=
  let s := dropMark text.toList
  (lines (s.length + 1) [] [] s).map closeAll

end ClientGen.Toml
