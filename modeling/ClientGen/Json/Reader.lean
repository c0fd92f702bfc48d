import ClientGen.Json.Scan
/-! Reading a text into a draft, in one pass from left to right. Where a reading stops, what
the draft holds behind the flaw has no meaning, and no text is left. -/
namespace ClientGen.Json

def stopped (s : List Char) (f : Flaw) : Draft × Option (Rest s) := (.flawed f, none)

def readWord (s w : List Char) (d : Draft) : Draft × Option (Rest s) :=
  match s with
  | [] => stopped [] (.hard .incomplete)
  | c :: cs =>
    match h : word w cs with
    | .ok r => (d, some ⟨r, Nat.lt_succ_of_le (length_le_of_word h)⟩)
    | .error f => stopped (c :: cs) ⟨f, some f, .malformed⟩

def readText (s : List Char) : Draft × Option (Rest s) :=
  match s with
  | [] => stopped [] (.hard .incomplete)
  | c :: cs =>
    match h : string [] false none cs with
    | (.ok t, some r) => (.text t, some ⟨r, Nat.lt_succ_of_lt (length_lt_of_string h)⟩)
    | (.error f, some r) => (.flawed f, some ⟨r, Nat.lt_succ_of_lt (length_lt_of_string h)⟩)
    | (.error f, none) => stopped (c :: cs) f
    | (.ok _, none) => stopped (c :: cs) (.hard .incomplete)

/-- A number beyond the largest finite one is a flaw only for a reader who wants it. -/
def readNumber (s : List Char) : Draft × Option (Rest s) :=
  match h : numeral s with
  | .error f => stopped s f
  | .ok (n, r) =>
    let d := match n.number? with
      | some x => .number x
      | none => .flawed ⟨.malformed, none, .malformed⟩
    (d, some ⟨r, length_lt_of_numeral h⟩)

def readScalar (s : List Char) : Draft × Option (Rest s) :=
  match s with
  | [] => stopped [] (.hard .incomplete)
  | c :: cs =>
    if c = '"' then readText (c :: cs)
    else if c = 'n' then readWord (c :: cs) ['u', 'l', 'l'] .null
    else if c = 't' then readWord (c :: cs) ['r', 'u', 'e'] (.bool true)
    else if c = 'f' then readWord (c :: cs) ['a', 'l', 's', 'e'] (.bool false)
    else if c = '-' ∨ c.isDigit then readNumber (c :: cs)
    else stopped (c :: cs) (.hard .malformed)

mutual

def read (s : List Char) : Draft × Option (Rest s) :=
  have hs := length_dropBlanks_le s
  match h : dropBlanks s with
  | '[' :: t =>
    have ht := length_lt_of_dropBlanks h
    let (items, r) := readArray t
    (.list items, r.map (Rest.within (Nat.le_of_lt ht)))
  | '{' :: t =>
    have ht := length_lt_of_dropBlanks h
    let (members, r) := readObject t
    (.object members, r.map (Rest.within (Nat.le_of_lt ht)))
  | t =>
    let (d, r) := readScalar t
    (d, r.map (Rest.within (h ▸ hs)))
termination_by (s.length, 0)

def readArray (s : List Char) : Items × Option (Rest s) :=
  match h : dropBlanks s with
  | [] => (.cut .incomplete, none)
  | ']' :: t => (.closed, some ⟨t, length_lt_of_dropBlanks h⟩)
  | _ => readItems s
termination_by (s.length, 2)

def readItems (s : List Char) : Items × Option (Rest s) :=
  match read s with
  | (d, none) => (.cons d .closed, none)
  | (d, some ⟨r, hr⟩) =>
    match h : dropBlanks r with
    | [] => (.cons d (.cut .incomplete), none)
    | c :: t =>
      have ht := Nat.lt_trans (length_lt_of_dropBlanks h) hr
      if c = ']' then (.cons d .closed, some ⟨t, ht⟩)
      else if c = ',' then
        let (items, r) := readItems t
        (.cons d items, r.map (Rest.within (Nat.le_of_lt ht)))
      else (.cons d (.cut .malformed), none)
termination_by (s.length, 1)

def readObject (s : List Char) : Members × Option (Rest s) :=
  match h : dropBlanks s with
  | [] => (.cut .incomplete, none)
  | '}' :: t => (.closed, some ⟨t, length_lt_of_dropBlanks h⟩)
  | _ => readMembers s
termination_by (s.length, 2)

def readMembers (s : List Char) : Members × Option (Rest s) :=
  match h : dropBlanks s with
  | [] => (.entry (.error (.hard .incomplete)) .null .closed, none)
  | '"' :: t =>
    have ht := length_lt_of_dropBlanks h
    match hk : string [] false none t with
    | (key, none) => (.entry key .null .closed, none)
    | (key, some r) =>
      have hr := Nat.lt_trans (length_lt_of_string hk) ht
      match h₁ : dropBlanks r with
      | [] => (.entry key (.flawed (.hard .incomplete)) .closed, none)
      | c :: u =>
        have hu := Nat.lt_trans (length_lt_of_dropBlanks h₁) hr
        if c = ':' then
          match read u with
          | (v, none) => (.entry key v .closed, none)
          | (v, some ⟨w, hw⟩) =>
            match h₂ : dropBlanks w with
            | [] => (.entry key v (.cut .incomplete), none)
            | c :: x =>
              have hx := Nat.lt_trans (length_lt_of_dropBlanks h₂) (Nat.lt_trans hw hu)
              if c = '}' then (.entry key v .closed, some ⟨x, hx⟩)
              else if c = ',' then
                let (members, r) := readMembers x
                (.entry key v members, r.map (Rest.within (Nat.le_of_lt hx)))
              else (.entry key v (.cut .malformed), none)
        else (.entry key (.flawed (.hard .malformed)) .closed, none)
  | _ => (.cut .malformed, none)
termination_by (s.length, 1)

end

/-- The value at the front of the text, and whether only blanks follow it. -/
def ofText (text : String) : Draft × Bool :=
  let (d, r) := read text.toList
  (d, match r with
    | some ⟨rest, _⟩ => rest.all isBlank
    | none => false)

end ClientGen.Json
