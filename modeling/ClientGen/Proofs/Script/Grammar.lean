import ClientGen.Script.Balance
/-! A grammar of scripts. Code is a sequence of characters, comments, literals and bracketed
code; the text of a template literal is a sequence of characters and holes with code in them.
What a character begins is settled by the one behind it, so the rules look one character ahead. -/
namespace ClientGen.Script

inductive Part
  /-- `last` is set where the script ends with this code. -/
  | code (last : Bool)
  | template
deriving DecidableEq, Repr

inductive QuotedItems (quote : Char) : List Char → Prop
  | nil : QuotedItems quote []
  | escaped (c : Char) {s : List Char} (rest : QuotedItems quote s) :
      QuotedItems quote ('\\' :: c :: s)
  | char {c : Char} {s : List Char} (hc : c ≠ '\\' ∧ c ≠ '\n' ∧ c ≠ quote)
      (rest : QuotedItems quote s) : QuotedItems quote (c :: s)

/-- The whole of a text is of this kind. -/
inductive Derives : Part → List Char → Prop
  | nil (part : Part) : Derives part []
  | char {last : Bool} {c : Char} {s : List Char}
      (hc : c ∉ ['/', '\'', '"', '`', '(', ')', '[', ']', '{', '}'])
      (rest : Derives (.code last) s) : Derives (.code last) (c :: s)
  | slash {last : Bool} {s : List Char} (hs : s.head? ≠ some '/' ∧ s.head? ≠ some '*')
      (rest : Derives (.code last) s) : Derives (.code last) ('/' :: s)
  | lineComment {last : Bool} {body s : List Char} (hbody : '\n' ∉ body)
      (rest : Derives (.code last) s) : Derives (.code last) ('/' :: '/' :: (body ++ '\n' :: s))
  /-- Only the end of the script ends a comment as a line feed does. -/
  | lastComment {body : List Char} (hbody : '\n' ∉ body) :
      Derives (.code true) ('/' :: '/' :: body)
  /-- The star that opens the comment is not part of its body, so it cannot end it. -/
  | blockComment {last : Bool} {body s : List Char} (hbody : ¬ ['*', '/'] <:+: body)
      (rest : Derives (.code last) s) :
      Derives (.code last) ('/' :: '*' :: (body ++ '*' :: '/' :: s))
  | quoted {last : Bool} {quote : Char} {items s : List Char} (hquote : quote ∈ ['\'', '"'])
      (hitems : QuotedItems quote items) (rest : Derives (.code last) s) :
      Derives (.code last) (quote :: (items ++ quote :: s))
  | bracket {last : Bool} {opening closing : Char} {inner s : List Char}
      (hpair : (opening, closing) ∈ [('(', ')'), ('[', ']'), ('{', '}')])
      (hinner : Derives (.code false) inner) (rest : Derives (.code last) s) :
      Derives (.code last) (opening :: (inner ++ closing :: s))
  | template {last : Bool} {text s : List Char} (htext : Derives .template text)
      (rest : Derives (.code last) s) : Derives (.code last) ('`' :: (text ++ '`' :: s))
  | templateChar {c : Char} {s : List Char} (hc : c ∉ ['`', '\\', '$'])
      (rest : Derives .template s) : Derives .template (c :: s)
  | templateEscaped (c : Char) {s : List Char} (rest : Derives .template s) :
      Derives .template ('\\' :: c :: s)
  | dollar {s : List Char} (hs : s.head? ≠ some '{') (rest : Derives .template s) :
      Derives .template ('$' :: s)
  | hole {inner s : List Char} (hinner : Derives (.code false) inner)
      (rest : Derives .template s) : Derives .template ('$' :: '{' :: (inner ++ '}' :: s))

theorem QuotedItems.append {quote : Char} {s t : List Char} (hs : QuotedItems quote s)
    (ht : QuotedItems quote t) : QuotedItems quote (s ++ t) := by
  induction hs with
  | nil => exact ht
  | escaped c _ ih => exact .escaped c ih
  | char hc _ ih => exact .char hc ih

end ClientGen.Script
