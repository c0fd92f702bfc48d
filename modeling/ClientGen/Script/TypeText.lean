import ClientGen.Text.Name
import ClientGen.Script.Syntax
import ClientGen.Script.Layout
import ClientGen.Text.Lines
/-! The text of literals and types. `indentation` is that of the line on which the type begins; an
object type whose fields have comments takes a line for each field, all others stay on one
line. -/
namespace ClientGen.Script

def escapeChar (c : Char) : List Char :=
  if c = '\\' then ['\\', '\\']
  else if c = '\'' then ['\\', '\'']
  else if c = '\n' then ['\\', 'n']
  else if c = '\r' then ['\\', 'r']
  else [c]

def textLiteral (value : String) : String :=
  String.ofList ('\'' :: (value.toList.flatMap escapeChar ++ ['\'']))

def objectKey (name : String) : String :=
  if Text.isIdentifier name then name else textLiteral name

open Text (joinWith guardCommentEnd feedLines)

def fieldDocs (indentation : String) (docs : List String) : String :=
  joinWith "" (docs.flatMap fun doc => (feedLines doc.toList).map fun l =>
    indentation ++ "/** " ++ String.ofList (guardCommentEnd l) ++ " */\n")

mutual

def TypeTerm.text (indentation : String) : TypeTerm → String
  | .named name => name
  | .generic name arguments => name ++ "<" ++ joinWith ", " (typeTexts indentation arguments) ++ ">"
  | .array item =>
    if item.isUnion then "(" ++ item.text indentation ++ ")[]" else item.text indentation ++ "[]"
  | .union members => joinWith " | " (typeTexts indentation members)
  | .literal value => textLiteral value
  | .object fields =>
    if fields.isEmpty then "\x7b\x7d"
    else if fields.all (·.docs.isEmpty) then
      "\x7b " ++ joinWith "; " (fieldSignatures indentation fields) ++ " \x7d"
    else
      "\x7b\n" ++ documentedFields (indentation ++ Layout.unit) fields ++ indentation ++ "\x7d"
  | .typeOf expression => "typeof " ++ expression

def typeTexts (indentation : String) : List TypeTerm → List String
  | [] => []
  | t :: ts => t.text indentation :: typeTexts indentation ts

def Field.signature (indentation : String) : Field → String
  | ⟨name, type, optional, _⟩ =>
    objectKey name ++ (if optional then "?" else "") ++ ": " ++ type.text indentation

def fieldSignatures (indentation : String) : List Field → List String
  | [] => []
  | f :: fs => f.signature indentation :: fieldSignatures indentation fs

def documentedFields (indentation : String) : List Field → String
  | [] => ""
  | f :: fs =>
    fieldDocs indentation f.docs ++ indentation ++ f.signature indentation ++ ";\n"
      ++ documentedFields indentation fs

end

namespace TypeTerm

variable (indentation : String)

theorem text_named (name : String) : (named name).text indentation = name := rfl

theorem text_generic (name : String) (arguments : List TypeTerm) :
    (generic name arguments).text indentation =
      name ++ "<" ++ joinWith ", " (typeTexts indentation arguments) ++ ">" := rfl

theorem text_array (item : TypeTerm) :
    (array item).text indentation =
      if item.isUnion then "(" ++ item.text indentation ++ ")[]"
      else item.text indentation ++ "[]" := rfl

theorem text_union (members : List TypeTerm) :
    (union members).text indentation = joinWith " | " (typeTexts indentation members) := rfl

theorem text_literal (value : String) :
    (literal value).text indentation = textLiteral value := rfl

theorem text_object (fields : List Field) :
    (object fields).text indentation =
      if fields.isEmpty then "\x7b\x7d"
      else if fields.all (·.docs.isEmpty) then
        "\x7b " ++ joinWith "; " (fieldSignatures indentation fields) ++ " \x7d"
      else
        "\x7b\n" ++ documentedFields (indentation ++ Layout.unit) fields ++ indentation
          ++ "\x7d" := rfl

theorem text_typeOf (expression : String) :
    (typeOf expression).text indentation = "typeof " ++ expression := rfl

end TypeTerm

end ClientGen.Script
