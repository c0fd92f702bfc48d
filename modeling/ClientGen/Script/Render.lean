import ClientGen.Script.TypeText
import ClientGen.Text.Lines

namespace ClientGen.Script

open Layout (line block spaced)
open Text (joinWith guardCommentEnd scriptLines trimEnd)

def commentLines (text : String) : List (List Char) := (scriptLines text.toList).map trimEnd

def headerLine (l : List Char) : Layout.Step :=
  line (if l.isEmpty then "//" else "// " ++ String.ofList l)

def docLine (l : List Char) : Layout.Step :=
  line (if l.isEmpty then " *" else " * " ++ String.ofList (guardCommentEnd l))

def docComment (ds : List String) : Layout :=
  if ds.isEmpty then []
  else line "/**" :: ((ds.flatMap commentLines).map docLine ++ [line " */"])

def exportWord (exported : Bool) : String := if exported then "export " else ""

def asyncWord (isAsync : Bool) : String := if isAsync then "async " else ""

def Visibility.word : Visibility → String
  | .everyone => ""
  | .heirs => "protected "
  | .owner => "private "

def TypeParam.text (p : TypeParam) : String :=
  match p.defaultType with
  | some t => p.name ++ " = " ++ t.text ""
  | none => p.name

def typeParamList (ps : List TypeParam) : String :=
  if ps.isEmpty then "" else "<" ++ joinWith ", " (ps.map TypeParam.text) ++ ">"

def annotation (indentation : String) : Option TypeTerm → String
  | some t => ": " ++ t.text indentation
  | none => ""

/-- A parameter with a default is not marked optional. -/
def Param.text (indentation : String) (p : Param) : String :=
  p.name ++ (if p.optional && p.defaultValue.isNone then "?" else "")
    ++ annotation indentation p.type
    ++ (match p.defaultValue with
      | some value => " = " ++ value
      | none => "")

def paramList (indentation : String) (ps : List Param) : String :=
  joinWith ", " (ps.map (·.text indentation))

def sendMethod : String := "sendRequest"

namespace RequestCall

def arguments (call : RequestCall) : List String :=
  ["method: " ++ textLiteral call.verb.name, "path: " ++ textLiteral call.path]
    ++ (if call.passQuery then ["query"] else [])
    ++ (if call.passData then ["data"] else [])

def resultArgument (indentation : String) (call : RequestCall) : String :=
  match call.result with
  | some t => "<" ++ t.text indentation ++ ">"
  | none => ""

def guardLine (g : Guard) : String :=
  "if (" ++ g.flag ++ " && !" ++ g.validator ++ ".safeParse(" ++ g.payload ++ ").success) return;"

def layout (call : RequestCall) : Layout :=
  (match call.guard with
    | some g => [line (guardLine g)]
    | none => [])
  ++ [.line fun indentation =>
    "return this." ++ sendMethod ++ call.resultArgument indentation
      ++ "(\x7b " ++ joinWith ", " call.arguments ++ " \x7d);"]

end RequestCall

def Body.layout : Body → Layout
  | .statements lines => lines.map line
  | .request call => call.layout

def Import.layout (i : Import) : Layout :=
  [line ("import \x7b " ++ joinWith ", " i.symbols ++ " \x7d from " ++ textLiteral i.module ++ ";")]

def IndexSignature.layout (s : IndexSignature) : Layout :=
  [.line fun indentation =>
    "[" ++ s.keyName ++ ": " ++ s.keyType.text indentation ++ "]: "
      ++ s.valueType.text indentation ++ ";"]

def Field.layout (f : Field) : Layout :=
  docComment f.docs ++ [.line fun indentation => f.signature indentation ++ ";"]

def Interface.layout (i : Interface) : Layout :=
  docComment i.docs
    ++ block
      (fun _ =>
        exportWord i.exported ++ "interface " ++ i.name ++ typeParamList i.typeParams ++ " \x7b")
      ((match i.indexSignature with
        | some s => s.layout
        | none => [])
        ++ i.fields.flatMap Field.layout)
      "\x7d"

def Function.layout (f : Function) : Layout :=
  docComment f.docs
    ++ block
      (fun indentation =>
        exportWord f.exported ++ asyncWord f.isAsync ++ "function " ++ f.name
          ++ typeParamList f.typeParams ++ "(" ++ paramList indentation f.params ++ ")"
          ++ annotation indentation f.returnType ++ " \x7b")
      f.body.layout "\x7d"

def Constructor.layout (c : Constructor) : Layout :=
  block (fun indentation => "constructor(" ++ paramList indentation c.params ++ ") \x7b")
    (c.body.map line) "\x7d"

def ArrowMethod.layout (m : ArrowMethod) : Layout :=
  docComment m.docs
    ++ block
      (fun indentation =>
        objectKey m.name ++ ": (" ++ paramList indentation m.params ++ ") => \x7b")
      m.body.layout "\x7d,"

namespace Property

def head (indentation : String) (p : Property) : String :=
  p.visibility.word ++ (if p.readonly then "readonly " else "") ++ p.name
    ++ (if p.optional then "?" else "") ++ annotation indentation p.type

def layout (p : Property) : Layout :=
  docComment p.docs
    ++ match p.initializer with
      | none => [.line fun indentation => p.head indentation ++ ";"]
      | some (.raw expression) =>
        [.line fun indentation => p.head indentation ++ " = " ++ expression ++ ";"]
      | some (.object methods) =>
        block (fun indentation => p.head indentation ++ " = \x7b")
          (spaced (methods.map ArrowMethod.layout)) "\x7d;"

end Property

def Method.layout (m : Method) : Layout :=
  docComment m.docs
    ++ block
      (fun indentation =>
        m.visibility.word ++ asyncWord m.isAsync ++ m.name ++ typeParamList m.typeParams
          ++ "(" ++ paramList indentation m.params ++ ")"
          ++ annotation indentation m.returnType ++ " \x7b")
      m.body.layout "\x7d"

def Member.layout : Member → Layout
  | .constructor c => c.layout
  | .property p => p.layout
  | .method m => m.layout

def ClassDeclaration.layout (c : ClassDeclaration) : Layout :=
  docComment c.docs
    ++ block
      (fun _ =>
        exportWord c.exported ++ "class " ++ c.name
          ++ (match c.base with
            | some base => " extends " ++ base
            | none => "")
          ++ " \x7b")
      (spaced (c.members.map Member.layout)) "\x7d"

def File.layout (f : File) : Layout :=
  (f.header.flatMap commentLines).map headerLine ++ .blank ::
    (f.imports.flatMap Import.layout ++ .blank ::
      (f.interfaces.flatMap (fun i => i.layout ++ [.blank])
        ++ f.functions.flatMap (fun g => g.layout ++ [.blank])
        ++ f.classes.flatMap (fun c => c.layout ++ [.blank])))

def File.text (f : File) : String := f.layout.text

end ClientGen.Script
