import ClientGen.Json.Draft
import ClientGen.Text.Quoted
import ClientGen.Text.Lines
import ClientGen.Text.Name

namespace ClientGen.Json

inductive Found
  | null
  | bool (value : Bool)
  | number (value : Number)
  | text (value : String)
  | sequence
  | map
deriving DecidableEq, Repr

namespace Found

def describe : Found → String
  | .null => "null"
  | .bool true => "boolean `true`"
  | .bool false => "boolean `false`"
  | .number (.integer n) => "integer `" ++ (Number.integer n).text ++ "`"
  | .number (.real x) => "floating point `" ++ (Number.real x).text ++ "`"
  | .text s => "string " ++ Text.quote s
  | .sequence => "sequence"
  | .map => "map"

end Found

inductive Wanted
  | string
  | boolean
  | map
  | sequence
  | unit
  | record (name : String)
  | stringOrMap
deriving DecidableEq, Repr

namespace Wanted

def describe : Wanted → String
  | .string => "a string"
  | .boolean => "a boolean"
  | .map => "a map"
  | .sequence => "a sequence"
  | .unit => "unit"
  | .record name => "struct " ++ name
  | .stringOrMap => "string or map"

end Wanted

inductive Mismatch
  | wrongType (found : Found) (wanted : Wanted)
  | missingField (name : String)
  | duplicateField (name : String)
  | unknownChoice (found : String) (known : List String)
  | notOneMember
  | noAlternative (name : String)
  | tooManyItems (length : Nat)
  | tooFewItems (length : Nat) (record : String) (fields : Nat)
deriving DecidableEq, Repr

def Mismatch.message : Mismatch → String
  | .wrongType found wanted =>
    "invalid type: " ++ found.describe ++ ", expected " ++ wanted.describe
  | .missingField name => "missing field `" ++ name ++ "`"
  | .duplicateField name => "duplicate field `" ++ name ++ "`"
  | .unknownChoice found known =>
    "unknown variant `" ++ found ++ "`, expected one of "
      ++ Text.joinWith ", " (known.map fun k => "`" ++ k ++ "`")
  | .notOneMember => "invalid value: map, expected map with a single key"
  | .noAlternative name => "data did not match any variant of untagged enum " ++ name
  | .tooManyItems length =>
    "invalid length " ++ length.repr ++ ", expected fewer elements in array"
  | .tooFewItems length record fields =>
    "invalid length " ++ length.repr ++ ", expected struct " ++ record ++ " with "
      ++ fields.repr ++ " elements"

inductive Problem
  | text (fault : Fault)
  | shape (mismatch : Mismatch)
deriving DecidableEq, Repr

/-- The problem of a draft that is not of the wanted type. A flaw is met before the type of
the value behind it is known. -/
def Draft.mismatch (wanted : Wanted) : Draft → Problem
  | .null => .shape (.wrongType .null wanted)
  | .bool b => .shape (.wrongType (.bool b) wanted)
  | .number n => .shape (.wrongType (.number n) wanted)
  | .text s => .shape (.wrongType (.text s) wanted)
  | .list _ => .shape (.wrongType .sequence wanted)
  | .object _ => .shape (.wrongType .map wanted)
  | .flawed flaw => .text flaw.wanted

end ClientGen.Json
