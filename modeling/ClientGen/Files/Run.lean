import ClientGen.Client.Generate
import ClientGen.Document.Decode
import ClientGen.Files.Access
import ClientGen.Toml.Settings

namespace ClientGen

inductive RunError
  | readDocument (path : String) (cause : OsError)
  | parseDocument (cause : Json.Problem)
  | readSettings (path : String) (cause : OsError)
  | settings (cause : SettingsError)
  | generation (cause : GenerateError)
  | write (cause : WriteError)
deriving DecidableEq, Repr

def Json.Problem.message : Json.Problem → String
  | .text .malformed => "malformed JSON"
  | .text .incomplete => "unexpected end of text"
  | .shape mismatch => mismatch.message

def RunError.message : RunError → String
  | readDocument path cause =>
    "Failed to read API document '" ++ path ++ "': " ++ cause.message
  | parseDocument cause => "Failed to parse API document: " ++ cause.message
  | readSettings path cause =>
    "Failed to read configuration file '" ++ path ++ "': " ++ cause.message
  | settings cause => cause.message
  | generation cause => cause.message
  | write cause => cause.message

variable [Monad m] [Host m]

def loadDocument (path : String) : m (Except RunError ApiDocument) := do
  match ← Host.read path with
  | .error cause => return .error (.readDocument path cause)
  | .ok text => return (ApiDocument.ofText text).mapError .parseDocument

def loadSettings (path : String) : m (Except RunError Config) := do
  match ← Host.read path with
  | .error cause => return .error (.readSettings path cause)
  | .ok text => return (Config.ofToml text).mapError .settings

/-- Prints the client on a dry run, and otherwise writes it to `output`. -/
def generateFile (input output : String) (config : Config) (dryRun : Bool) :
    m (Except RunError GeneratedClient) := do
  match ← loadDocument input with
  | .error e => return .error e
  | .ok doc =>
    match doc.generateClient config with
    | .error e => return .error (.generation e)
    | .ok g =>
      if dryRun then
        Host.print (g.code ++ "\n")
        return .ok g
      else
        match ← replaceFile output g.code with
        | .error e => return .error (.write e)
        | .ok () => return .ok g

end ClientGen
