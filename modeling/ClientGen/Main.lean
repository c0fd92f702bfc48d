import ClientGen.CommandLine

namespace ClientGen

/-- The number of an error, which some calls give negated. -/
def errorNumber (code : UInt32) : Nat := min code.toNat (-code).toNat

def OsError.ofSystem : IO.Error → OsError
  | .noFileOrDirectory .. => .notFound
  | .alreadyExists .. => .alreadyExists
  | .resourceBusy .. => .busy
  | .invalidArgument _ code _ =>
    if errorNumber code = 36 then .nameTooLong else .invalidArgument
  | .inappropriateType _ code _ => if errorNumber code = 21 then .isDirectory else .notDirectory
  | .permissionDenied _ code details =>
    if errorNumber code = 13 then .other "Permission denied (os error 13)" else .other details
  | e => .other e.toString

namespace Disk

def attempt (action : IO α) : IO (Except OsError α) := do
  try return .ok (← action)
  catch e => return .error (OsError.ofSystem e)

def read (path : String) : IO (Except OsError String) := do
  match ← attempt (IO.FS.readBinFile path) with
  | .error e => return .error e
  | .ok bytes =>
    match String.fromUTF8? bytes with
    | some text => return .ok text
    | none => return .error .notUtf8

def isDirectory (path : String) : IO Bool := do
  match ← attempt (do (← IO.FS.realPath path).isDir) with
  | .ok found => return found
  | .error _ => return false

def createDirectory (path : String) : IO (Except OsError Unit) := do
  match ← attempt (IO.FS.createDir path) with
  | .ok () => return .ok ()
  | .error e => return if e != .notFound && (← isDirectory path) then .ok () else .error e

partial def createDirectories (path : String) : IO (Except OsError Unit) := do
  match ← createDirectory path with
  | .error .notFound =>
    let parent := parentDirectory path
    if parent == path then return .error .notFound
    match ← createDirectories parent with
    | .ok () => createDirectory path
    | e => return e
  | r => return r

partial def createTemporary (directory : String) : IO (Except OsError String) := do
  let path := directory ++ "/.tmp" ++ (← IO.rand 100000000 999999999).repr
  match ← attempt (IO.FS.Handle.mk path .writeNew) with
  | .ok _ => return .ok path
  | .error .alreadyExists => createTemporary directory
  | .error e => return .error e

end Disk

instance : Host IO where
  read := Disk.read
  createDirectories := Disk.createDirectories
  createTemporary := Disk.createTemporary
  write path content := Disk.attempt (IO.FS.writeFile path content)
  rename source target := Disk.attempt (IO.FS.rename source target)
  remove path := discard (Disk.attempt (IO.FS.removeFile path))
  print text := IO.print text
  printError text := IO.eprint text

end ClientGen

def main (arguments : List String) : IO UInt32 := do
  return (← (ClientGen.CommandLine.run arguments : IO Nat)).toUInt32
