namespace ClientGen

inductive OsError
  | notFound
  | alreadyExists
  | notDirectory
  | isDirectory
  | busy
  | invalidArgument
  | nameTooLong
  /-- The path holds a NUL, so the system was not asked. -/
  | nulInPath
  | notUtf8
  | other (text : String)
deriving DecidableEq, Repr

def OsError.message : OsError → String
  | notFound => "No such file or directory (os error 2)"
  | busy => "Device or resource busy (os error 16)"
  | alreadyExists => "File exists (os error 17)"
  | notDirectory => "Not a directory (os error 20)"
  | isDirectory => "Is a directory (os error 21)"
  | invalidArgument => "Invalid argument (os error 22)"
  | nameTooLong => "File name too long (os error 36)"
  | nulInPath => "file name contained an unexpected NUL byte"
  | notUtf8 => "stream did not contain valid UTF-8"
  | other text => text

/-- Files, named by paths as they are given, and the two output streams. -/
class Host (m : Type → Type) where
  read : (path : String) → m (Except OsError String)
  /-- Makes a directory and those it stands in; it is no failure when it is there. -/
  createDirectories : (path : String) → m (Except OsError Unit)
  /-- Makes an empty file of a new name in the directory and gives its path. -/
  createTemporary : (directory : String) → m (Except OsError String)
  write : (path content : String) → m (Except OsError Unit)
  /-- Puts the first file in the place of the second, which need not be there. -/
  rename : (source target : String) → m (Except OsError Unit)
  remove : (path : String) → m Unit
  print : String → m Unit
  printError : String → m Unit

/-- Segments of a path, where empty ones and `.` mean nothing. -/
def pathSegments (path : String) : List String :=
  ((path.toList.splitOn '/').map String.ofList).filter fun s => s != "" && s != "."

/-- A place is a list of names that leads there from the working directory, or from the root,
which is then the first of them. -/
def startOf (path : String) : List String :=
  if path.toList.head? = some '/' then ["/"] else []

def isAbove (place : List String) : Bool := place == ["/"] || place.all (· == "..")

/-- Where a segment leads from a place. Nothing stands above the root. -/
def enter (place : List String) (segment : String) : List String :=
  if segment = ".." then
    if place == ["/"] then place
    else if isAbove place then place ++ [".."]
    else place.dropLast
  else place ++ [segment]

def maxNameSize : Nat := 255
def maxPathSize : Nat := 4095

def pathFault? (path : String) : Option OsError :=
  if path.toList.contains '\x00' then some .nulInPath
  else if maxPathSize < path.utf8ByteSize then some .nameTooLong
  else none

inductive PathEnd
  | name
  | slash
  /-- The directory reached, or the one it stands in. -/
  | dots
deriving DecidableEq, Repr

def pathEnd (path : String) : PathEnd :=
  let cs := path.toList.reverse
  match String.ofList ((cs.dropWhile (· == '/')).takeWhile (· != '/')) with
  | "" | "." | ".." => .dots
  | _ => if cs.head? = some '/' then .slash else .name

/-- The characters without the slashes, and dots that stand for a whole segment, at the end. -/
def dropEmptySegments : (reversed : List Char) → List Char
  | '/' :: cs => dropEmptySegments cs
  | '.' :: '/' :: cs => dropEmptySegments cs
  | cs => cs

/-- The directory a file is written to, as it is spelled in the path of the file. -/
def parentDirectory (path : String) : String :=
  let file := dropEmptySegments path.toList.reverse
  let parent := (dropEmptySegments (file.dropWhile (· != '/'))).reverse
  if !parent.isEmpty then String.ofList parent
  else if file.getLast? = some '/' then "/" else "."

structure WriteError where
  path : String
  cause : OsError
deriving DecidableEq, Repr

def WriteError.message (e : WriteError) : String :=
  "Failed to write output file '" ++ e.path ++ "': " ++ e.cause.message

open Host in
/-- Replaces a file as a whole: the content goes to a temporary file in the same directory,
which then takes the place of the target. When a step fails the target is as it was, and the
temporary file is gone. -/
def replaceFile [Monad m] [Host m] (path content : String) : m (Except WriteError Unit) := do
  let parent := parentDirectory path
  match ← createDirectories parent with
  | .error cause => return .error ⟨parent, cause⟩
  | .ok () =>
    match ← createTemporary parent with
    | .error cause => return .error ⟨parent, cause⟩
    | .ok temporary =>
      match ← write temporary content with
      | .error cause =>
        remove temporary
        return .error ⟨temporary, cause⟩
      | .ok () =>
        match ← rename temporary path with
        | .error cause =>
          remove temporary
          return .error ⟨path, cause⟩
        | .ok () => return .ok ()

end ClientGen
