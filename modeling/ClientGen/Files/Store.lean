import ClientGen.Files.Access
import ClientGen.Text.Name
/-! Files as a value: a host without a system, on which any step may be made to fail. -/
namespace ClientGen

inductive FileNode
  | file (content : ByteArray)
  | directory

/-- Files and directories by their places. The working directory and those above it are
always there. -/
structure Store where
  nodes : List (List String × FileNode) := []

theorem lookup_filter_ne_self [BEq α] [LawfulBEq α] (l : List (α × β)) (key : α) :
    (l.filter (·.1 != key)).lookup key = none := by
  induction l with
  | nil => rfl
  | cons p l ih =>
    obtain ⟨k, v⟩ := p
    by_cases hk : k = key
    · simp [hk, ih]
    · have hb : (key == k) = false := beq_false_of_ne (Ne.symm hk)
      simp [hk, List.lookup_cons, hb, ih]

theorem lookup_filter_ne_of_ne [BEq α] [LawfulBEq α] {l : List (α × β)} {key other : α}
    (h : other ≠ key) : (l.filter (·.1 != key)).lookup other = l.lookup other := by
  induction l with
  | nil => rfl
  | cons p l ih =>
    obtain ⟨k, v⟩ := p
    by_cases hk : k = key
    · subst hk
      have hb : (other == k) = false := beq_false_of_ne h
      simp [List.lookup_cons, hb, ih]
    · simp [hk, List.lookup_cons, ih]

namespace Store

def get? (s : Store) (path : List String) : Option FileNode :=
  if isAbove path then some .directory else s.nodes.lookup path

def set (s : Store) (path : List String) (n : FileNode) : Store :=
  ⟨s.nodes.filter (·.1 != path) ++ [(path, n)]⟩

def erase (s : Store) (path : List String) : Store :=
  ⟨s.nodes.filter (·.1 != path)⟩

@[simp] theorem get?_set_self {s : Store} {path : List String} (h : isAbove path = false)
    (n : FileNode) : (s.set path n).get? path = some n := by
  simp only [get?, h, set, Bool.false_eq_true, if_false, List.lookup_append]
  rw [lookup_filter_ne_self]
  simp

theorem get?_set_of_ne {s : Store} {path other : List String} (h : other ≠ path) (n : FileNode) :
    (s.set path n).get? other = s.get? other := by
  have ho : (other == path) = false := beq_false_of_ne h
  simp [get?, set, List.lookup_append, lookup_filter_ne_of_ne h, List.lookup_cons, ho]

theorem get?_erase_self {s : Store} {path : List String} (h : isAbove path = false) :
    (s.erase path).get? path = none := by
  simp [get?, h, erase, lookup_filter_ne_self]

theorem get?_erase_of_ne {s : Store} {path other : List String} (h : other ≠ path) :
    (s.erase path).get? other = s.get? other := by
  simp [get?, erase, lookup_filter_ne_of_ne h]

/-- Where the segments lead from a place. What a segment is looked up in must be a directory;
what it leads to need not be there. -/
def locateFrom (s : Store) (place : List String) : List String → Except OsError (List String)
  | [] => .ok place
  | segment :: rest =>
    match s.get? place with
    | none => .error .notFound
    | some (.file _) => .error .notDirectory
    | some .directory =>
      if maxNameSize < segment.utf8ByteSize then .error .nameTooLong
      else s.locateFrom (enter place segment) rest

def locate (s : Store) (path : String) : Except OsError (List String) :=
  match pathFault? path with
  | some e => .error e
  | none =>
    if path.isEmpty then .error .notFound else s.locateFrom (startOf path) (pathSegments path)

def read (s : Store) (path : String) : Except OsError String := do
  let place ← s.locate path
  match s.get? place with
  | none => .error .notFound
  | some .directory => .error .isDirectory
  | some (.file content) =>
    if pathEnd path != .name then .error .notDirectory
    else
      match String.fromUTF8? content with
      | some text => .ok text
      | none => .error .notUtf8

/-- Makes the directories along a path, of which `made` is there. Those made before a failure
stay. -/
def createAlong (s : Store) (made : List String) : List String → Except OsError Unit × Store
  | [] => (.ok (), s)
  | segment :: rest =>
    let place := enter made segment
    if maxNameSize < segment.utf8ByteSize then (.error .nameTooLong, s)
    else
      match s.get? place with
      | none => (s.set place .directory).createAlong place rest
      | some .directory => s.createAlong place rest
      | some (.file _) => (.error (if rest.isEmpty then .alreadyExists else .notDirectory), s)

def createDirectories (s : Store) (path : String) : Except OsError Unit × Store :=
  match pathFault? path with
  | some e => (.error e, s)
  | none => s.createAlong (startOf path) (pathSegments path)

def freshName (s : Store) : String := Text.freeName (s.nodes.flatMap (·.1)) ".tmp"

def createTemporary (s : Store) (directory : String) : Except OsError (String × Store) := do
  let path := directory ++ "/" ++ s.freshName
  let place ← s.locate path
  return (path, s.set place (.file .empty))

def write (s : Store) (path content : String) : Except OsError Store := do
  let place ← s.locate path
  match s.get? place with
  | some .directory => .error .isDirectory
  | _ => .ok (s.set place (.file content.toUTF8))

/-- A path that ends in dots names no entry of a directory, and one that ends in a slash no
file. A NUL in the target is for the system to refuse. -/
def rename (s : Store) (source target : String) : Except OsError Store := do
  let origin ← s.locate source
  let place ← (s.locate target).mapError fun e => if e = .nulInPath then .invalidArgument else e
  match s.get? origin, s.get? place, pathEnd target with
  | none, _, _ => .error .notFound
  | some _, none, .dots => .error .notFound
  | some _, some (.file _), .dots => .error .notDirectory
  | some _, some .directory, .dots => .error .busy
  | some _, _, .slash => .error .notDirectory
  | some _, some .directory, .name => .error .isDirectory
  | some node, _, .name => .ok ((s.erase origin).set place node)

def remove (s : Store) (path : String) : Store :=
  match s.locate path with
  | .ok place => s.erase place
  | .error _ => s

end Store

inductive HostStep
  | read
  | createDirectories
  | createTemporary
  | write
  | rename
deriving DecidableEq, Repr

/-- A store, the steps that fail on it whatever it holds, and what was printed. -/
structure World where
  store : Store := {}
  failing : HostStep → Option OsError := fun _ => none
  printed : String := ""
  printedErrors : String := ""

namespace World

def attempt (w : World) (step : HostStep) (f : Store → Except OsError α × Store) :
    Except OsError α × World :=
  match w.failing step with
  | some e => (.error e, w)
  | none => ((f w.store).1, { w with store := (f w.store).2 })

/-- A step that leaves the store as it is whenever it fails. -/
def attemptWhole (w : World) (step : HostStep) (f : Store → Except OsError (α × Store)) :
    Except OsError α × World :=
  w.attempt step fun s =>
    match f s with
    | .error e => (.error e, s)
    | .ok (a, s) => (.ok a, s)

end World

abbrev Simulation := StateM World

instance : Host Simulation where
  read path := fun w => w.attempt .read fun s => (s.read path, s)
  createDirectories path := fun w => w.attempt .createDirectories (·.createDirectories path)
  createTemporary directory := fun w =>
    w.attemptWhole .createTemporary (·.createTemporary directory)
  write path content := fun w =>
    w.attemptWhole .write fun s => (s.write path content).map ((), ·)
  rename source target := fun w =>
    w.attemptWhole .rename fun s => (s.rename source target).map ((), ·)
  remove path := fun w => ((), { w with store := w.store.remove path })
  print text := fun w => ((), { w with printed := w.printed ++ text })
  printError text := fun w => ((), { w with printedErrors := w.printedErrors ++ text })

end ClientGen
