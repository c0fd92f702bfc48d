import ClientGen.Files.Run

namespace ClientGen.CommandLine

structure Options where
  input : String := "swagger.json"
  output : String := "sdk.ts"
  settings : Option String := none
  clientName : Option String := none
  strict : Bool := false
  dryRun : Bool := false
  verbosity : Nat := 0
deriving DecidableEq, Repr

inductive Command
  | run (options : Options)
  | help
  | version
  | misuse
deriving DecidableEq, Repr

inductive ValueOption
  | input
  | output
  | settings
  | clientName
deriving DecidableEq, Repr

inductive Switch
  | strict
  | dryRun
  | verbose
  | help
  | version
deriving DecidableEq, Repr

def longValueOption? : String → Option ValueOption
  | "input" => some .input
  | "output" => some .output
  | "config" => some .settings
  | "client-name" => some .clientName
  | _ => none

def longSwitch? : String → Option Switch
  | "strict" => some .strict
  | "dry-run" => some .dryRun
  | "verbose" => some .verbose
  | "help" => some .help
  | "version" => some .version
  | _ => none

def shortValueOption? : Char → Option ValueOption
  | 'i' => some .input
  | 'o' => some .output
  | 'c' => some .settings
  | _ => none

def shortSwitch? : Char → Option Switch
  | 'v' => some .verbose
  | 'h' => some .help
  | 'V' => some .version
  | _ => none

structure Parsed where
  options : Options := {}
  valued : List ValueOption := []
  switched : List Switch := []

abbrev Step := Except Command Parsed

/-- File names must not be empty. -/
def Parsed.setValue (p : Parsed) (o : ValueOption) (value : String) : Step :=
  if o ∈ p.valued then .error .misuse
  else
    let p := { p with valued := o :: p.valued }
    match o with
    | .clientName => .ok { p with options := { p.options with clientName := some value } }
    | .input => if value.isEmpty then .error .misuse
      else .ok { p with options := { p.options with input := value } }
    | .output => if value.isEmpty then .error .misuse
      else .ok { p with options := { p.options with output := value } }
    | .settings => if value.isEmpty then .error .misuse
      else .ok { p with options := { p.options with settings := some value } }

/-- Only `verbose` may be repeated. -/
def Parsed.turnOn (p : Parsed) (s : Switch) : Step :=
  if s ∈ p.switched then .error .misuse
  else
    match s with
    | .strict => .ok { p with
        options := { p.options with strict := true }, switched := s :: p.switched }
    | .dryRun => .ok { p with
        options := { p.options with dryRun := true }, switched := s :: p.switched }
    | .verbose => .ok { p with options := { p.options with verbosity := p.options.verbosity + 1 } }
    | .help => .error .help
    | .version => .error .version

/-- What follows a dash in an argument: switches, up to an option, whose value is the rest or
else the next argument. -/
def shortOptions (p : Parsed) : List Char → Except Command (Parsed × Option ValueOption)
  | [] => .ok (p, none)
  | c :: cs =>
    match shortValueOption? c, shortSwitch? c with
    | some o, _ =>
      match cs with
      | [] => .ok (p, some o)
      | '=' :: value => (p.setValue o (String.ofList value)).map (·, none)
      | value => (p.setValue o (String.ofList value)).map (·, none)
    | none, some s => do shortOptions (← p.turnOn s) cs
    | none, none => .error .misuse

def longOption (p : Parsed) (cs : List Char) : Except Command (Parsed × Option ValueOption) :=
  let name := String.ofList (cs.takeWhile (· != '='))
  match cs.dropWhile (· != '='), longValueOption? name, longSwitch? name with
  | [], some o, _ => .ok (p, some o)
  | _ :: value, some o, _ => (p.setValue o (String.ofList value)).map (·, none)
  | [], none, some s => (p.turnOn s).map (·, none)
  | _, _, _ => .error .misuse

/-- An argument that can be a value: it begins with no dash, or is a dash. -/
def isValue (argument : String) : Bool :=
  argument == "-" || argument.toList.head? != some '-'

/-- `waiting` is an option whose value the next argument must be. No argument stands alone,
and none may follow two dashes. -/
def parseFrom (p : Parsed) (waiting : Option ValueOption) : List String → Step
  | [] => if waiting.isSome then .error .misuse else .ok p
  | a :: as =>
    match waiting with
    | some o => do
      if isValue a then parseFrom (← p.setValue o a) none as else .error .misuse
    | none =>
      match a.toList with
      | ['-', '-'] => if as.isEmpty then .ok p else .error .misuse
      | '-' :: '-' :: cs => do
        let (p, waiting) ← longOption p cs
        parseFrom p waiting as
      | '-' :: c :: cs => do
        let (p, waiting) ← shortOptions p (c :: cs)
        parseFrom p waiting as
      | _ => .error .misuse

def parse (arguments : List String) : Command :=
  match parseFrom {} none arguments with
  | .ok p => .run p.options
  | .error command => command

/-- The settings of a file, or else the defaults, with what the command line overrides. -/
def settings [Monad m] [Host m] (o : Options) : m (Except RunError Config) := do
  let loaded ← match o.settings with
    | some path => loadSettings path
    | none => pure (.ok {})
  match loaded with
  | .error e => return .error e
  | .ok config =>
    let config := { config with
      clientName := o.clientName.getD config.clientName
      onInvalidOperationId := if o.strict then .abort else config.onInvalidOperationId }
    return (config.validate.mapError fun e => .settings (.invalid e)).map fun _ => config

def report (ds : List Diagnostic) : String :=
  String.join (ds.map fun d => d.severity.label ++ ": " ++ d.message ++ "\n")

def counts (g : GeneratedClient) : String :=
  g.controllerCount.repr ++ " controller(s), " ++ g.methodCount.repr ++ " method(s)"

def findings (g : GeneratedClient) : String :=
  (Diagnostic.count .error g.diagnostics).repr ++ " error(s), "
    ++ (Diagnostic.count .warning g.diagnostics).repr ++ " warning(s)"

def summary (o : Options) (g : GeneratedClient) : String :=
  if o.dryRun then "Dry run: " ++ counts g ++ " (" ++ findings g ++ ")\n"
  else "Generated " ++ counts g ++ " to " ++ o.output ++ " (" ++ findings g ++ ")\n"

def failureText (e : RunError) : String :=
  let ds := match e with
    | .generation (.invalidOperationId _ _ _ _ ds) => ds
    | _ => []
  report ds ++ "Generation failed: " ++ e.message ++ "\n"

def versionText : String := "nestsdk-gen 0.1.0\n"

def usageText : String :=
  "Usage: nestsdk-gen [OPTIONS]\n\n"
    ++ "Options:\n"
    ++ "  -i, --input <INPUT>              API document (OpenAPI 3 or Swagger 2 JSON)\n"
    ++ "  -o, --output <OUTPUT>            Output TypeScript file\n"
    ++ "  -c, --config <CONFIG>            Generator configuration file (TOML)\n"
    ++ "      --client-name <CLIENT_NAME>  Name of the exported client class\n"
    ++ "      --strict                     Abort on operations without a usable operationId\n"
    ++ "      --dry-run                    Print generated code without writing the file\n"
    ++ "  -v, --verbose...                 Increase verbosity\n"
    ++ "  -h, --help                       Print help\n"
    ++ "  -V, --version                    Print version\n"

variable [Monad m] [Host m]

def runOptions (o : Options) : m Nat := do
  let outcome ← match ← settings o with
    | .error e => pure (.error e)
    | .ok config => generateFile o.input o.output config o.dryRun
  match outcome with
  | .ok g =>
    Host.printError (report g.diagnostics ++ summary o g)
    return 0
  | .error e =>
    Host.printError (failureText e)
    return 1

def run (arguments : List String) : m Nat := do
  match parse arguments with
  | .run o => runOptions o
  | .help =>
    Host.print usageText
    return 0
  | .version =>
    Host.print versionText
    return 0
  | .misuse =>
    Host.printError usageText
    return 2

end ClientGen.CommandLine
