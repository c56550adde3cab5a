import InsertBatch.CommandLine
import InsertBatch.Config.Load
import InsertBatch.Selection

namespace InsertBatch

-- Everything outside the arguments that a run may look at, and the library for its maps.
-- The user's own configuration is a file or missing: a directory in its place is left out.
structure Environment where
  system : FileSystem
  userFile : Option Bytes := none
  stdin : Bytes := []
  terminal : Bool := false
  colorRefused : Bool := false
  library : LruLibrary := .exact

-- How a run ends, once what it prints is taken: an output that fails is left out, and so are
-- the log and a lack of memory. The texts of `refused`, `help` and `malformedConfig` are left
-- to the outermost layer.
inductive Outcome where
  | refused
  | help
  | version
  | malformedConfig
  | stopped (message : String)
  | finished (code : Nat) (stdout stderr : String)
deriving DecidableEq, Repr

namespace Outcome

def code : Outcome → Nat
  | .refused | .malformedConfig | .stopped _ => 2
  | .help | .version => 0
  | .finished code .. => code

end Outcome

namespace Program

def versionText : String := "sqlrewrite 0.1.0"

def green : Nat := 32
def red : Nat := 31
def yellow : Nat := 33

def colorOf (finding : Finding) : Nat :=
  if finding.statement.isMergeable then green
  else if finding.failsCheck then red
  else yellow

def paint (color : Nat) (text : String) : String :=
  s!"\x1b[0m\x1b[{color}m{text}\x1b[0m"

def isPainted (environment : Environment) (settings : Settings) : Bool :=
  settings.forceColor || (settings.color environment.colorRefused && environment.terminal)

def findingText (painted : Bool) (settings : Settings) (path : String) (finding : Finding) :
    String :=
  let status :=
    if painted then paint (colorOf finding) finding.statusText else finding.statusText
  s!"{path}:{finding.line} params={finding.statement.parameterCount} {status}\n" ++
    (if settings.explain then finding.explain settings.toBatchOptions else "")

def reportText (painted : Bool) (settings : Settings) (report : Report) : String :=
  String.join (report.results.flatMap fun result =>
    result.findings.map (findingText painted settings result.path))

-- Errors weigh more than a failed check.
def exitCode (settings : Settings) (report : Report) : Nat :=
  if report.hasErrors then 2
  else if settings.check && report.checkFailures != 0 then 1
  else 0

-- A quiet run prints errors only.
def finish (environment : Environment) (settings : Settings) (report : Report) : Outcome :=
  let shown := if settings.quiet then [] else [report.summary]
  let stdout :=
    if settings.quiet then "" else reportText (isPainted environment settings) settings report
  .finished (exitCode settings report) stdout
    (String.join ((shown ++ report.errorLines).map (· ++ "\n")))

def isStdin (line : CommandLine) : Bool := line.files == [⟨"-"⟩]

-- A dash means standard input only when it is the sole file.
def analyze (environment : Environment) (line : CommandLine) (settings : Settings) : Outcome :=
  if isStdin line then
    if environment.stdin.toString?.isSome then
      finish environment settings
        ⟨[.analyzed "-" (Script.analyze settings environment.stdin environment.library)]⟩
    else .stopped s!"Error reading stdin: {ReadError.notUtf8.message}"
  else
    finish environment settings
      (Selection.run environment.system settings line.files environment.library)

-- The cause of a failed read is named once by the error and once behind it.
def configFailure (error : ConfigError) : Outcome :=
  match error with
  | .malformed => .malformedConfig
  | .unreadable cause => .stopped s!"Configuration error: {error.message}: {cause.message}"
  | _ => .stopped s!"Configuration error: {error.message}"

def run (environment : Environment) (arguments : List String) : Outcome :=
  match CommandLine.read arguments with
  | .refused => .refused
  | .help => .help
  | .version => .version
  | .run line =>
    match Config.load environment.system environment.userFile line.files line.config with
    | .error error => configFailure error
    | .ok base => analyze environment line (line.settings base)

end Program
end InsertBatch
