import InsertBatch.Path
import InsertBatch.Settings

namespace InsertBatch

-- Arguments as the clap library (4) takes them, from the names and values that this program
-- declares. The library is not part of the program; that it reads them like this is assumed,
-- and what it prints is left out.

-- Arguments that were accepted. Switches that were not given are false.
structure CommandLine where
  files : List Path := []
  rawBackslash : Bool := false
  sqlMode : Option String := none
  separateRows : Bool := false
  joinStatements : Bool := false
  check : Bool := false
  explain : Bool := false
  exclude : List String := []
  verbose : Bool := false
  quiet : Bool := false
  forceColor : Bool := false
  noColor : Bool := false
  threads : Option Nat := none
  singleProcess : Bool := false
  config : Option Path := none
deriving DecidableEq, Repr

namespace CommandLine

inductive Switch where
  | rawBackslash
  | separateRows
  | joinStatements
  | check
  | explain
  | verbose
  | quiet
  | forceColor
  | noColor
  | singleProcess
deriving DecidableEq, Repr

-- Options that take a value. Only `exclude` may be repeated.
inductive Valued where
  | sqlMode
  | exclude
  | threads
  | config
deriving DecidableEq, Repr

inductive Name where
  | switch (switch : Switch)
  | valued (valued : Valued)
  | help
  | version
deriving DecidableEq, Repr

-- What the arguments ask for. `help` and `version` take effect where they stand:
-- errors before them win and what follows is not looked at.
inductive Request where
  | refused
  | help
  | version
  | run (line : CommandLine)
deriving DecidableEq, Repr

def longNames : List (String × Name) :=
  [("no-backslash-escapes", .switch .rawBackslash),
   ("sql-mode", .valued .sqlMode),
   ("no-rewrite-batched-statements", .switch .separateRows),
   ("allow-multi-queries", .switch .joinStatements),
   ("check", .switch .check),
   ("explain", .switch .explain),
   ("exclude", .valued .exclude),
   ("verbose", .switch .verbose),
   ("quiet", .switch .quiet),
   ("force-color", .switch .forceColor),
   ("no-color", .switch .noColor),
   ("threads", .valued .threads),
   ("single-process", .switch .singleProcess),
   ("config", .valued .config),
   ("help", .help),
   ("version", .version)]

def shortNames : List (Char × Name) :=
  [('v', .switch .verbose), ('q', .switch .quiet), ('t', .valued .threads), ('h', .help),
   ('V', .version)]

-- Sets a switch that was not set yet.
def once (given : Bool) (next : CommandLine) : Option CommandLine := if given then none else some next

def setSwitch (line : CommandLine) : Switch → Option CommandLine
  | .rawBackslash => once line.rawBackslash { line with rawBackslash := true }
  | .separateRows => once line.separateRows { line with separateRows := true }
  | .joinStatements => once line.joinStatements { line with joinStatements := true }
  | .check => once line.check { line with check := true }
  | .explain => once line.explain { line with explain := true }
  | .verbose => once line.verbose { line with verbose := true }
  | .quiet => once line.quiet { line with quiet := true }
  | .forceColor => once line.forceColor { line with forceColor := true }
  | .noColor => once line.noColor { line with noColor := true }
  | .singleProcess => once line.singleProcess { line with singleProcess := true }

-- Decimal digits, after a plus sign or not, for a 64-bit number.
def count? (text : String) : Option Nat :=
  let digits : List Char := match text.toList with
    | '+' :: rest => rest
    | chars => chars
  let n : Nat := digits.foldl (fun n c => n * 10 + (c.toNat - '0'.toNat)) 0
  if digits ≠ [] ∧ digits.all Char.isDigit ∧ n < UInt64.size then some n else none

def setValue (line : CommandLine) (valued : Valued) (value : String) : Option CommandLine :=
  match valued with
  | .sqlMode => once line.sqlMode.isSome { line with sqlMode := some value }
  | .exclude => some { line with exclude := line.exclude ++ [value] }
  | .threads =>
    (count? value).bind fun n => once line.threads.isSome { line with threads := some n }
  | .config =>
    if value = "" then none else once line.config.isSome { line with config := some ⟨value⟩ }

def addFile (line : CommandLine) (file : String) : Option CommandLine :=
  if file = "" then none else some { line with files := line.files ++ [⟨file⟩] }

-- Where reading stands between two arguments. `awaiting` is an option that still
-- needs its value; `filesOnly` follows a double dash.
inductive Reading where
  | anything
  | awaiting (valued : Valued)
  | filesOnly
  | done (request : Request)
deriving DecidableEq, Repr

-- A line so far and where reading stands.
structure Progress where
  line : CommandLine := {}
  reading : Reading := .anything
deriving DecidableEq, Repr

namespace Progress

def refuse (progress : Progress) : Progress := { progress with reading := .done .refused }

def continue? (progress : Progress) : Option CommandLine → Progress
  | some line => ⟨line, .anything⟩
  | none => progress.refuse

-- A long option: the name up to an equals sign, and the value behind it if any.
def long (progress : Progress) (chars : List Char) : Progress :=
  let name := String.ofList (chars.takeWhile (· ≠ '='))
  let attached := match chars.dropWhile (· ≠ '=') with
    | _ :: value => some (String.ofList value)
    | [] => none
  match longNames.lookup name, attached with
  | some (.switch switch), none => progress.continue? (progress.line.setSwitch switch)
  | some (.valued valued), some value => progress.continue? (progress.line.setValue valued value)
  | some (.valued valued), none => { progress with reading := .awaiting valued }
  | some .help, none => { progress with reading := .done .help }
  | some .version, none => { progress with reading := .done .version }
  | _, _ => progress.refuse

-- A cluster of short options. The first that takes a value takes the rest of the
-- cluster, without the equals sign that may stand in between.
def short (progress : Progress) : List Char → Progress
  | [] => progress
  | c :: rest =>
    match shortNames.lookup c with
    | none => progress.refuse
    | some .help => { progress with reading := .done .help }
    | some .version => { progress with reading := .done .version }
    | some (.switch switch) =>
      match progress.line.setSwitch switch with
      | some line => short { progress with line } rest
      | none => progress.refuse
    | some (.valued valued) =>
      match rest with
      | [] => { progress with reading := .awaiting valued }
      | '=' :: value => progress.continue? (progress.line.setValue valued (String.ofList value))
      | value => progress.continue? (progress.line.setValue valued (String.ofList value))

-- A lone dash is a value or a file, everything else behind a dash an option. An
-- option that awaits its value does not take another option for it.
def argument (progress : Progress) (text : String) : Progress :=
  match progress.reading with
  | .done _ => progress
  | .filesOnly =>
    match progress.line.addFile text with
    | some line => { progress with line }
    | none => progress.refuse
  | .awaiting valued =>
    match text.toList with
    | '-' :: _ :: _ => progress.refuse
    | _ => progress.continue? (progress.line.setValue valued text)
  | .anything =>
    match text.toList with
    | ['-', '-'] => { progress with reading := .filesOnly }
    | '-' :: '-' :: name => progress.long name
    | '-' :: c :: cluster => progress.short (c :: cluster)
    | _ => progress.continue? (progress.line.addFile text)

-- At least one file is needed.
def request (progress : Progress) : Request :=
  match progress.reading with
  | .done request => request
  | .awaiting _ => .refused
  | .anything | .filesOnly => if progress.line.files = [] then .refused else .run progress.line

end Progress

def read (arguments : List String) : Request :=
  (arguments.foldl Progress.argument {}).request

-- The command line over the settings of a configuration file.
def settings (line : CommandLine) (base : Settings) : Settings :=
  { base with
    rawBackslash := line.rawBackslash || base.rawBackslash
    sqlMode := line.sqlMode.or base.sqlMode
    mergeRows := !line.separateRows && base.mergeRows
    joinStatements := line.joinStatements || base.joinStatements
    exclude := if line.exclude = [] then base.exclude else line.exclude
    check := line.check
    explain := line.explain
    verbose := line.verbose
    quiet := line.quiet
    noColor := line.noColor
    forceColor := line.forceColor
    threads := line.threads.getD 0
    singleProcess := line.singleProcess }

end CommandLine
end InsertBatch
