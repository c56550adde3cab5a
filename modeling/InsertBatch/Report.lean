import InsertBatch.Script
import InsertBatch.Settings
import InsertBatch.Text.Quoted

namespace InsertBatch

-- The analysis of one statement of a file and the line it starts on.
structure Finding where
  line : Nat
  analysis : Analysis
deriving DecidableEq, Repr

namespace Finding

def statement (finding : Finding) : Statement := finding.analysis.statement

-- An INSERT with parameters whose rows cannot be merged.
def failsCheck (finding : Finding) : Bool :=
  finding.statement.classification.isInsert && finding.statement.parameterCount != 0 &&
    !finding.statement.isMergeable

def statusText (finding : Finding) : String :=
  match finding.statement.blocker? with
  | none => "rewritable"
  | some blocker => s!"not rewritable ({blocker.description})"

def explainSegment (index : Nat) : Segment → String
  | .text bytes => s!"  [{index}] text {Text.quoted bytes.toText}\n"
  | .parameter => s!"  [{index}] parameter\n"

def explainTemplate (template : Template) : String :=
  let tuple := Segment.reassemble [Ascii.question] template.tuple
  s!"  prefix {Text.quoted template.lead.toText}\n" ++
    s!"  tuple  {Text.quoted tuple.toText}\n" ++
    s!"  suffix {Text.quoted template.trail.toText}\n"

-- One line per segment, the template if there is one, and the strategy that the
-- options lead to.
def explain (finding : Finding) (options : BatchOptions) : String :=
  let statement := finding.statement
  String.join (statement.segments.zipIdx.map fun (segment, index) => explainSegment index segment) ++
    (statement.template?.map explainTemplate).getD "" ++
    s!"  batch  {(Strategy.choose statement options).name}\n"

end Finding

-- Analyzes pieces in order, each distinct text once as far as the cache reaches.
def Script.findings (rawBackslash : Bool) (cache : Cache) : List Piece → List Finding
  | [] => []
  | piece :: rest =>
    let (analysis, cache) := cache.get rawBackslash piece.text
    ⟨piece.line, analysis⟩ :: Script.findings rawBackslash cache rest

-- Every script has a cache of its own.
def Script.analyze (settings : Settings) (source : Bytes) (library : LruLibrary := .exact) :
    List Finding :=
  let rawBackslash := settings.effectiveRawBackslash
  Script.findings rawBackslash (Cache.new library settings.cacheSize)
    (Script.split rawBackslash source)

-- What became of one input.
inductive FileResult where
  | analyzed (path : String) (findings : List Finding)
  | failed (path message : String)
deriving DecidableEq, Repr

namespace FileResult

def path : FileResult → String
  | .analyzed path _ | .failed path _ => path

def findings : FileResult → List Finding
  | .analyzed _ findings => findings
  | .failed .. => []

def error? : FileResult → Option String
  | .analyzed .. => none
  | .failed _ message => some message

end FileResult

structure Report where
  results : List FileResult := []
deriving DecidableEq, Repr

namespace Report

def add (report : Report) (result : FileResult) : Report := ⟨report.results ++ [result]⟩

def total (report : Report) : Nat := report.results.length

def findings (report : Report) : List Finding := report.results.flatMap FileResult.findings

def mergeable (report : Report) : Nat := report.findings.countP (·.statement.isMergeable)

def checkFailures (report : Report) : Nat := report.findings.countP Finding.failsCheck

def errors (report : Report) : Nat := report.results.countP (·.error?.isSome)

def hasErrors (report : Report) : Bool := report.errors != 0

-- Counts of zero are left out, except the first two.
def summary (report : Report) : String :=
  let counted (count : Nat) (what : String) : List String :=
    if count = 0 then [] else [s!"{count} {what}"]
  ", ".intercalate
    ([s!"{report.total} file(s) processed", s!"{report.findings.length} statement(s)"] ++
      counted report.mergeable "rewritable" ++
      counted report.checkFailures "parameterized insert(s) not rewritable" ++
      counted report.errors "error(s)")

def errorLines (report : Report) : List String :=
  report.results.filterMap fun result =>
    result.error?.map fun message => s!"error: {result.path}: {message}"

end Report
end InsertBatch
