import InsertBatch.FileTree
import InsertBatch.Glob
import InsertBatch.Report
import InsertBatch.Text.Lowercase

namespace InsertBatch.Selection

def hasSqlExtension (path : Path) : Bool :=
  (path.fileName?.bind Path.nameExtension?).any fun extension =>
    Settings.sqlExtensions.contains (Text.lowercase extension)

-- Patterns that are not well formed exclude nothing.
def patterns (settings : Settings) : List (List Glob.Token) :=
  settings.exclude.filterMap Glob.parse?

-- Hidden names and names that match a pattern, for directories and files alike.
-- What lies below a skipped directory is skipped with it.
def isSkipped (patterns : List (List Glob.Token)) (name : String) : Bool :=
  name.toList.head? == some '.' || patterns.any fun pattern =>
    Glob.matchTokens pattern name.toList

-- The SQL files below a directory, each under the spelling of the directory.
def below (skipped : String → Bool) (dir : Path) : List (String × FileTree) → List Path
  | [] => []
  | (name, tree) :: rest =>
    let path := dir.join name
    let here :=
      if skipped name then []
      else
        match tree with
        | .directory entries => below skipped path entries
        | .file _ => if hasSqlExtension path then [path] else []
    here ++ below skipped dir rest

-- A named file is taken by its extension alone. What is neither a file nor a
-- directory is kept, so that reading it reports the error.
def ofInput (system : FileSystem) (patterns : List (List Glob.Token)) (input : Path) : List Path :=
  match system.find input with
  | .ok (.file _) => if hasSqlExtension input then [input] else []
  | .ok (.directory entries) => below (isSkipped patterns) input entries
  | .error _ => [input]

-- What differs from the path before it, when equal paths stand side by side.
def changesFrom (previous : Path) : List Path → List Path
  | [] => []
  | path :: rest =>
    if path.same previous then changesFrom previous rest else path :: changesFrom path rest

def firstOfEach : List Path → List Path
  | [] => []
  | path :: rest => path :: changesFrom path rest

-- Every path once, in the order of paths. Sorting keeps equal paths as they were
-- found, so that the first spelling stays.
def paths (system : FileSystem) (settings : Settings) (inputs : List Path) : List Path :=
  let found := inputs.flatMap (ofInput system (patterns settings))
  firstOfEach (found.mergeSort Path.precedes)

def analyzeFile (library : LruLibrary) (system : FileSystem) (settings : Settings)
    (path : Path) : FileResult :=
  match system.read path with
  | .ok source => .analyzed path.spelling (Script.analyze settings source library)
  | .error cause => .failed path.spelling s!"Read error: {cause.message}"

-- How many threads do the work shows in no result: the rayon library (1) is assumed to give
-- the results back in the order of the paths.
def run (system : FileSystem) (settings : Settings) (inputs : List Path)
    (library : LruLibrary := .exact) : Report :=
  ⟨(paths system settings inputs).map (analyzeFile library system settings)⟩

end InsertBatch.Selection
