import InsertBatch.Program

open InsertBatch

namespace InsertBatch.Main

-- Only what a run may look at is read from disk: hidden names are never selected,
-- and a found file without an SQL extension is never opened.
partial def treeBelow (entry : IO.FS.DirEntry) : IO (Option FileTree) := do
  let path := entry.path
  if ← path.isDir then
    let inner ← try path.readDir catch _ => pure #[]
    let mut entries := []
    for child in inner do
      unless child.fileName.startsWith "." do
        if let some tree ← treeBelow child then
          entries := entries ++ [(child.fileName, tree)]
    return some (.directory entries)
  else if ← path.pathExists then
    if Selection.hasSqlExtension ⟨entry.fileName⟩ then
      try
        return some (.file (← IO.FS.readBinFile path).data.toList)
      catch _ => return none
    else return some (.file [])
  else return none

-- A file that is named is read whatever its extension.
def contentOf (entry : IO.FS.DirEntry) : IO (Option FileTree) := do
  if ← entry.path.isDir then return some (.directory [])
  try
    return some (.file (← IO.FS.readBinFile entry.path).data.toList)
  catch _ => return none

-- The names from the root to a path, with parents taken back.
def namesOf (components : List Component) : List String :=
  components.foldl (fun names component =>
    match component with
    | .normal name => names ++ [name]
    | .parent => names.dropLast
    | .root | .current => names) []

def record (system : FileSystem) (components : List Component) (tree : Option FileTree) :
    FileSystem :=
  match tree with
  | some tree => { system with root := tree.insert (namesOf (system.start components)) system.root }
  | none => system

def spell (components : List Component) : String :=
  "/".intercalate (components.map fun component =>
    match component with
    | .root => ""
    | .current => "."
    | .parent => ".."
    | .normal name => name)

def environmentFor (line : CommandLine) : IO Environment := do
  let here ← IO.currentDir
  let names := namesOf (Component.ofText here.toString)
  let entry (spelling : String) : IO.FS.DirEntry := ⟨here, spelling⟩
  let mut system : FileSystem := ⟨(FileTree.directory []).insert names (.directory []), names⟩
  for file in line.files do
    system := record system file.components (← treeBelow (entry file.spelling))
  let named := (line.config.map Path.components).toList
  for candidate in named ++ (Config.searched system line.files).flatMap Config.candidates do
    unless system.atComponents candidate matches .ok (.directory _) do
      system := record system candidate (← contentOf (entry (spell candidate)))
  let home := (← IO.getEnv "XDG_CONFIG_HOME").getD (((← IO.getEnv "HOME").getD "") ++ "/.config")
  let userFile ← contentOf (entry (home ++ "/sqlrewrite/" ++ Config.ownName))
  let stdin ← if Program.isStdin line then (← IO.getStdin).readBinToEnd else pure .empty
  return {
    system
    userFile := match userFile with
      | some (.file content) => some content
      | _ => none
    stdin := stdin.data.toList
    terminal := ← (← IO.getStdout).isTty
    colorRefused := (← IO.getEnv "NO_COLOR").isSome }

def usage : String := "Usage: sqlrewrite [OPTIONS] <FILES>..."

def print (outcome : Outcome) : IO UInt32 := do
  match outcome with
  | .refused => IO.eprintln usage
  | .help => IO.println usage
  | .version => IO.println Program.versionText
  | .malformedConfig => IO.eprintln s!"Error: Configuration error: {ConfigError.malformed.message}"
  | .stopped message => IO.eprintln s!"Error: {message}"
  | .finished _ stdout stderr =>
    IO.print stdout
    IO.eprint stderr
  return outcome.code.toUInt32

end InsertBatch.Main

def main (arguments : List String) : IO UInt32 := do
  let environment ←
    match CommandLine.read arguments with
    | .run line => InsertBatch.Main.environmentFor line
    | _ => pure { system := ⟨.directory [], []⟩ }
  InsertBatch.Main.print (Program.run environment arguments)
