import InsertBatch.Config.Assignment
import InsertBatch.FileTree
import InsertBatch.Toml.Document

namespace InsertBatch.Config

-- A file of this name holds options at its top; any other below tool.sqlrewrite.
def ownName : String := "sqlrewrite.toml"

def sharedName : String := "pyproject.toml"

-- What follows a directory on the way up, itself first. A relative path ends with
-- the empty path, which means the working directory.
def ancestors (dir : List Component) : List (List Component) :=
  let shortest := if dir.head? = some .root then 1 else 0
  ((List.range' shortest (dir.length + 1 - shortest)).map dir.take).reverse

-- Where the search for an input starts: the directory itself, or the one it is in.
def startOf (system : FileSystem) (input : Path) : List Component :=
  match system.find input with
  | .ok (.directory _) => input.components
  | _ =>
    match input.components.dropLast with
    | [] => [.current]
    | dir => dir

-- Directories to search, those of earlier inputs first, each once. Standard input
-- has none.
def searched (system : FileSystem) (inputs : List Path) : List (List Component) :=
  ((inputs.filter (·.spelling != "-")).flatMap fun input => ancestors (startOf system input)).eraseDups

def candidates (dir : List Component) : List (List Component) :=
  [dir ++ [.normal ownName], dir ++ [.normal sharedName]]

-- The first configuration file beside or above the inputs. Anything of that name
-- counts, readable or not.
def find? (system : FileSystem) (inputs : List Path) : Option (List Component) :=
  ((searched system inputs).flatMap candidates).find? fun file =>
    (system.atComponents file).toOption.isSome

def optionsIn (own : Bool) (document : Toml.Table) : Toml.Table :=
  if own then document
  else
    (((document.lookup "tool").bind Toml.Value.asTable?).bind fun tool =>
      (tool.lookup "sqlrewrite").bind Toml.Value.asTable?).getD []

-- Of equal keys only the last stays.
def lastOfEach : Toml.Table → Toml.Table
  | [] => []
  | (key, value) :: rest =>
    if rest.any (·.1 == key) then lastOfEach rest else (key, value) :: lastOfEach rest

-- Keys in any letter case, visited in the order of their bytes as they were written.
def entriesOf (options : Toml.Table) : List (String × Toml.Value) :=
  lastOfEach ((options.mergeSort fun a b => !(b.1 < a.1)).map fun (key, value) =>
    (Text.lowercase key, value))

def ofContent (own : Bool) (content : Except ReadError Bytes) : Except ConfigError Settings :=
  match content with
  | .error cause => .error (.unreadable cause)
  | .ok bytes =>
    match bytes.toString? with
    | none => .error (.unreadable .notUtf8)
    | some text =>
      match Toml.parse? text with
      | none => .error .malformed
      | some document => Settings.assign {} (entriesOf (optionsIn own document))

-- An explicit file must exist. Without one, a file beside or above the inputs is
-- taken, then the user's own, then the defaults.
def load (system : FileSystem) (userFile : Option Bytes) (inputs : List Path)
    (explicit : Option Path) : Except ConfigError Settings :=
  match explicit with
  | some path =>
    if system.contains path then ofContent (path.fileName? == some ownName) (system.read path)
    else .error (.fileNotFound path.spelling)
  | none =>
    match find? system inputs with
    | some file =>
      ofContent (file.getLast? == some (.normal ownName)) (system.readComponents file)
    | none =>
      match userFile with
      | some bytes => ofContent true (.ok bytes)
      | none => .ok {}

end InsertBatch.Config
