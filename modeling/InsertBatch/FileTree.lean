import InsertBatch.Bytes
import InsertBatch.Path
import InsertBatch.ReadError

namespace InsertBatch

-- Files and directories that can be read. Symbolic links, and what the system refuses to
-- open or to list, are left out. Names in a directory are distinct.
inductive FileTree where
  | file (content : Bytes)
  | directory (entries : List (String × FileTree))

namespace FileTree

def entries : FileTree → List (String × FileTree)
  | .file _ => []
  | .directory entries => entries

def isDirectory : FileTree → Bool
  | .file _ => false
  | .directory _ => true

def putEntry (name : String) (tree : FileTree) (entries : List (String × FileTree)) :
    List (String × FileTree) :=
  entries.filter (·.1 != name) ++ [(name, tree)]

-- Puts a tree at the end of a chain of names, with directories on the way there.
def insert (tree : FileTree) : List String → FileTree → FileTree
  | [], _ => tree
  | name :: names, into =>
    let child := (into.entries.lookup name).getD (.directory [])
    .directory (putEntry name (insert tree names child) into.entries)

-- Follows components from a directory. `above` holds the directories passed on the
-- way, nearest first; the root is its own parent.
def follow (above : List FileTree) (here : FileTree) : List Component → Except ReadError FileTree
  | [] => .ok here
  | component :: rest =>
    if here.isDirectory then
      match component with
      | .root | .current => follow above here rest
      | .parent =>
        match above with
        | [] => follow [] here rest
        | nearest :: above => follow above nearest rest
      | .normal name =>
        match here.entries.lookup name with
        | some child => follow (here :: above) child rest
        | none => .error .notFound
    else .error .notDirectory

end FileTree

-- What paths mean: relative ones start from the working directory.
structure FileSystem where
  root : FileTree
  workingDirectory : List String

namespace FileSystem

def start (system : FileSystem) (components : List Component) : List Component :=
  if components.head? = some .root then components
  else system.workingDirectory.map .normal ++ components

def atComponents (system : FileSystem) (components : List Component) :
    Except ReadError FileTree :=
  FileTree.follow [] system.root (system.start components)

-- The empty path means nothing, although it has the components of the working directory.
def find (system : FileSystem) (path : Path) : Except ReadError FileTree :=
  if path.spelling = "" then .error .notFound
  else
    match system.atComponents path.components with
    | .ok (.file content) => if path.endsAsDirectory then .error .notDirectory else .ok (.file content)
    | found => found

def contains (system : FileSystem) (path : Path) : Bool := (system.find path).toOption.isSome

def contentOf : Except ReadError FileTree → Except ReadError Bytes
  | .error cause => .error cause
  | .ok (.directory _) => .error .isDirectory
  | .ok (.file content) => if content.toString?.isSome then .ok content else .error .notUtf8

def read (system : FileSystem) (path : Path) : Except ReadError Bytes :=
  contentOf (system.find path)

def readComponents (system : FileSystem) (components : List Component) : Except ReadError Bytes :=
  contentOf (system.atComponents components)

end FileSystem
end InsertBatch
