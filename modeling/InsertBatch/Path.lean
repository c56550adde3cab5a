import InsertBatch.Text.Fields

namespace InsertBatch

-- A path as it was written. Two spellings with the same components are equal as
-- paths; the spelling is kept for display.
structure Path where
  spelling : String
deriving DecidableEq, Repr

-- `current` occurs only in front, where a path was written with a leading dot.
inductive Component where
  | root
  | current
  | parent
  | normal (name : String)
deriving DecidableEq, Repr

namespace Component

def rank : Component → Nat
  | .root => 0
  | .current => 1
  | .parent => 2
  | .normal _ => 3

-- Names are ordered by their bytes, which is the order of their characters.
def before (a b : Component) : Bool :=
  match a, b with
  | .normal a, .normal b => a < b
  | a, b => a.rank < b.rank

-- Repeated separators and inner dots add nothing.
def ofFields (fields : List (List Char)) : List Component :=
  (fields.filter fun field => field ≠ [] && field ≠ ['.']).map fun field =>
    if field = ['.', '.'] then .parent else .normal (String.ofList field)

def ofText (text : String) : List Component :=
  match Text.fields '/' text.toList with
  | [] :: field :: fields => .root :: ofFields (field :: fields)
  | ['.'] :: fields => .current :: ofFields fields
  | fields => ofFields fields

-- Lexicographic order, a shorter path before its extensions.
def precedes : List Component → List Component → Bool
  | [], _ => true
  | _ :: _, [] => false
  | a :: as, b :: bs => if a = b then precedes as bs else a.before b

end Component

namespace Path

def components (path : Path) : List Component := Component.ofText path.spelling

-- Equality of paths.
def same (a b : Path) : Bool := a.components == b.components

def precedes (a b : Path) : Bool := Component.precedes a.components b.components

-- The path of an entry of a directory.
def join (dir : Path) (name : String) : Path :=
  if dir.spelling = "" ∨ dir.spelling.toList.getLast? = some '/' then ⟨dir.spelling ++ name⟩
  else ⟨dir.spelling ++ "/" ++ name⟩

-- A name at the end. A path that ends in dots has none.
def fileName? (path : Path) : Option String :=
  match path.components.getLast? with
  | some (.normal name) => some name
  | _ => none

-- What follows the last dot of a name, unless that dot comes first.
def nameExtension? (name : String) : Option String :=
  match (Text.fields '.' name.toList).reverse with
  | last :: before :: rest =>
    if before = [] ∧ rest = [] then none else some (String.ofList last)
  | _ => none

-- Whether the spelling can only mean a directory: it ends in a separator, with or
-- without a dot behind it.
def endsAsDirectory (path : Path) : Bool :=
  match (Text.fields '/' path.spelling.toList).reverse with
  | last :: _ :: _ => last == [] || last == ['.']
  | _ => false

end Path
end InsertBatch
