import InsertBatch.Toml.Value

namespace InsertBatch.Toml

-- A document while it is read, by the rules that the toml library (0.8) is assumed to keep
-- to when keys meet. A table is implicit until a header names it, and
-- dotted when a dotted key made it; both decide what may still be added to it.
-- `tables` is an array of tables, which grows at its end by headers alone.
inductive Node where
  | value (found : Value)
  | table (implicit dotted : Bool) (entries : List (String × Node))
  | tables (elements : List (List (String × Node)))

abbrev Nodes := List (String × Node)

namespace Node

-- A new key goes to the end; a known one keeps its place.
def put (key : String) (node : Node) : Nodes → Nodes
  | [] => [(key, node)]
  | entry :: rest => if entry.1 == key then (key, node) :: rest else entry :: put key node rest

mutual

def toValue : Node → Value
  | .value found => found
  | .table _ _ entries => .table (toTable entries)
  | .tables elements => .array (toTables elements)

def toTable : List (String × Node) → List (String × Value)
  | [] => []
  | (key, node) :: rest => (key, toValue node) :: toTable rest

def toTables : List (List (String × Node)) → List Value
  | [] => []
  | entries :: rest => .table (toTable entries) :: toTables rest

end

-- Changes the table at the end of a path and makes implicit tables on the way.
-- A dotted key may not pass through a table that a header named; a header passes
-- through the last table of an array. `change` is told whether the table is dotted.
def changeAt (byKey : Bool) (change : Bool → Nodes → Option Nodes) (dotted : Bool)
    (entries : Nodes) : List String → Option Nodes
  | [] => change dotted entries
  | key :: path =>
    match entries.lookup key with
    | none =>
      (changeAt byKey change byKey [] path).map fun made =>
        put key (.table true byKey made) entries
    | some (.table implicit isDotted inner) =>
      if byKey && !implicit then none
      else
        (changeAt byKey change isDotted inner path).map fun made =>
          put key (.table implicit isDotted made) entries
    | some (.tables elements) =>
      match elements.getLast? with
      | none => none
      | some last =>
        (changeAt byKey change false last path).map fun made =>
          put key (.tables (elements.dropLast ++ [made])) entries
    | some (.value _) => none

-- A key can be set once. Dotted and plain keys do not add to the same table.
def assign (path : List String) (key : String) (value : Value) (entries : Nodes) : Option Nodes :=
  changeAt true (fun dotted entries =>
    if dotted == path.isEmpty || (entries.lookup key).isSome then none
    else some (put key (.value value) entries)) false entries path

-- Opens a table. It must be new, or known only as the parent of other tables. Either
-- way it goes to the end.
def openTable (path : List String) (key : String) (entries : Nodes) : Option Nodes :=
  changeAt false (fun _ entries =>
    match entries.lookup key with
    | none => some (put key (.table false false []) entries)
    | some (.table true false inner) =>
      some (entries.filter (·.1 != key) ++ [(key, .table false false inner)])
    | some _ => none) false entries path

-- Opens one more table of an array.
def openElement (path : List String) (key : String) (entries : Nodes) : Option Nodes :=
  changeAt false (fun _ entries =>
    match entries.lookup key with
    | none => some (put key (.tables [[]]) entries)
    | some (.tables elements) => some (put key (.tables (elements ++ [[]])) entries)
    | some _ => none) false entries path

-- Assigns below the table that the last header opened.
def assignBelow (header path : List String) (key : String) (value : Value) (entries : Nodes) :
    Option Nodes :=
  changeAt false (fun _ entries => assign path key value entries) false entries header

end Node
end InsertBatch.Toml
