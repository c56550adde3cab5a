import InsertBatch.Batch.Packing
import InsertBatch.Statement

namespace InsertBatch

-- How a connection wants batches sent. `maxPacket` bounds a generated statement.
structure BatchOptions where
  mergeRows : Bool := true
  joinStatements : Bool := false
  maxPacket : Nat := 16777216
deriving DecidableEq, Repr

-- `merged`: many tuples in one INSERT. `joined`: executions with a semicolon
-- between them. `separate`: one statement per row.
inductive Strategy where
  | merged
  | joined
  | separate
deriving DecidableEq, Repr

namespace Strategy

def choose (statement : Statement) (options : BatchOptions) : Strategy :=
  if options.mergeRows && statement.isMergeable then .merged
  else if options.joinStatements && statement.classification.joinable then .joined
  else .separate

def name : Strategy → String
  | .merged => "Rewrite"
  | .joined => "MultiQuery"
  | .separate => "PerStatement"

end Strategy

-- The SQL texts that execute a batch, in the order to send them.
structure BatchPlan where
  strategy : Strategy
  statements : List Bytes
deriving DecidableEq, Repr

namespace BatchPlan

def mergeRows (template : Template) (limit : Nat) (rows : List Row) : List Bytes :=
  (Packing.pack template.fixedLength limit template.tupleLength rows).map template.fillRows

def joinTexts (limit : Nat) (texts : List Bytes) : List Bytes :=
  (Packing.pack 0 limit List.length texts).map (Bytes.join [Ascii.semicolon])

def texts (statement : Statement) (rows : List Row) : List Bytes :=
  rows.map (Segment.fill statement.segments)

-- The statements for rows of the right size. A statement is merged only if it has
-- a template.
def statementsFor (statement : Statement) (rows : List Row) (limit : Nat) :
    Strategy → List Bytes
  | .merged =>
    match statement.template? with
    | some template => mergeRows template limit rows
    | none => texts statement rows
  | .joined => joinTexts limit (texts statement rows)
  | .separate => texts statement rows

-- Only merging knows where in the batch a row of the wrong size stands.
def ofRows (statement : Statement) (rows : List Row) (options : BatchOptions) :
    Except BindError BatchPlan :=
  let strategy := Strategy.choose statement options
  match misfit? statement.parameterCount rows with
  | some (row, got) =>
    .error (.arity (if strategy = .merged then row else 0) statement.parameterCount got)
  | none => .ok ⟨strategy, statementsFor statement rows options.maxPacket strategy⟩

end BatchPlan
end InsertBatch
