import InsertBatch.Classification
import InsertBatch.Template

namespace InsertBatch

-- An analyzed SQL text. `marks` holds the offset of each parameter, in order.
structure Statement where
  sql : Bytes
  rawBackslash : Bool
  marks : List Nat
  classification : Classification
deriving DecidableEq, Repr

namespace Statement

-- Never fails: text that is not understood only loses the right to be merged.
def analyze (rawBackslash : Bool) (sql : Bytes) : Statement :=
  let lexemes := Lexeme.ofText rawBackslash sql
  let tokens := Token.ofLexemes lexemes
  { sql, rawBackslash
    marks := Token.marks tokens
    classification := Classification.ofTokens tokens (Lexeme.endContext .plain lexemes) }

def parameterCount (statement : Statement) : Nat := statement.marks.length

def blocker? (statement : Statement) : Option Blocker := statement.classification.blocker?

def isMergeable (statement : Statement) : Bool := statement.classification.isMergeable

def segments (statement : Statement) : List Segment :=
  Segment.cut statement.sql 0 statement.marks statement.sql.length

-- One execution. A row of the wrong size is reported as row zero.
def render (statement : Statement) (row : Row) : Except BindError Bytes :=
  if row.length = statement.parameterCount then .ok (Segment.fill statement.segments row)
  else .error (.arity 0 statement.parameterCount row.length)

-- Also defined for a row of the wrong size, where it counts all its values.
def renderedLength (statement : Statement) (row : Row) : Nat :=
  Segment.filledLength statement.segments row

-- The statement cut around its tuple, when its rows can be merged.
def template? (statement : Statement) : Option Template :=
  if statement.isMergeable then
    statement.classification.tupleSpan?.map fun (start, stop) =>
      { lead := statement.sql.slice 0 start
        tuple := Segment.cut statement.sql start statement.marks stop
        trail := statement.sql.slice stop statement.sql.length }
  else none

end Statement
end InsertBatch
