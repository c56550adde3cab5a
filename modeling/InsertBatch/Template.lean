import InsertBatch.BindError
import InsertBatch.Segment

namespace InsertBatch

-- The values of one execution, each already written as an SQL literal.
abbrev Row := List Bytes

-- The first row that has not `expected` values: its index and its size.
def misfit? (expected : Nat) (rows : List Row) : Option (Nat × Nat) :=
  (rows.zipIdx.find? (·.1.length != expected)).map fun found => (found.2, found.1.length)

-- A statement around a tuple that is repeated once per row. All parameters are in
-- the tuple, and `lead` stops just before its parenthesis.
structure Template where
  lead : Bytes
  tuple : List Segment
  trail : Bytes
deriving DecidableEq, Repr

namespace Template

def parameterCount (template : Template) : Nat := Segment.parameterCount template.tuple

def tupleLength (template : Template) (row : Row) : Nat := Segment.filledLength template.tuple row

-- The bytes that every generated statement has, whatever its rows.
def fixedLength (template : Template) : Nat := template.lead.length + template.trail.length

def fillRows (template : Template) (rows : List Row) : Bytes :=
  template.lead ++ Bytes.join [Ascii.comma] (rows.map (Segment.fill template.tuple)) ++
    template.trail

-- One statement with all rows. `firstRow` is where the first of them stands in
-- the whole batch. Row numbers have 64 bits.
def render (template : Template) (rows : List Row) (firstRow : Nat) : Except BindError Bytes :=
  match misfit? template.parameterCount rows with
  | some (row, got) => .error (.arity ((firstRow + row) % UInt64.size) template.parameterCount got)
  | none => .ok (template.fillRows rows)

end Template
end InsertBatch
