import InsertBatch.Batch.Plan
import InsertBatch.Cache

namespace InsertBatch

-- A shared analysis with bindings and a batch of its own. `bindings` has one slot
-- per parameter. A call that is refused has no next state: the statement stays.
structure Prepared where
  template : Analysis
  bindings : List (Option Bytes)
  batch : List Row
deriving DecidableEq, Repr

namespace Prepared

def ofAnalysis (template : Analysis) : Prepared :=
  { template, bindings := List.replicate template.statement.parameterCount none, batch := [] }

def prepare (cache : Cache) (rawBackslash : Bool) (sql : Bytes) : Prepared × Cache :=
  let (template, cache) := cache.get rawBackslash sql
  (ofAnalysis template, cache)

def parameterCount (prepared : Prepared) : Nat := prepared.bindings.length

-- Parameters count from one.
def setParameter (prepared : Prepared) (index : Nat) (value : Bytes) :
    Except BindError Prepared :=
  if 1 ≤ index ∧ index ≤ prepared.parameterCount then
    .ok { prepared with bindings := prepared.bindings.set (index - 1) (some value) }
  else .error (.noSuchParameter index prepared.parameterCount)

def clearParameters (prepared : Prepared) : Prepared :=
  { prepared with bindings := prepared.bindings.map fun _ => none }

-- The bound values, or the first parameter that has none.
def boundRow (prepared : Prepared) : Except BindError Row :=
  match prepared.bindings.findIdx? Option.isNone with
  | some position => .error (.unbound (position + 1))
  | none => .ok (prepared.bindings.filterMap id)

def toSql (prepared : Prepared) : Except BindError Bytes :=
  prepared.boundRow.bind prepared.template.statement.render

-- Queues the bindings as they are now. They stay bound for the next row.
def addBatch (prepared : Prepared) : Except BindError Prepared :=
  prepared.boundRow.map fun row => { prepared with batch := prepared.batch ++ [row] }

def clearBatch (prepared : Prepared) : Prepared := { prepared with batch := [] }

def plan (prepared : Prepared) (options : BatchOptions) : Except BindError BatchPlan :=
  BatchPlan.ofRows prepared.template.statement prepared.batch options

-- The same template with nothing bound and an empty batch.
def rebind (prepared : Prepared) : Prepared := ofAnalysis prepared.template

end Prepared
end InsertBatch
