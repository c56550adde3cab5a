import InsertBatch.Batch.Plan
import InsertBatch.Cache
import InsertBatch.SqlMode

namespace InsertBatch

-- Everything that a configuration file or the command line may set.
structure Settings extends BatchOptions where
  rawBackslash : Bool := false
  sqlMode : Option String := none
  cacheSize : Nat := Cache.defaultCapacity
  exclude : List String := []
  check : Bool := false
  explain : Bool := false
  verbose : Bool := false
  quiet : Bool := false
  noColor : Bool := false
  forceColor : Bool := false
  threads : Nat := 0
  singleProcess : Bool := false
deriving DecidableEq, Repr

namespace Settings

-- The server mode has the same effect as the switch of its own.
def effectiveRawBackslash (settings : Settings) : Bool :=
  settings.rawBackslash || settings.sqlMode.any fun mode => (SqlMode.parse mode).rawBackslash

-- `refused` tells whether the environment asks for no color.
def color (settings : Settings) (refused : Bool) : Bool :=
  settings.forceColor || (!settings.noColor && !refused)

def sqlExtensions : List String := ["sql", "ddl", "dml"]

end Settings
end InsertBatch
