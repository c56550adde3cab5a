import InsertBatch.Bytes

namespace InsertBatch

-- The words that decide how a statement may be batched.
inductive Keyword where
  | insert
  | values
  | select
  | lastInsertId
deriving DecidableEq, Repr

namespace Keyword

def spellings : List (Bytes × Keyword) :=
  [(Bytes.ofString "insert", .insert),
   (Bytes.ofString "values", .values),
   (Bytes.ofString "value", .values),
   (Bytes.ofString "select", .select),
   (Bytes.ofString "last_insert_id", .lastInsertId)]

-- A whole word in any letter case.
def ofWord? (word : Bytes) : Option Keyword := spellings.lookup (word.map Ascii.lower)

end Keyword
end InsertBatch
