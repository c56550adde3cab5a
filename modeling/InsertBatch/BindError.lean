namespace InsertBatch

-- Positions of parameters count from one, rows of a batch from zero.
inductive BindError where
  | arity (row expected got : Nat)
  | noSuchParameter (index count : Nat)
  | unbound (index : Nat)
deriving DecidableEq, Repr

def BindError.message : BindError → String
  | .arity row expected got => s!"row {row}: statement expects {expected} parameter(s), got {got}"
  | .noSuchParameter index count =>
    s!"parameter index {index} out of range (statement has {count} parameter(s))"
  | .unbound index => s!"parameter {index} is not bound"

end InsertBatch
