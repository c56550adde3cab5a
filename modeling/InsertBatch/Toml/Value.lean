namespace InsertBatch.Toml

-- Documents as the toml library (0.8) is documented to read them, from this module up to
-- `Document`. The library is not part of this program; that it reads them like this is
-- assumed, and what it says of a malformed one is left out.

-- Numbers with a fraction and dates are only told apart from the rest: no setting
-- takes one. The keys of a table are distinct.
inductive Value where
  | string (text : String)
  | integer (n : Int)
  | float
  | boolean (b : Bool)
  | datetime
  | array (items : List Value)
  | table (entries : List (String × Value))

abbrev Table := List (String × Value)

namespace Value

def asTable? : Value → Option Table
  | .table entries => some entries
  | _ => none

def asText? : Value → Option String
  | .string text => some text
  | _ => none

end Value
end InsertBatch.Toml
