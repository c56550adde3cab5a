import InsertBatch.Bytes

namespace InsertBatch

-- A stretch of SQL text, or a place where a value goes.
inductive Segment where
  | text (bytes : Bytes)
  | parameter
deriving DecidableEq, Repr

namespace Segment

def isParameter : Segment → Bool
  | .text _ => false
  | .parameter => true

-- `rest` is what follows `offset` in a text. Cut up to `stop` at the one-byte marks in
-- between: text pieces and parameters alternate, with a text piece, maybe empty, at
-- each end.
def cutFrom (offset : Nat) (rest : Bytes) (stop : Nat) : List Nat → List Segment
  | [] => [.text (rest.take (stop - offset))]
  | mark :: marks =>
    .text (rest.take (mark - offset)) :: .parameter ::
      cutFrom (mark + 1) (rest.drop (mark + 1 - offset)) stop marks

-- The text from `start` to `stop` around its marks.
def cut (text : Bytes) (start : Nat) (marks : List Nat) (stop : Nat) : List Segment :=
  cutFrom start (text.drop start) stop marks

def parameterCount (segments : List Segment) : Nat := segments.countP isParameter

def textOr (placeholder : Bytes) : Segment → Bytes
  | .text bytes => bytes
  | .parameter => placeholder

-- The same placeholder for every parameter. With a question mark it gives back
-- the text that was cut.
def reassemble (placeholder : Bytes) (segments : List Segment) : Bytes :=
  segments.flatMap (textOr placeholder)

-- Values in the order of the parameters. A parameter without a value gives nothing
-- and a value without a parameter is left out; callers compare the counts.
def fill : List Segment → List Bytes → Bytes
  | [], _ => []
  | .text bytes :: rest, values => bytes ++ fill rest values
  | .parameter :: rest, value :: values => value ++ fill rest values
  | .parameter :: rest, [] => fill rest []

-- The length of `fill` for as many values as parameters. All values count, also
-- when there are too many.
def filledLength (segments : List Segment) (values : List Bytes) : Nat :=
  (reassemble [] segments).length + values.flatten.length

end Segment
end InsertBatch
