namespace InsertBatch

-- Why a file gives no text.
inductive ReadError where
  | notFound
  | notDirectory
  | isDirectory
  | notUtf8
deriving DecidableEq, Repr

def ReadError.message : ReadError → String
  | .notFound => "No such file or directory (os error 2)"
  | .notDirectory => "Not a directory (os error 20)"
  | .isDirectory => "Is a directory (os error 21)"
  | .notUtf8 => "stream did not contain valid UTF-8"

end InsertBatch
