import InsertBatch.Text.Blank
import InsertBatch.Text.Fields

namespace InsertBatch

-- The flags of a server mode such as STRICT_TRANS_TABLES,NO_BACKSLASH_ESCAPES: in
-- capitals, each once, in the order they were given.
structure SqlMode where
  flags : List String
deriving DecidableEq, Repr

namespace SqlMode

def entries (value : String) : List (List Char) := (Text.fields ',' value.toList).map Text.trim

-- Letters outside ASCII keep their case.
def capitals (chars : List Char) : String := String.ofList (chars.map Char.toUpper)

def parse (value : String) : SqlMode :=
  ⟨(((entries value).map capitals).filter (· ≠ "")).eraseDups⟩

def contains (mode : SqlMode) (flag : String) : Bool :=
  mode.flags.any fun found => capitals found.toList == capitals flag.toList

def rawBackslash (mode : SqlMode) : Bool := mode.contains "NO_BACKSLASH_ESCAPES"

def toText (mode : SqlMode) : String := ",".intercalate mode.flags

def isFlagChar (c : Char) : Bool := c.isAlphanum || c = '_'

-- The first entry that cannot be a flag. An empty entry can.
def invalidEntry? (value : String) : Option String :=
  ((entries value).find? (!·.all isFlagChar)).map String.ofList

-- Refuses what `parse` would keep as it is: the error is the entry at fault.
def parseStrict (value : String) : Except String SqlMode :=
  match invalidEntry? value with
  | some entry => .error entry
  | none => .ok (parse value)

end SqlMode
end InsertBatch
