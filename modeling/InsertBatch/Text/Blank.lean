import InsertBatch.Bytes

namespace InsertBatch.Text

-- The characters with the Unicode property White_Space.
def blanks : List Char :=
  ['\t', '\n', '\x0b', '\x0c', '\r', ' ', '\u0085', '\u00a0', '\u1680', '\u2000', '\u2001',
   '\u2002', '\u2003', '\u2004', '\u2005', '\u2006', '\u2007', '\u2008', '\u2009', '\u200a',
   '\u2028', '\u2029', '\u202f', '\u205f', '\u3000']

def isBlank (c : Char) : Bool := blanks.contains c

def trim (chars : List Char) : List Char :=
  ((chars.dropWhile isBlank).reverse.dropWhile isBlank).reverse

-- The same characters in UTF-8.
def encodedBlanks : List Bytes := blanks.map String.utf8EncodeChar

-- Drops units from the front as long as one of them stands there.
def dropUnits (units : List Bytes) (bytes : Bytes) : Bytes :=
  match units.find? (·.isPrefixOf bytes) with
  | none => bytes
  | some unit =>
    if 0 < unit.length ∧ bytes ≠ [] then dropUnits units (bytes.drop unit.length) else bytes
termination_by bytes.length
decreasing_by
  rename_i present
  have nonempty := List.length_pos_iff.mpr present.2
  simp only [List.length_drop]
  omega

def trimStart (bytes : Bytes) : Bytes := dropUnits encodedBlanks bytes

-- No character's encoding occurs inside another's, so it can be read backwards.
def trimEnd (bytes : Bytes) : Bytes :=
  (dropUnits (encodedBlanks.map List.reverse) bytes.reverse).reverse

end InsertBatch.Text
