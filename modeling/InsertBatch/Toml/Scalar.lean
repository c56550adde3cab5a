import InsertBatch.Toml.Value

namespace InsertBatch.Toml

-- Keys, strings, numbers and dates as the toml library (0.8) is assumed to read them.

-- What was read and what is left. None is a text that does not fit.
abbrev Read (α : Type) := Option (α × List Char)

def isBlank (c : Char) : Bool := c = ' ' || c = '\t'

def skipBlanks (chars : List Char) : List Char := chars.dropWhile isBlank

-- Printable ASCII, tab and everything beyond ASCII. Other controls stand nowhere.
def isTextChar (c : Char) : Bool := c = '\t' || (' ' ≤ c && c ≤ '~') || '\x80' ≤ c

-- A line ends in a line feed, with or without a carriage return before it.
def newline? : List Char → Option (List Char)
  | '\n' :: rest => some rest
  | '\r' :: '\n' :: rest => some rest
  | _ => none

def isBareChar (c : Char) : Bool := c.isAlphanum || c = '_' || c = '-'

def isHexDigit (c : Char) : Bool := c.isDigit || ('a' ≤ c && c ≤ 'f') || ('A' ≤ c && c ≤ 'F')

def digitValue (c : Char) : Nat :=
  if c.isDigit then c.toNat - '0'.toNat
  else if 'a' ≤ c then c.toNat - 'a'.toNat + 10
  else c.toNat - 'A'.toNat + 10

def ofDigits (base : Nat) (digits : List Char) : Nat :=
  digits.foldl (fun n c => n * base + digitValue c) 0

-- Exactly so many hexadecimal digits that name a character.
def codePoint? (count : Nat) (chars : List Char) : Read Char :=
  let digits := chars.take count
  let n := ofDigits 16 digits
  if digits.length = count ∧ digits.all isHexDigit ∧ n.isValidChar then
    some (Char.ofNat n, chars.drop count)
  else none

-- What follows a backslash.
def escape? : List Char → Read Char
  | 'b' :: rest => some ('\x08', rest)
  | 't' :: rest => some ('\t', rest)
  | 'n' :: rest => some ('\n', rest)
  | 'f' :: rest => some ('\x0c', rest)
  | 'r' :: rest => some ('\r', rest)
  | '"' :: rest => some ('"', rest)
  | '\\' :: rest => some ('\\', rest)
  | 'u' :: rest => codePoint? 4 rest
  | 'U' :: rest => codePoint? 8 rest
  | _ => none

-- Blanks and line ends, and comments if they may stand here. `fuel` is the number of
-- characters.
def skipSpace (comments : Bool) : (fuel : Nat) → List Char → List Char
  | 0, chars => chars
  | _, [] => []
  | fuel + 1, c :: rest =>
    if isBlank c then skipSpace comments fuel rest
    else if c = '#' && comments then skipSpace comments fuel (rest.dropWhile isTextChar)
    else
      match newline? (c :: rest) with
      | some rest => skipSpace comments fuel rest
      | none => c :: rest

def skip (comments : Bool) (chars : List Char) : List Char :=
  skipSpace comments chars.length chars

-- A backslash at the end of a line joins it to the next text: what is left after
-- the blanks and line ends.
def lineJoin? (chars : List Char) : Option (List Char) :=
  (newline? (skipBlanks chars)).map (skip false)

-- A run of quotes in a string of several lines: fewer than three are text, and up
-- to two may stand before the closing three. Gives the text, and whether it closes.
def quoteRun (quote : Char) (chars : List Char) : List Char × Bool × List Char :=
  let run := (chars.takeWhile (· = quote)).length
  if run < 3 then (List.replicate run quote, false, chars.drop run)
  else
    let extra := min (run - 3) 2
    (List.replicate extra quote, true, chars.drop (extra + 3))

-- The body of a string up to its closing quote or quotes. Each step takes one
-- character at least, so `fuel` is the number of characters.
def stringBody (quote : Char) (escapes multiline : Bool) :
    (fuel : Nat) → List Char → Read (List Char)
  | 0, _ => none
  | _, [] => none
  | fuel + 1, c :: rest =>
    let go (text : List Char) (rest : List Char) : Read (List Char) :=
      (stringBody quote escapes multiline fuel rest).map fun (body, after) => (text ++ body, after)
    if c = quote then
      if multiline then
        match quoteRun quote (c :: rest) with
        | (text, true, rest) => some (text, rest)
        | (text, false, rest) => go text rest
      else some ([], rest)
    else if c = '\\' && escapes then
      match (if multiline then lineJoin? rest else none) with
      | some rest => go [] rest
      | none =>
        match escape? rest with
        | some (c, rest) => go [c] rest
        | none => none
    else if isTextChar c then go [c] rest
    else
      match (if multiline then newline? (c :: rest) else none) with
      | some rest => go ['\n'] rest
      | none => none

-- A line end just behind the opening quotes is not part of the text.
def multilineString? (quote : Char) (chars : List Char) : Read (List Char) :=
  let body := (newline? chars).getD chars
  stringBody quote (quote = '"') true body.length body

def lineString? (quote : Char) (chars : List Char) : Read (List Char) :=
  stringBody quote (quote = '"') false chars.length chars

-- Digits with single underscores between them.
def digits? (isDigit : Char → Bool) : List Char → Read (List Char)
  | [] => none
  | c :: rest =>
    if isDigit c then
      match digits? isDigit rest with
      | some (found, after) => some (c :: found, after)
      | none =>
        match rest with
        | '_' :: next => (digits? isDigit next).map fun (found, after) => (c :: found, after)
        | next :: _ => if isDigit next then none else some ([c], rest)
        | [] => some ([c], [])
    else none

def takeSign : List Char → Bool × List Char
  | '-' :: rest => (true, rest)
  | '+' :: rest => (false, rest)
  | chars => (false, chars)

-- A decimal without leading zeros.
def decimal? (chars : List Char) : Read (List Char) :=
  match chars with
  | '0' :: rest => some (['0'], rest)
  | _ => digits? Char.isDigit chars

def fitsInteger (n : Int) : Bool := Int64.minValue.toInt ≤ n && n ≤ Int64.maxValue.toInt

def integer? (chars : List Char) : Read Value :=
  let based (base : Nat) (isDigit : Char → Bool) (rest : List Char) : Read Value :=
    match digits? isDigit rest with
    | some (digits, after) =>
      let n : Int := ofDigits base digits
      if fitsInteger n then some (.integer n, after) else none
    | none => none
  match chars with
  | '0' :: 'x' :: rest => based 16 isHexDigit rest
  | '0' :: 'o' :: rest => based 8 (fun c => '0' ≤ c && c ≤ '7') rest
  | '0' :: 'b' :: rest => based 2 (fun c => c = '0' || c = '1') rest
  | _ =>
    let (negative, rest) := takeSign chars
    match decimal? rest with
    | some (digits, after) =>
      let n : Int := ofDigits 10 digits
      let signed := if negative then -n else n
      if fitsInteger signed then some (.integer signed, after) else none
    | none => none

-- Whether digits times a power of ten round to a finite number of double precision.
-- The bound lies halfway between the largest such number and the next power of two.
def isFinite (digits : List Char) (exponent : Int) : Bool :=
  let digits := digits.dropWhile (· = '0')
  let magnitude := (digits.length : Int) + exponent
  if digits = [] ∨ magnitude < 309 then true
  else if 310 < magnitude then false
  else
    let n := ofDigits 10 digits
    let bound := Nat.pow 2 1024 - Nat.pow 2 970
    if 0 ≤ exponent then n * Nat.pow 10 exponent.toNat < bound
    else n < bound * Nat.pow 10 (-exponent).toNat

def fraction? : List Char → Read (List Char)
  | '.' :: rest => digits? Char.isDigit rest
  | _ => none

def exponent? : List Char → Read Int
  | c :: rest =>
    if c = 'e' || c = 'E' then
      let (negative, rest) := takeSign rest
      (digits? Char.isDigit rest).map fun (digits, after) =>
        let n : Int := ofDigits 10 digits
        (if negative then -n else n, after)
    else none
  | [] => none

def specialFloat? : List Char → Read Value
  | 'i' :: 'n' :: 'f' :: rest => some (.float, rest)
  | 'n' :: 'a' :: 'n' :: rest => some (.float, rest)
  | _ => none

-- A number with a fraction, an exponent or both. One too large is refused unless
-- it is negative.
def float? (chars : List Char) : Read Value :=
  let (negative, rest) := takeSign chars
  match decimal? rest with
  | none => specialFloat? rest
  | some (whole, rest) =>
    let (part, rest', hasPart) := match fraction? rest with
      | some (part, rest) => (part, rest, true)
      | none => ([], rest, false)
    let (exponent, after, hasExponent) := match exponent? rest' with
      | some (exponent, after) => (exponent, after, true)
      | none => (0, rest', false)
    if !hasPart && !hasExponent then none
    else if negative || isFinite (whole ++ part) (exponent - part.length) then some (.float, after)
    else none

-- Exactly so many decimal digits, within bounds.
def fixed? (count low high : Nat) (chars : List Char) : Read Nat :=
  let digits := chars.take count
  let n := ofDigits 10 digits
  if digits.length = count ∧ digits.all Char.isDigit ∧ low ≤ n ∧ n ≤ high then
    some (n, chars.drop count)
  else none

def expect? (c : Char) : List Char → Option (List Char)
  | found :: rest => if found = c then some rest else none
  | [] => none

def daysIn (year month : Nat) : Nat :=
  if month = 2 then
    if year % 4 = 0 ∧ (year % 100 ≠ 0 ∨ year % 400 = 0) then 29 else 28
  else if month = 4 ∨ month = 6 ∨ month = 9 ∨ month = 11 then 30
  else 31

def date? (chars : List Char) : Option (List Char) := do
  let (year, rest) ← fixed? 4 0 9999 chars
  let rest ← expect? '-' rest
  let (month, rest) ← fixed? 2 1 12 rest
  let rest ← expect? '-' rest
  let (_, rest) ← fixed? 2 1 (daysIn year month) rest
  return rest

-- A leap second is allowed in any minute.
def timeUpTo? (lastHour : Nat) (chars : List Char) : Option (List Char) := do
  let (_, rest) ← fixed? 2 0 lastHour chars
  let rest ← expect? ':' rest
  let (_, rest) ← fixed? 2 0 59 rest
  let rest ← expect? ':' rest
  let (_, rest) ← fixed? 2 0 60 rest
  match rest with
  | '.' :: part =>
    if part.head?.any Char.isDigit then return part.dropWhile Char.isDigit else none
  | _ => return rest

def time? (chars : List Char) : Option (List Char) := timeUpTo? 23 chars

def offset? (chars : List Char) : Option (List Char) :=
  match chars with
  | c :: rest =>
    if c = 'Z' || c = 'z' then some rest
    else if c = '+' || c = '-' then do
      let (_, rest) ← fixed? 2 0 23 rest
      let rest ← expect? ':' rest
      let (_, rest) ← fixed? 2 0 59 rest
      return rest
    else none
  | [] => none

-- A date, a time, or both with an offset or without.
def datetime? (chars : List Char) : Read Value :=
  match date? chars with
  | none => (time? chars).map fun rest => (.datetime, rest)
  | some rest =>
    let after := match rest with
      | c :: next =>
        if c = 'T' || c = 't' || c = ' ' then
          match time? next with
          | some after => (offset? after).getD after
          | none => rest
        else rest
      | [] => rest
    some (.datetime, after)

end InsertBatch.Toml
