import InsertBatch.Toml.DateKey
import InsertBatch.Toml.Node

namespace InsertBatch.Toml

-- Lines, keys and headers as the toml library (0.8) is assumed to read them.

-- Values nest, and keys have parts, below this bound.
def depthLimit : Nat := 80

def comment : List Char → List Char
  | '#' :: rest => rest.dropWhile isTextChar
  | chars => chars

def keyPart? (chars : List Char) : Read String :=
  match chars with
  | '"' :: rest => (lineString? '"' rest).map fun (text, after) => (String.ofList text, after)
  | '\'' :: rest => (lineString? '\'' rest).map fun (text, after) => (String.ofList text, after)
  | _ =>
    let name := chars.takeWhile isBareChar
    if name = [] then none else some (String.ofList name, chars.dropWhile isBareChar)

def keyParts? : (fuel : Nat) → List Char → Read (List String)
  | 0, _ => none
  | fuel + 1, chars =>
    match keyPart? (skipBlanks chars) with
    | none => none
    | some (part, rest) =>
      match skipBlanks rest with
      | '.' :: next => (keyParts? fuel next).map fun (parts, after) => (part :: parts, after)
      | after => some ([part], after)

-- A key, its path apart from its last part.
def key? (chars : List Char) : Read (List String × String) :=
  match keyParts? chars.length chars with
  | none => none
  | some (parts, after) =>
    match parts.getLast? with
    | some last => if parts.length < depthLimit then some ((parts.dropLast, last), after) else none
    | none => none

def number? (chars : List Char) : Read Value :=
  (datetime? chars).or ((float? chars).or (integer? chars))

-- A value that holds no others.
def scalar? (chars : List Char) : Read Value :=
  let text (read : Read (List Char)) : Read Value :=
    read.map fun (found, after) => (.string (String.ofList found), after)
  match chars with
  | '"' :: '"' :: '"' :: rest => text (multilineString? '"' rest)
  | '\'' :: '\'' :: '\'' :: rest => text (multilineString? '\'' rest)
  | '"' :: rest => text (lineString? '"' rest)
  | '\'' :: rest => text (lineString? '\'' rest)
  | 't' :: 'r' :: 'u' :: 'e' :: rest => some (.boolean true, rest)
  | 'f' :: 'a' :: 'l' :: 's' :: 'e' :: rest => some (.boolean false, rest)
  | c :: _ =>
    if c.isDigit || c = '+' || c = '-' then number? chars
    else specialFloat? chars
  | [] => none

-- The items of an array behind its opening bracket. A comma may follow the last.
def items? (item : List Char → Read Value) : (fuel : Nat) → List Char → Read (List Value)
  | 0, _ => none
  | fuel + 1, chars =>
    match skip true chars with
    | ']' :: after => some ([], after)
    | start =>
      match item start with
      | none => none
      | some (value, rest) =>
        match skip true rest with
        | ',' :: next => (items? item fuel next).map fun (values, after) => (value :: values, after)
        | ']' :: after => some ([value], after)
        | _ => none

def keyValue? (item : List Char → Read Value) (chars : List Char) :
    Read ((List String × String) × Value) :=
  match key? chars with
  | some (key, '=' :: rest) =>
    (item (skipBlanks rest)).map fun (value, after) => ((key, value), after)
  | _ => none

-- The entries of an inline table, which stays on one line. No comma follows the last.
def inlineEntries? (item : List Char → Read Value) (entries : Nodes) :
    (fuel : Nat) → List Char → Read Nodes
  | 0, _ => none
  | fuel + 1, chars =>
    match keyValue? item chars with
    | none => none
    | some (((path, key), value), rest) =>
      match Node.assign path key value entries with
      | none => none
      | some entries =>
        match skipBlanks rest with
        | ',' :: next => inlineEntries? item entries fuel next
        | '\x7d' :: after => some (entries, after)
        | _ => none

-- `depth` bounds how deep arrays and inline tables may still nest.
def value? : (depth : Nat) → List Char → Read Value
  | 0, chars => scalar? chars
  | depth + 1, '[' :: rest =>
    (items? (value? depth) rest.length rest).map fun (values, after) => (.array values, after)
  | depth + 1, '\x7b' :: rest =>
    match skipBlanks rest with
    | '\x7d' :: after => some (.table [], after)
    | start =>
      (inlineEntries? (value? depth) [] start.length start).map fun (entries, after) =>
        (.table (Node.toTable entries), after)
  | _ + 1, chars => scalar? chars

-- Only a comment may follow on a line. Gives the next line.
def lineEnd? (chars : List Char) : Option (List Char) :=
  match comment (skipBlanks chars) with
  | [] => some []
  | rest => newline? rest

def header? (chars : List Char) : Read (Bool × List String × String) :=
  match chars with
  | '[' :: '[' :: rest =>
    match key? rest with
    | some ((path, key), ']' :: ']' :: after) => some ((true, path, key), after)
    | _ => none
  | '[' :: rest =>
    match key? rest with
    | some ((path, key), ']' :: after) => some ((false, path, key), after)
    | _ => none
  | _ => none

-- What has been read, and the table that the last header opened.
structure Progress where
  entries : Nodes := []
  header : List String := []

def Progress.line? (progress : Progress) (chars : List Char) : Read Progress :=
  match chars with
  | '[' :: _ =>
    match header? chars with
    | none => none
    | some ((isElement, path, key), rest) =>
      let opened :=
        if isElement then Node.openElement path key progress.entries
        else Node.openTable path key progress.entries
      opened.map fun entries => ({ entries, header := path ++ [key] }, rest)
  | '#' :: _ | '\n' :: _ | '\r' :: _ | [] => some (progress, chars)
  | _ =>
    match keyValue? (value? (depthLimit - 1)) chars with
    | none => none
    | some (((path, key), value), rest) =>
      (Node.assignBelow progress.header path key value progress.entries).map fun entries =>
        ({ progress with entries }, rest)

-- Every line takes at least its end, so `fuel` is the number of characters.
def lines? (progress : Progress) : (fuel : Nat) → List Char → Option Progress
  | _, [] => some progress
  | 0, _ => none
  | fuel + 1, chars =>
    match progress.line? (skipBlanks chars) with
    | none => none
    | some (progress, rest) =>
      match lineEnd? rest with
      | none => none
      | some rest => lines? progress fuel rest

-- A byte order mark in front is skipped. None for a text that is not TOML.
def parse? (text : String) : Option Table :=
  let chars := match text.toList with
    | '\ufeff' :: rest => rest
    | chars => chars
  (lines? {} chars.length chars).bind fun progress => settleEntries? (Node.toTable progress.entries)

end InsertBatch.Toml
