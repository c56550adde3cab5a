import InsertBatch.Lexeme
import InsertBatch.Text.Blank

namespace InsertBatch

-- One statement of a script: its text without surrounding blanks, where that text
-- starts, and on which line, counting from one.
structure Piece where
  text : Bytes
  offset : Nat
  line : Nat
deriving DecidableEq, Repr

namespace Script

def isSeparator (lexeme : Lexeme) : Bool := lexeme.plainByte? == some Ascii.semicolon

-- A plain byte other than an ASCII blank, or an opening quote.
def isContent (lexeme : Lexeme) : Bool :=
  match lexeme.plainByte? with
  | some byte => !Ascii.isBlank byte
  | none => lexeme.opensQuoted

-- The lexemes between separators. There is one group more than separators.
def groups (lexemes : List Lexeme) : List (List Lexeme) :=
  lexemes.foldr (fun lexeme found =>
    match found with
    | group :: rest =>
      if isSeparator lexeme then [] :: group :: rest else (lexeme :: group) :: rest
    | [] => [[lexeme]]) [[]]

-- A group without content is only blanks and comments and gives no statement. The
-- group starts at `start`, on `line`.
def pieceOf? (start line : Nat) (group : List Lexeme) : Option Piece :=
  if group.any isContent then
    let bytes := group.flatMap Lexeme.text
    let body := Text.trimStart bytes
    let lead := bytes.length - body.length
    some
      { text := Text.trimEnd body
        offset := start + lead
        line := line + (bytes.take lead).count Ascii.newline }
  else none

-- The pieces of consecutive groups, each one separator behind the group before it.
def piecesFrom (start line : Nat) : List (List Lexeme) → List Piece
  | [] => []
  | group :: rest =>
    let bytes := group.flatMap Lexeme.text
    let later := piecesFrom (start + bytes.length + 1) (line + bytes.count Ascii.newline) rest
    match pieceOf? start line group with
    | some piece => piece :: later
    | none => later

def split (rawBackslash : Bool) (script : Bytes) : List Piece :=
  piecesFrom 0 1 (groups (Lexeme.ofText rawBackslash script))

end Script
end InsertBatch
