import InsertBatch.Keyword
import InsertBatch.Lexeme

namespace InsertBatch

-- Plain text grouped into whole words, with everything else as the lexer took it.
-- `turn` is any step that starts or ends outside plain text.
inductive Token where
  | word (start : Nat) (text : Bytes)
  | sign (start : Nat) (byte : UInt8)
  | blank (start : Nat) (byte : UInt8)
  | turn (lexeme : Lexeme)
deriving DecidableEq, Repr

namespace Token

-- Puts one more word byte in front. Two words never stand side by side, so each
-- is a maximal run of word bytes.
def consWord (start : Nat) (byte : UInt8) : List Token → List Token
  | .word _ text :: rest => .word start (byte :: text) :: rest
  | rest => .word start [byte] :: rest

def consLexeme (lexeme : Lexeme) (rest : List Token) : List Token :=
  match lexeme.plainByte? with
  | none => .turn lexeme :: rest
  | some byte =>
    if Ascii.isWord byte then consWord lexeme.start byte rest
    else if Ascii.isBlank byte then .blank lexeme.start byte :: rest
    else .sign lexeme.start byte :: rest

def ofLexemes (lexemes : List Lexeme) : List Token := lexemes.foldr consLexeme []

def ofText (rawBackslash : Bool) (text : Bytes) : List Token :=
  ofLexemes (Lexeme.ofText rawBackslash text)

def isSign (byte : UInt8) : Token → Bool
  | .sign _ found => found == byte
  | _ => false

def isBlank : Token → Bool
  | .blank .. => true
  | _ => false

def keyword? : Token → Option Keyword
  | .word _ text => Keyword.ofWord? text
  | _ => none

-- Content, as opposed to blanks and comments. An opening quote is content; what
-- it encloses has been counted with it.
def isSignificant : Token → Bool
  | .word .. | .sign .. => true
  | .blank .. => false
  | .turn lexeme => lexeme.opensQuoted

def opensLineComment : Token → Bool
  | .turn lexeme => lexeme.opensLineComment
  | _ => false

-- Where a parameter mark stands.
def mark? : Token → Option Nat
  | .sign start byte => if byte = Ascii.question then some start else none
  | _ => none

def marks (tokens : List Token) : List Nat := tokens.filterMap mark?

end Token
end InsertBatch
