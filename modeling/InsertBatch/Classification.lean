import InsertBatch.Token

namespace InsertBatch

-- What one scan tells about batching a statement. Offsets are byte offsets of
-- the parentheses of the first VALUES tuple.
structure Classification where
  isInsert : Bool
  tupleOpen : Option Nat
  tupleClose : Option Nat
  parameterBeforeTuple : Bool
  parameterAfterTuple : Bool
  hasSecondStatement : Bool
  mentionsSelect : Bool
  mentionsLastInsertId : Bool
  endsInsideLiteral : Bool
  joinable : Bool
deriving DecidableEq, Repr

-- Why the rows of a statement cannot be merged.
inductive Blocker where
  | notInsert
  | noValuesClause
  | unterminatedTuple
  | parameterBeforeTuple
  | parameterAfterTuple
  | multipleStatements
  | containsSelect
  | lastInsertId
  | unterminatedLiteral
deriving DecidableEq, Repr

namespace Blocker

def description : Blocker → String
  | .notInsert => "not an INSERT statement"
  | .noValuesClause => "no VALUES tuple"
  | .unterminatedTuple => "VALUES tuple is never closed"
  | .parameterBeforeTuple => "parameter before the VALUES tuple"
  | .parameterAfterTuple => "parameter after the VALUES tuple"
  | .multipleStatements => "multiple statements"
  | .containsSelect => "contains SELECT"
  | .lastInsertId => "references LAST_INSERT_ID"
  | .unterminatedLiteral => "unterminated string, identifier or comment"

end Blocker

namespace Classification

-- A VALUES clause may start the text or follow a blank, a parenthesis or a comment.
def startsClause : Option Token → Bool
  | none => true
  | some (.word ..) => false
  | some (.sign _ byte) => byte == Ascii.openParen || byte == Ascii.closeParen
  | some (.blank ..) => true
  | some (.turn lexeme) => lexeme.closesComment

-- The offset of a parenthesis that opens across blanks only, and what follows it.
def openAfterBlanks? (tokens : List Token) : Option (Nat × List Token) :=
  match tokens.dropWhile Token.isBlank with
  | .sign start byte :: rest => if byte = Ascii.openParen then some (start, rest) else none
  | _ => none

-- The first VALUES or VALUE at the start of a clause that a parenthesis follows.
-- `previous` is the token just before.
def openTuple? (previous : Option Token) : List Token → Option (Nat × List Token)
  | [] => none
  | token :: rest =>
    if token.keyword? = some .values ∧ startsClause previous then
      match openAfterBlanks? rest with
      | some opened => some opened
      | none => openTuple? (some token) rest
    else openTuple? (some token) rest

-- Where the innermost of `depth` open parentheses around these tokens closes all. The program
-- counts in 32 bits; a text with so many parentheses that the count overflows is left out.
def closeTuple? (depth : Nat) : List Token → Option Nat
  | [] => none
  | .sign start byte :: rest =>
    if byte = Ascii.openParen then closeTuple? (depth + 1) rest
    else if byte = Ascii.closeParen then
      if depth ≤ 1 then some start else closeTuple? (depth - 1) rest
    else closeTuple? depth rest
  | _ :: rest => closeTuple? depth rest

-- A semicolon with anything significant behind it, another semicolon included.
def continuesPastSemicolon (tokens : List Token) : Bool :=
  match tokens.dropWhile (!Token.isSign Ascii.semicolon ·) with
  | [] => false
  | _ :: rest => rest.any Token.isSignificant

def mentions (keyword : Keyword) (tokens : List Token) : Bool :=
  tokens.any (·.keyword? == some keyword)

def ofTokens (tokens : List Token) (final : Context) : Classification :=
  let opened := openTuple? none tokens
  let tupleOpen := opened.map (·.1)
  let tupleClose := opened.bind fun found => closeTuple? 1 found.2
  let marks := Token.marks tokens
  let endsInsideLiteral := final.isQuoted || final == .blockComment
  { isInsert := (tokens.find? Token.isSignificant).bind Token.keyword? == some .insert
    tupleOpen
    tupleClose
    parameterBeforeTuple := marks.any fun mark => tupleOpen.all (mark < ·)
    parameterAfterTuple := marks.any fun mark => tupleClose.any (· < mark)
    hasSecondStatement := continuesPastSemicolon tokens
    mentionsSelect := mentions .select tokens
    mentionsLastInsertId := mentions .lastInsertId tokens
    endsInsideLiteral
    joinable := !tokens.any (Token.isSign Ascii.semicolon) &&
      !tokens.any Token.opensLineComment && !endsInsideLiteral }

-- The first reason in this order; none means that rows can be merged.
def blocker? (found : Classification) : Option Blocker :=
  if !found.isInsert then some .notInsert
  else if found.tupleOpen.isNone then some .noValuesClause
  else if found.tupleClose.isNone then some .unterminatedTuple
  else if found.parameterBeforeTuple then some .parameterBeforeTuple
  else if found.parameterAfterTuple then some .parameterAfterTuple
  else if found.hasSecondStatement then some .multipleStatements
  else if found.mentionsSelect then some .containsSelect
  else if found.mentionsLastInsertId then some .lastInsertId
  else if found.endsInsideLiteral then some .unterminatedLiteral
  else none

def isMergeable (found : Classification) : Bool := found.blocker?.isNone

-- The tuple from its opening parenthesis to just past its closing one.
def tupleSpan? (found : Classification) : Option (Nat × Nat) :=
  match found.tupleOpen, found.tupleClose with
  | some start, some close => some (start, close + 1)
  | _, _ => none

end Classification
end InsertBatch
