import InsertBatch.Lexer

namespace InsertBatch

-- One lexer step over a text: where it started, the contexts around it and the
-- bytes it took.
structure Lexeme where
  start : Nat
  before : Context
  after : Context
  text : Bytes
deriving DecidableEq, Repr

namespace Lexeme

-- The steps that take `rest` from `context` to its end, in order. Their texts
-- concatenate to `rest`.
def ofTextFrom (rawBackslash : Bool) (context : Context) (start : Nat) (rest : Bytes) :
    List Lexeme :=
  if rest = [] then []
  else
    let step := Lexer.step rawBackslash context rest
    ⟨start, context, step.after, rest.take step.length⟩ ::
      ofTextFrom rawBackslash step.after (start + step.length) (rest.drop step.length)
termination_by rest.length
decreasing_by
  rename_i present
  have progress := Lexer.step_length_pos rawBackslash context present
  have nonempty := List.length_pos_iff.mpr present
  simp only [List.length_drop]
  omega

def ofText (rawBackslash : Bool) (text : Bytes) : List Lexeme :=
  ofTextFrom rawBackslash .plain 0 text

def endContext (context : Context) (lexemes : List Lexeme) : Context :=
  lexemes.foldl (fun _ lexeme => lexeme.after) context

-- The byte of a step that starts and ends in plain text.
def plainByte? (lexeme : Lexeme) : Option UInt8 :=
  if lexeme.before = .plain ∧ lexeme.after = .plain then lexeme.text.head? else none

-- An opening quote or backtick.
def opensQuoted (lexeme : Lexeme) : Bool := lexeme.before.isPlain && lexeme.after.isQuoted

def opensLineComment (lexeme : Lexeme) : Bool :=
  lexeme.before.isPlain && lexeme.after == .lineComment

def closesComment (lexeme : Lexeme) : Bool := lexeme.before.isComment && lexeme.after.isPlain

end Lexeme

-- The context in which a text that starts plain ends.
def finalContext (rawBackslash : Bool) (text : Bytes) : Context :=
  Lexeme.endContext .plain (Lexeme.ofText rawBackslash text)

end InsertBatch
