import InsertBatch.Bytes

namespace InsertBatch

inductive Quote where
  | single
  | double
deriving DecidableEq, Repr

def Quote.byte : Quote → UInt8
  | .single => Ascii.singleQuote
  | .double => Ascii.doubleQuote

-- What a byte of SQL text stands in. Exactly one context is active at a time.
-- `escape` follows a backslash in a string and covers one byte.
inductive Context where
  | plain
  | string (quote : Quote)
  | identifier
  | lineComment
  | blockComment
  | escape (quote : Quote)
deriving DecidableEq, Repr

namespace Context

def isPlain : Context → Bool
  | .plain => true
  | _ => false

def isComment : Context → Bool
  | .lineComment | .blockComment => true
  | _ => false

-- Strings, quoted identifiers and pending escapes.
def isQuoted : Context → Bool
  | .string _ | .identifier | .escape _ => true
  | _ => false

end Context

namespace Lexer

-- The context after a step and the number of bytes it took.
structure Step where
  after : Context
  length : Nat
deriving DecidableEq, Repr

def Step.advance (step : Step) : Step := { step with length := step.length + 1 }

-- Just past the first byte equal to `stop`.
def past? (stop : UInt8) : Bytes → Option Nat
  | [] => none
  | b :: rest => if b = stop then some 1 else (past? stop rest).map (· + 1)

-- Just past the first star that a slash follows.
def pastBlockEnd? : Bytes → Option Nat
  | [] => none
  | b :: rest =>
    if b = Ascii.star ∧ rest.head? = some Ascii.slash then some 2
    else (pastBlockEnd? rest).map (· + 1)

-- A body either ends where its closer was found or takes all that is left.
def close (context : Context) (rest : Bytes) : Option Nat → Step
  | some length => ⟨.plain, length⟩
  | none => ⟨context, rest.length⟩

-- Comment openers of two bytes are taken whole; every other plain byte alone.
def plainStep : Bytes → Step
  | [] => ⟨.plain, 1⟩
  | b :: rest =>
    if b = Ascii.singleQuote then ⟨.string .single, 1⟩
    else if b = Ascii.doubleQuote then ⟨.string .double, 1⟩
    else if b = Ascii.backtick then ⟨.identifier, 1⟩
    else if b = Ascii.hash then ⟨.lineComment, 1⟩
    else if b = Ascii.dash ∧ rest.head? = some Ascii.dash then ⟨.lineComment, 2⟩
    else if b = Ascii.slash ∧ rest.head? = some Ascii.star then ⟨.blockComment, 2⟩
    else ⟨.plain, 1⟩

-- Up to the closing quote, or to a backslash unless backslashes are ordinary.
def stringStep (rawBackslash : Bool) (quote : Quote) : Bytes → Step
  | [] => ⟨.string quote, 0⟩
  | b :: rest =>
    if b = quote.byte then ⟨.plain, 1⟩
    else if b = Ascii.backslash ∧ rawBackslash = false then ⟨.escape quote, 1⟩
    else (stringStep rawBackslash quote rest).advance

-- One step at the front of `rest`, which is not empty. A body is taken in one
-- step up to and including the bytes that change its context.
def step (rawBackslash : Bool) (context : Context) (rest : Bytes) : Step :=
  match context with
  | .plain => plainStep rest
  | .string quote => stringStep rawBackslash quote rest
  | .escape quote => ⟨.string quote, 1⟩
  | .identifier => close .identifier rest (past? Ascii.backtick rest)
  | .lineComment => close .lineComment rest (past? Ascii.newline rest)
  | .blockComment => close .blockComment rest (pastBlockEnd? rest)

theorem past?_pos (found : past? stop rest = some length) : 0 < length := by
  cases rest with
  | nil => simp [past?] at found
  | cons b rest =>
    simp only [past?] at found
    split at found
    · cases found; exact Nat.one_pos
    · obtain ⟨_, _, rfl⟩ := Option.map_eq_some_iff.mp found
      exact Nat.succ_pos _

theorem pastBlockEnd?_pos (found : pastBlockEnd? rest = some length) : 0 < length := by
  cases rest with
  | nil => simp [pastBlockEnd?] at found
  | cons b rest =>
    simp only [pastBlockEnd?] at found
    split at found
    · cases found; exact Nat.two_pos
    · obtain ⟨_, _, rfl⟩ := Option.map_eq_some_iff.mp found
      exact Nat.succ_pos _

theorem close_length_pos (present : rest ≠ [])
    (positive : ∀ length, found = some length → 0 < length) :
    0 < (close context rest found).length := by
  cases found with
  | none => exact List.length_pos_iff.mpr present
  | some length => exact positive length rfl

-- Every step makes progress, so a run over finite text ends.
theorem step_length_pos (rawBackslash : Bool) (context : Context) (present : rest ≠ []) :
    0 < (step rawBackslash context rest).length := by
  cases context with
  | plain =>
    cases rest with
    | nil => exact absurd rfl present
    | cons b rest => simp only [step, plainStep]; repeat' split
                     all_goals decide
  | string quote =>
    cases rest with
    | nil => exact absurd rfl present
    | cons b rest =>
      simp only [step, stringStep]
      repeat' split
      · exact Nat.one_pos
      · exact Nat.one_pos
      · exact Nat.succ_pos _
  | escape quote => exact Nat.one_pos
  | identifier => exact close_length_pos present fun _ => past?_pos
  | lineComment => exact close_length_pos present fun _ => past?_pos
  | blockComment => exact close_length_pos present fun _ => pastBlockEnd?_pos

end Lexer
end InsertBatch
