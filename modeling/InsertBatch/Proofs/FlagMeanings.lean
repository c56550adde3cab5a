import InsertBatch.Proofs.TupleBounds

namespace InsertBatch

namespace Lexeme
variable {rawBackslash : Bool} {position start stop : Nat} {lexeme : Lexeme} {sql : Bytes}

-- A byte that a step takes in plain text, neither a blank nor of a comment opener.
def SignificantAt (rawBackslash : Bool) (sql : Bytes) (position : Nat) : Prop :=
  ∃ lexeme ∈ ofText rawBackslash sql,
    lexeme.start ≤ position ∧ position < lexeme.start + lexeme.text.length ∧
    lexeme.before = .plain ∧ lexeme.after.isComment = false ∧
    ∃ byte, sql[position]? = some byte ∧ Ascii.isBlank byte = false

def FirstSignificant (rawBackslash : Bool) (sql : Bytes) (start : Nat) : Prop :=
  SignificantAt rawBackslash sql start ∧
    ∀ position, SignificantAt rawBackslash sql position → start ≤ position

-- A lexeme that begins plain, with its first byte.
theorem plain_parts (member : lexeme ∈ ofText rawBackslash sql) (plain : lexeme.before = .plain) :
    ∃ byte rest, sql[lexeme.start]? = some byte ∧
      lexeme.after = (Lexer.plainStep (byte :: rest)).after ∧
      lexeme.text = (byte :: rest).take (Lexer.plainStep (byte :: rest)).length := by
  obtain ⟨left, right, rfl, present, here, after, text⟩ := mem_parts member
  obtain ⟨byte, rest, rfl⟩ := List.exists_cons_of_ne_nil present
  rw [plain, Lexer.step] at after text
  refine ⟨byte, rest, ?_, after, text⟩
  rw [here, Nat.zero_add, List.getElem?_append_right (Nat.le_refl _), Nat.sub_self]
  rfl

theorem isContent_iff (member : lexeme ∈ ofText rawBackslash sql) :
    Script.isContent lexeme = true ↔ lexeme.before = .plain ∧ lexeme.after.isComment = false ∧
      ∃ byte, sql[lexeme.start]? = some byte ∧ Ascii.isBlank byte = false := by
  by_cases plain : lexeme.before = .plain
  · obtain ⟨byte, rest, found, after, text⟩ := plain_parts member plain
    simp only [plain, found, true_and, Option.some.injEq, exists_eq_left']
    by_cases stays : lexeme.after = .plain
    · have single : lexeme.plainByte? = some byte := by
        rw [stays] at after
        rw [plainByte?, if_pos ⟨plain, stays⟩, text, Lexer.plainStep_plain after.symm]
        rfl
      simp [Script.isContent, single, stays, Context.isComment]
    · -- Whatever leaves plain text but for a comment is a quote.
      have turns : lexeme.plainByte? = none := by
        rw [plainByte?, if_neg fun both => stays both.2]
      have unblank : Ascii.isBlank byte = false := by
        refine Bool.eq_false_iff.mpr fun blank => stays ?_
        rw [after, (Token.blank_inert blank).plainStep]
      simp only [Script.isContent, turns, opensQuoted, plain, unblank, and_true]
      cases found : lexeme.after with
      | plain => exact absurd found stays
      | _ => simp [Context.isPlain, Context.isQuoted, Context.isComment]
  · have turns : lexeme.plainByte? = none := by
      rw [plainByte?, if_neg fun both => plain both.1]
    simp only [plain, false_and, iff_false, Script.isContent, turns, opensQuoted]
    cases before : lexeme.before with
    | plain => exact absurd before plain
    | _ => simp [Context.isPlain]

-- The significant bytes are those that a script counts as content.
theorem significantAt_iff : SignificantAt rawBackslash sql position ↔
    ∃ lexeme ∈ ofText rawBackslash sql,
      Script.isContent lexeme = true ∧ lexeme.start = position := by
  constructor
  · rintro ⟨lexeme, member, lower, upper, plain, other, byte, found, unblank⟩
    obtain ⟨first, rest, _, after, text⟩ := plain_parts member plain
    rw [after] at other
    have single : lexeme.text.length = 1 := by
      rw [text, Lexer.plainStep_single other]
      rfl
    obtain rfl : position = lexeme.start := by omega
    refine ⟨lexeme, member, (isContent_iff member).mpr ⟨plain, ?_, byte, found, unblank⟩, rfl⟩
    rw [after]
    exact other
  · rintro ⟨lexeme, member, content, rfl⟩
    obtain ⟨plain, other, found⟩ := (isContent_iff member).mp content
    have filled := text_filled member
    exact ⟨lexeme, member, Nat.le_refl _, by omega, plain, other, found⟩

theorem opensLineComment_iff (lexeme : Lexeme) :
    lexeme.opensLineComment = true ↔ lexeme.before = .plain ∧ lexeme.after = .lineComment := by
  rw [opensLineComment, Bool.and_eq_true, beq_iff_eq]
  cases lexeme.before <;> simp [Context.isPlain]

-- A plain word with this spelling, in any letter case.
def SpelledAt (rawBackslash : Bool) (sql : Bytes) (spelling : String) (start : Nat) : Prop :=
  ∃ stop, WordAt (ofText rawBackslash sql) start stop ∧
    Token.spells [spelling] (sql.slice start stop)

theorem WordAt.significant (found : WordAt (ofText rawBackslash sql) start stop) :
    SignificantAt rawBackslash sql start := by
  obtain ⟨byte, ⟨lexeme, member, here, plain⟩, word⟩ :=
    found.words start (Nat.le_refl _) found.filled
  refine significantAt_iff.mpr ⟨lexeme, member, ?_, here⟩
  simp [Script.isContent, plain, Token.isBlank_of_isWord word]

end Lexeme

namespace Token
open Lexeme (SpelledAt WordBetween SignificantAt)
variable {rawBackslash : Bool} {sql left word right : Bytes} {start : Nat} {keyword : Keyword}
  {spelling : String}

theorem spelledAt_iff (named : keyword.names = [spelling]) :
    (∃ text, .word start text ∈ ofText rawBackslash sql ∧ Keyword.ofWord? text = some keyword) ↔
      SpelledAt rawBackslash sql spelling start := by
  constructor
  · rintro ⟨text, member, found⟩
    obtain ⟨place, same⟩ := (mem_word_iff rawBackslash sql start text).mp member
    refine ⟨_, place, ?_⟩
    rw [same, ← named]
    exact (ofWord?_iff text keyword).mp found
  · rintro ⟨stop, found, spelled⟩
    obtain ⟨left, word, right, rfl, rfl, rfl, between⟩ := found.between
    rw [Bytes.slice_middle, ← named] at spelled
    refine ⟨word, ?_, (ofWord?_iff word keyword).mpr spelled⟩
    rw [tokens_between between]
    simp

-- Nothing before a word is significant, seen as tokens and as places of the text.
theorem insignificant_iff (between : WordBetween rawBackslash left word right) :
    (ofText rawBackslash left).any isSignificant = false ↔
      ∀ position, SignificantAt rawBackslash (left ++ (word ++ right)) position →
        left.length ≤ position := by
  rw [ofText, any_isSignificant, Outline.content_any, List.any_eq_false]
  constructor
  · intro none position significant
    obtain ⟨lexeme, member, content, rfl⟩ := Lexeme.significantAt_iff.mp significant
    refine Nat.le_of_not_lt fun before => ?_
    exact none lexeme (Lexeme.mem_front between.split member before) content
  · intro behind lexeme member content
    have present : lexeme ∈ Lexeme.ofText rawBackslash (left ++ (word ++ right)) := by
      rw [between.split]
      exact List.mem_append_left _ member
    have late := behind _ (Lexeme.significantAt_iff.mpr ⟨lexeme, present, content, rfl⟩)
    have bounds := Lexeme.start_bounds member
    omega

end Token

namespace Classification
open Lexeme (SpelledAt SignificantAt FirstSignificant)
variable {rawBackslash : Bool} {sql : Bytes} {keyword : Keyword} {spelling : String}

theorem mentions_iff (named : keyword.names = [spelling]) :
    mentions keyword (Token.ofText rawBackslash sql) = true ↔
      ∃ start, SpelledAt rawBackslash sql spelling start := by
  rw [mentions, List.any_eq_true]
  constructor
  · rintro ⟨token, member, found⟩
    rw [beq_iff_eq] at found
    cases token with
    | word start text => exact ⟨start, (Token.spelledAt_iff named).mp ⟨text, member, found⟩⟩
    | _ => cases found
  · rintro ⟨start, mention⟩
    obtain ⟨text, member, found⟩ := (Token.spelledAt_iff named).mpr mention
    exact ⟨_, member, beq_iff_eq.mpr found⟩

theorem leads_iff (named : keyword.names = [spelling]) :
    ((Token.ofText rawBackslash sql).find? Token.isSignificant).bind Token.keyword? =
        some keyword ↔
      ∃ start, FirstSignificant rawBackslash sql start ∧
        SpelledAt rawBackslash sql spelling start := by
  rw [Option.bind_eq_some_iff]
  constructor
  · rintro ⟨token, first, found⟩
    obtain ⟨_, before, behind, made, skipped⟩ := List.find?_eq_some_iff_append.mp first
    cases token with
    | word start text =>
      obtain ⟨left, right, rfl, rfl, between, rfl, _⟩ := Token.between_of_word made
      refine ⟨left.length, ⟨between.wordAt.significant, (Token.insignificant_iff between).mp ?_⟩,
        (Token.spelledAt_iff named).mp ⟨text, ?_, found⟩⟩
      · exact List.any_eq_false.mpr fun token member => by simpa using skipped token member
      · rw [made]
        simp
    | _ => cases found
  · rintro ⟨start, ⟨_, first⟩, stop, place, spelled⟩
    obtain ⟨left, word, right, rfl, rfl, rfl, between⟩ := place.between
    rw [Bytes.slice_middle, ← named] at spelled
    refine ⟨.word left.length word, ?_, (Token.ofWord?_iff word keyword).mpr spelled⟩
    have missing : (Token.ofText rawBackslash left).find? Token.isSignificant = none :=
      List.find?_eq_none.mpr (List.any_eq_false.mp ((Token.insignificant_iff between).mpr first))
    rw [Token.tokens_between between, List.find?_append, missing]
    rfl

end Classification

theorem Outline.continues_iff (lexemes : List Lexeme) :
    (ofLexemes lexemes).continues = true ↔ ∃ front separator back,
      lexemes = front ++ separator :: back ∧ Script.isSeparator separator = true ∧
        back.any Script.isContent = true := by
  induction lexemes with
  | nil => simp [nothing]
  | cons lexeme rest ih =>
    simp only [ofLexemes_cons, andThen, ofLexeme, Bool.false_or, Bool.or_eq_true, Bool.and_eq_true,
      content_any, ih]
    constructor
    · rintro (⟨separates, content⟩ | ⟨front, separator, back, rfl, found⟩)
      · exact ⟨[], lexeme, rest, rfl, separates, content⟩
      · exact ⟨lexeme :: front, separator, back, rfl, found⟩
    · rintro ⟨front, separator, back, split, separates, content⟩
      cases front with
      | nil =>
        cases split
        exact .inl ⟨separates, content⟩
      | cons first front =>
        obtain ⟨rfl, tail⟩ := List.cons.inj split
        exact .inr ⟨front, separator, back, tail, separates, content⟩

namespace Statement
open Lexeme (SpelledAt SignificantAt FirstSignificant PlainAt)

-- What the flags of a classification say about the bytes of its text.
structure FlagMeanings (rawBackslash : Bool) (sql : Bytes) (marks : List Nat)
    (found : Classification) : Prop where
  isInsert : found.isInsert = true ↔ ∃ start, FirstSignificant rawBackslash sql start ∧
    SpelledAt rawBackslash sql "insert" start
  mentionsSelect : found.mentionsSelect = true ↔ ∃ start, SpelledAt rawBackslash sql "select" start
  mentionsLastInsertId : found.mentionsLastInsertId = true ↔
    ∃ start, SpelledAt rawBackslash sql "last_insert_id" start
  hasSecondStatement : found.hasSecondStatement = true ↔
    ∃ first later, PlainAt (Lexeme.ofText rawBackslash sql) first Ascii.semicolon ∧
      first < later ∧ SignificantAt rawBackslash sql later
  parameterBeforeTuple : found.parameterBeforeTuple = true ↔
    marks ≠ [] ∧ (found.tupleOpen = none ∨
      ∃ opens, found.tupleOpen = some opens ∧ ∃ mark ∈ marks, mark < opens)
  parameterAfterTuple : found.parameterAfterTuple = true ↔
    ∃ close, found.tupleClose = some close ∧ ∃ mark ∈ marks, close < mark
  endsInsideLiteral : found.endsInsideLiteral = true ↔
    (∃ quote, finalContext rawBackslash sql = .string quote ∨
        finalContext rawBackslash sql = .escape quote) ∨
      finalContext rawBackslash sql = .identifier ∨ finalContext rawBackslash sql = .blockComment
  joinable : found.joinable = true ↔
    (∀ position, ¬PlainAt (Lexeme.ofText rawBackslash sql) position Ascii.semicolon) ∧
      (∀ lexeme ∈ Lexeme.ofText rawBackslash sql,
        ¬(lexeme.before = .plain ∧ lexeme.after = .lineComment)) ∧
      found.endsInsideLiteral = false

theorem hasSecondStatement_iff (rawBackslash : Bool) (sql : Bytes) :
    (analyze rawBackslash sql).classification.hasSecondStatement = true ↔
      ∃ first later, PlainAt (Lexeme.ofText rawBackslash sql) first Ascii.semicolon ∧
        first < later ∧ SignificantAt rawBackslash sql later := by
  have increase := Lexeme.starts_increase rawBackslash .plain 0 sql
  rw [hasSecondStatement_outline, Outline.ofText, Outline.continues_iff]
  constructor
  · rintro ⟨front, separator, back, split, separates, content⟩
    obtain ⟨lexeme, member, content⟩ := List.any_eq_true.mp content
    rw [← Lexeme.ofText, split] at increase
    have order := (List.pairwise_cons.mp (List.pairwise_append.mp increase).2.1).1 lexeme member
    have present : separator ∈ Lexeme.ofText rawBackslash sql ∧
        lexeme ∈ Lexeme.ofText rawBackslash sql := by
      rw [split]
      simp [member]
    exact ⟨separator.start, lexeme.start, ⟨separator, present.1, rfl, beq_iff_eq.mp separates⟩,
      order, Lexeme.significantAt_iff.mpr ⟨lexeme, present.2, content, rfl⟩⟩
  · rintro ⟨_, later, ⟨separator, member, rfl, plain⟩, order, significant⟩
    obtain ⟨lexeme, found, content, rfl⟩ := Lexeme.significantAt_iff.mp significant
    obtain ⟨front, back, split⟩ := List.append_of_mem member
    rw [← Lexeme.ofText, split] at increase
    rw [split] at found
    exact ⟨front, separator, back, split, beq_iff_eq.mpr plain,
      List.any_eq_true.mpr ⟨lexeme, Lexeme.mem_behind increase found order, content⟩⟩

theorem parameterBeforeTuple_iff (rawBackslash : Bool) (sql : Bytes) :
    (analyze rawBackslash sql).classification.parameterBeforeTuple = true ↔
      (analyze rawBackslash sql).marks ≠ [] ∧
        ((analyze rawBackslash sql).classification.tupleOpen = none ∨
          ∃ opens, (analyze rawBackslash sql).classification.tupleOpen = some opens ∧
            ∃ mark ∈ (analyze rawBackslash sql).marks, mark < opens) := by
  rw [analyze_parameterBeforeTuple, List.any_eq_true]
  constructor
  · rintro ⟨mark, member, before⟩
    refine ⟨List.ne_nil_of_mem member, ?_⟩
    cases opened : (analyze rawBackslash sql).classification.tupleOpen with
    | none => exact .inl rfl
    | some opens => exact .inr ⟨opens, rfl, mark, member, by simpa [opened] using before⟩
  · rintro ⟨present, unopened | ⟨opens, opened, mark, member, before⟩⟩
    · obtain ⟨mark, member⟩ := List.exists_mem_of_ne_nil _ present
      exact ⟨mark, member, by rw [unopened]; rfl⟩
    · exact ⟨mark, member, by simpa [opened] using before⟩

theorem parameterAfterTuple_iff (rawBackslash : Bool) (sql : Bytes) :
    (analyze rawBackslash sql).classification.parameterAfterTuple = true ↔
      ∃ close, (analyze rawBackslash sql).classification.tupleClose = some close ∧
        ∃ mark ∈ (analyze rawBackslash sql).marks, close < mark := by
  rw [analyze_parameterAfterTuple, List.any_eq_true]
  cases (analyze rawBackslash sql).classification.tupleClose with
  | none => simp
  | some close => simp

theorem endsInsideLiteral_iff (rawBackslash : Bool) (sql : Bytes) :
    (analyze rawBackslash sql).classification.endsInsideLiteral = true ↔
      (∃ quote, finalContext rawBackslash sql = .string quote ∨
          finalContext rawBackslash sql = .escape quote) ∨
        finalContext rawBackslash sql = .identifier ∨
        finalContext rawBackslash sql = .blockComment := by
  rw [endsInsideLiteral_final]
  cases finalContext rawBackslash sql <;> simp [Context.isQuoted]

theorem joinable_iff (rawBackslash : Bool) (sql : Bytes) :
    (analyze rawBackslash sql).classification.joinable = true ↔
      (∀ position, ¬PlainAt (Lexeme.ofText rawBackslash sql) position Ascii.semicolon) ∧
        (∀ lexeme ∈ Lexeme.ofText rawBackslash sql,
          ¬(lexeme.before = .plain ∧ lexeme.after = .lineComment)) ∧
        (analyze rawBackslash sql).classification.endsInsideLiteral = false := by
  have whole : (Outline.ofText rawBackslash sql).separates = false ↔
      ∀ position, ¬PlainAt (Lexeme.ofText rawBackslash sql) position Ascii.semicolon :=
    Lexeme.unseparated_iff _
  have uncommented : (Outline.ofText rawBackslash sql).comments = false ↔
      ∀ lexeme ∈ Lexeme.ofText rawBackslash sql,
        ¬(lexeme.before = .plain ∧ lexeme.after = .lineComment) := by
    rw [Outline.ofText, Outline.comments_any, List.any_eq_false]
    simp only [Lexeme.opensLineComment_iff]
  rw [joinable_outline, ← whole, ← uncommented]
  simp only [Bool.and_eq_true, Bool.not_eq_true', and_assoc]

-- Each flag says of the text what it is named for.
theorem flags_mean (rawBackslash : Bool) (sql : Bytes) :
    FlagMeanings rawBackslash sql (analyze rawBackslash sql).marks
      (analyze rawBackslash sql).classification where
  isInsert := beq_iff_eq.trans (Classification.leads_iff rfl)
  mentionsSelect := Classification.mentions_iff rfl
  mentionsLastInsertId := Classification.mentions_iff rfl
  hasSecondStatement := hasSecondStatement_iff rawBackslash sql
  parameterBeforeTuple := parameterBeforeTuple_iff rawBackslash sql
  parameterAfterTuple := parameterAfterTuple_iff rawBackslash sql
  endsInsideLiteral := endsInsideLiteral_iff rawBackslash sql
  joinable := joinable_iff rawBackslash sql

end Statement
end InsertBatch
