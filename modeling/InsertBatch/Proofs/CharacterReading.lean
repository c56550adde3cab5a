import InsertBatch.Proofs.LexemeRuns

namespace InsertBatch

-- What a reader tells of a text: which of its bytes are plain text, and the context at its end.
structure Reading where
  plain : List Nat
  final : Context
deriving DecidableEq, Repr

namespace Reading

-- Puts in front what was read from `offset` on between two contexts. It is plain text only
-- when both are.
def after (before next : Context) (offset length : Nat) (rest : Reading) : Reading where
  plain := if before = .plain ∧ next = .plain then List.range' offset length ++ rest.plain
    else rest.plain
  final := rest.final

@[simp] theorem after_inside (inside : before ≠ .plain) (offset length : Nat) (rest : Reading) :
    after before next offset length rest = rest := by
  rw [after, if_neg fun both => inside both.1]

-- The context behind one character.
def turn (rawBackslash : Bool) : Context → Char → Context
  | .plain, c =>
    if c = '\'' then .string .single
    else if c = '"' then .string .double
    else if c = '\x60' then .identifier
    else if c = '#' then .lineComment
    else .plain
  | .string quote, c =>
    if c = Char.ofUInt8 quote.byte then .plain
    else if c = '\\' ∧ rawBackslash = false then .escape quote
    else .string quote
  | .escape quote, _ => .string quote
  | .identifier, c => if c = '\x60' then .plain else .identifier
  | .lineComment, c => if c = '\n' then .plain else .lineComment
  | .blockComment, _ => .blockComment

-- Reads one character at a time, but the two characters that open or close a comment at
-- once. No body is searched for its end.
def ofChars (rawBackslash : Bool) : Context → Nat → List Char → Reading
  | context, _, [] => ⟨[], context⟩
  | .plain, offset, '-' :: '-' :: rest => ofChars rawBackslash .lineComment (offset + 2) rest
  | .plain, offset, '/' :: '*' :: rest => ofChars rawBackslash .blockComment (offset + 2) rest
  | .blockComment, offset, '*' :: '/' :: rest => ofChars rawBackslash .plain (offset + 2) rest
  | context, offset, c :: rest =>
    (ofChars rawBackslash (turn rawBackslash context c) (offset + c.utf8Size) rest).after
      context (turn rawBackslash context c) offset c.utf8Size

end Reading

namespace Lexeme

-- The bytes that a step takes which starts and ends in plain text.
def ownOffsets (lexeme : Lexeme) : List Nat :=
  if lexeme.before = .plain ∧ lexeme.after = .plain then
    List.range' lexeme.start lexeme.text.length
  else []

def plainOffsets (lexemes : List Lexeme) : List Nat := lexemes.flatMap ownOffsets

end Lexeme

namespace Reading
variable {rawBackslash : Bool} {context next : Context} {offset : Nat} {bytes first rest : Bytes}

def ofSteps (rawBackslash : Bool) (context : Context) (offset : Nat) (bytes : Bytes) : Reading where
  plain := Lexeme.plainOffsets (Lexeme.ofTextFrom rawBackslash context offset bytes)
  final := Lexeme.endContext context (Lexeme.ofTextFrom rawBackslash context offset bytes)

theorem ofUInt8_val (byte : UInt8) : (Char.ofUInt8 byte).val.toNat = byte.toNat :=
  UInt8.toNat_toUInt32 byte

theorem ofUInt8_inj (byte other : UInt8) :
    Char.ofUInt8 byte = Char.ofUInt8 other ↔ byte = other := by
  constructor
  · intro same
    have values := congrArg (fun c : Char => c.val.toNat) same
    simp only [ofUInt8_val] at values
    exact UInt8.toNat_inj.mp values
  · exact congrArg _

theorem turn_plain (byte : UInt8) : turn rawBackslash .plain (Char.ofUInt8 byte) =
    if byte = Ascii.singleQuote then .string .single
    else if byte = Ascii.doubleQuote then .string .double
    else if byte = Ascii.backtick then .identifier
    else if byte = Ascii.hash then .lineComment
    else .plain := by
  simp only [← ofUInt8_inj byte]
  rfl

theorem turn_string (quote : Quote) (byte : UInt8) :
    turn rawBackslash (.string quote) (Char.ofUInt8 byte) =
      if byte = quote.byte then .plain
      else if byte = Ascii.backslash ∧ rawBackslash = false then .escape quote
      else .string quote := by
  simp only [← ofUInt8_inj byte]
  rfl

theorem turn_identifier (byte : UInt8) : turn rawBackslash .identifier (Char.ofUInt8 byte) =
    if byte = Ascii.backtick then .plain else .identifier := by
  simp only [← ofUInt8_inj byte]
  rfl

theorem turn_lineComment (byte : UInt8) : turn rawBackslash .lineComment (Char.ofUInt8 byte) =
    if byte = Ascii.newline then .plain else .lineComment := by
  simp only [← ofUInt8_inj byte]
  rfl

-- Characters beyond ASCII, and their bytes, change a context only where one of them is escaped.
theorem turn_high (high : 128 ≤ c.val.toNat) (unescaped : ∀ quote, context ≠ .escape quote) :
    turn rawBackslash context c = context := by
  have other : ∀ d : Char, d.val.toNat < 128 → c ≠ d := by
    rintro d low rfl
    omega
  cases context with
  | plain => simp [turn, other]
  | string quote =>
    have quoted : c ≠ Char.ofUInt8 quote.byte := by
      cases quote <;> exact other _ (by decide)
    simp [turn, quoted, other]
  | escape quote => exact absurd rfl (unescaped quote)
  | identifier => simp [turn, other]
  | lineComment => simp [turn, other]
  | blockComment => rfl

theorem encoded_cases (c : Char) :
    (∃ byte : UInt8, byte < 0x80 ∧ c = Char.ofUInt8 byte ∧ String.utf8EncodeChar c = [byte]) ∨
      128 ≤ c.val.toNat ∧ ∀ byte ∈ String.utf8EncodeChar c, 0x80 ≤ byte := by
  have limit : (0x80 : UInt8).toNat = 128 := rfl
  by_cases low : c.val.toNat ≤ 127
  · have size : c.utf8Size = 1 := Char.utf8Size_eq_one_iff.mpr low
    have value : c.val.toUInt8.toNat = c.val.toNat := by
      rw [UInt32.toNat_toUInt8]
      omega
    refine .inl ⟨c.val.toUInt8, ?_, ?_, String.utf8EncodeChar_eq_singleton size⟩
    · rw [UInt8.lt_iff_toNat_lt]
      omega
    · refine Char.ext (UInt32.toNat_inj.mp ?_)
      rw [ofUInt8_val, value]
  · refine .inr ⟨by omega, ?_⟩
    simp only [String.utf8EncodeChar, if_neg low, UInt8.le_iff_toNat_le, limit]
    repeat' split
    all_goals
      simp only [List.forall_mem_cons, List.not_mem_nil, false_implies, implies_true, and_true,
        UInt8.toNat_ofNat']
      omega

theorem ofSteps_first (first rest : Bytes) (present : first ≠ [])
    (taken : (Lexer.step rawBackslash context (first ++ rest)).length = first.length)
    (offset : Nat) : ofSteps rawBackslash context offset (first ++ rest) =
      (ofSteps rawBackslash (Lexer.step rawBackslash context (first ++ rest)).after
        (offset + first.length) rest).after context
          (Lexer.step rawBackslash context (first ++ rest)).after offset first.length := by
  rw [ofSteps, Lexeme.ofTextFrom_first present taken]
  simp only [ofSteps, after, Lexeme.plainOffsets, Lexeme.ownOffsets, List.flatMap_cons,
    Lexeme.endContext_cons, Reading.mk.injEq, and_true]
  split <;> simp

-- A byte that a body takes in passing may be read alone.
theorem ofSteps_skip (inside : context ≠ .plain)
    (passes : Lexer.step rawBackslash context (byte :: rest) =
      (Lexer.step rawBackslash context rest).advance)
    (idle : (Lexer.step rawBackslash context []) = ⟨context, 0⟩) (offset : Nat) :
    ofSteps rawBackslash context offset (byte :: rest) =
      ofSteps rawBackslash context (offset + 1) rest := by
  by_cases more : rest = []
  · subst more
    rw [idle] at passes
    have single := ofSteps_first [byte] [] (by simp) (congrArg Lexer.Step.length passes) offset
    rw [List.append_nil, passes, after_inside inside] at single
    exact single
  · obtain ⟨first, later, rfl, present, taken⟩ := Lexeme.step_cut rawBackslash context more
    have long : (Lexer.step rawBackslash context (byte :: first ++ later)).length =
        (byte :: first).length := by
      rw [List.cons_append, passes, Lexer.Step.advance, taken]
      rfl
    rw [← List.cons_append, ofSteps_first _ _ (by simp) long, ofSteps_first _ _ present taken,
      after_inside inside, after_inside inside, List.cons_append, passes, List.length_cons,
      Nat.add_assoc, Nat.add_comm 1]
    rfl

-- A body that ends with one byte either ends here or takes the byte along.
theorem close_past? (stop byte : UInt8) (context : Context) (rest : Bytes) :
    Lexer.close context (byte :: rest) (Lexer.past? stop (byte :: rest)) =
      if byte = stop then ⟨.plain, 1⟩
      else (Lexer.close context rest (Lexer.past? stop rest)).advance := by
  rw [Lexer.past?]
  split
  · rfl
  · cases Lexer.past? stop rest <;> rfl

-- The byte is not the first of two that open or close a comment.
def Alone (context : Context) (byte : UInt8) (rest : Bytes) : Prop :=
  (context = .plain → ¬(byte = Ascii.dash ∧ rest.head? = some Ascii.dash) ∧
    ¬(byte = Ascii.slash ∧ rest.head? = some Ascii.star)) ∧
    (context = .blockComment → ¬(byte = Ascii.star ∧ rest.head? = some Ascii.slash))

-- What a step does with its first byte is what the byte alone does.
theorem step_byte (rawBackslash : Bool) (alone : Alone context byte rest) :
    Lexer.step rawBackslash context (byte :: rest) =
        ⟨turn rawBackslash context (Char.ofUInt8 byte), 1⟩ ∨
      context ≠ .plain ∧ turn rawBackslash context (Char.ofUInt8 byte) = context ∧
        Lexer.step rawBackslash context (byte :: rest) =
          (Lexer.step rawBackslash context rest).advance ∧
        Lexer.step rawBackslash context [] = ⟨context, 0⟩ := by
  cases context with
  | plain =>
    obtain ⟨dashes, slashes⟩ := alone.1 rfl
    left
    rw [turn_plain]
    simp only [Lexer.step, Lexer.plainStep, if_neg dashes, if_neg slashes]
    repeat' split
    all_goals rfl
  | string quote =>
    rw [turn_string]
    simp only [Lexer.step, Lexer.stringStep]
    by_cases ends : byte = quote.byte
    · simp only [if_pos ends, true_or]
    · by_cases escapes : byte = Ascii.backslash ∧ rawBackslash = false
      · simp only [if_neg ends, if_pos escapes, true_or]
      · simp [if_neg ends, if_neg escapes]
  | escape quote => exact .inl rfl
  | identifier =>
    rw [turn_identifier, Lexer.step, close_past?]
    by_cases ends : byte = Ascii.backtick
    · simp only [if_pos ends, true_or]
    · rw [if_neg ends, if_neg ends]
      exact .inr ⟨by simp, rfl, rfl, rfl⟩
  | lineComment =>
    rw [turn_lineComment, Lexer.step, close_past?]
    by_cases ends : byte = Ascii.newline
    · simp only [if_pos ends, true_or]
    · rw [if_neg ends, if_neg ends]
      exact .inr ⟨by simp, rfl, rfl, rfl⟩
  | blockComment =>
    refine .inr ⟨by simp, rfl, ?_, rfl⟩
    simp only [Lexer.step, Lexer.pastBlockEnd?, if_neg (alone.2 rfl)]
    cases Lexer.pastBlockEnd? rest <;> rfl

theorem ofSteps_byte (alone : Alone context byte rest) (offset : Nat) :
    ofSteps rawBackslash context offset (byte :: rest) =
      (ofSteps rawBackslash (turn rawBackslash context (Char.ofUInt8 byte)) (offset + 1) rest).after
        context (turn rawBackslash context (Char.ofUInt8 byte)) offset 1 := by
  rcases step_byte rawBackslash alone with single | ⟨inside, same, passes, idle⟩
  · have first := ofSteps_first [byte] rest (by simp) (congrArg Lexer.Step.length single) offset
    rw [List.singleton_append, single] at first
    exact first
  · rw [same, after_inside inside, ofSteps_skip inside passes idle]

theorem high_alone (high : 0x80 ≤ byte) (context : Context) (rest : Bytes) :
    Alone context byte rest := by
  have other : ∀ ascii : UInt8, ascii < 0x80 → byte ≠ ascii := by
    rintro ascii low rfl
    exact absurd high (UInt8.not_le.mpr low)
  refine ⟨fun _ => ⟨fun both => other _ ?_ both.1, fun both => other _ ?_ both.1⟩,
    fun _ both => other _ ?_ both.1⟩ <;> decide

theorem ofSteps_high (high : ∀ byte ∈ bytes, 0x80 ≤ byte)
    (unescaped : ∀ quote, context ≠ .escape quote) (offset : Nat) (rest : Bytes) :
    ofSteps rawBackslash context offset (bytes ++ rest) =
      (ofSteps rawBackslash context (offset + bytes.length) rest).after context context offset
        bytes.length := by
  induction bytes generalizing offset with
  | nil => simp [after]
  | cons byte bytes ih =>
    obtain ⟨first, high⟩ := List.forall_mem_cons.mp high
    have value : 128 ≤ (Char.ofUInt8 byte).val.toNat := UInt8.le_iff_toNat_le.mp first
    rw [List.cons_append, ofSteps_byte (high_alone first _ _), turn_high value unescaped, ih high,
      List.length_cons, Nat.add_assoc, Nat.add_comm 1]
    by_cases plain : context = .plain
    · simp [after, plain, List.range'_succ]
    · simp [plain]

theorem ofSteps_character
    (alone : ∀ byte more, String.utf8EncodeChar c = byte :: more → more = [] →
      Alone context byte rest) (offset : Nat) :
    ofSteps rawBackslash context offset (String.utf8EncodeChar c ++ rest) =
      (ofSteps rawBackslash (turn rawBackslash context c) (offset + c.utf8Size) rest).after
        context (turn rawBackslash context c) offset c.utf8Size := by
  rw [← String.length_utf8EncodeChar]
  rcases encoded_cases c with ⟨byte, low, rfl, encoded⟩ | ⟨value, high⟩
  · rw [encoded]
    exact ofSteps_byte (alone _ _ encoded rfl) offset
  · by_cases escaped : ∃ quote, context = .escape quote
    · obtain ⟨quote, rfl⟩ := escaped
      -- The escape covers the first byte, and the string takes the others.
      obtain ⟨byte, more, encoded⟩ :=
        List.exists_cons_of_ne_nil (String.utf8EncodeChar_ne_nil (c := c))
      rw [encoded] at high ⊢
      obtain ⟨first, later⟩ := List.forall_mem_cons.mp high
      rw [List.cons_append, ofSteps_byte (high_alone first _ _), turn, turn,
        ofSteps_high later (by simp)]
      simp [Nat.add_assoc, Nat.add_comm 1]
    · have unescaped : ∀ quote, context ≠ .escape quote := fun quote same => escaped ⟨quote, same⟩
      rw [turn_high value unescaped]
      exact ofSteps_high high unescaped offset rest

theorem head_encoded (ascii : byte < 0x80) {chars : List Char}
    (found : (chars.flatMap String.utf8EncodeChar).head? = some byte) :
    ∃ more, chars = Char.ofUInt8 byte :: more := by
  cases chars with
  | nil => cases found
  | cons c more =>
    refine ⟨more, ?_⟩
    rcases encoded_cases c with ⟨other, _, rfl, encoded⟩ | ⟨_, high⟩
    · simp only [List.flatMap_cons, encoded, List.singleton_append, List.head?_cons,
        Option.some.injEq] at found
      rw [found]
    · obtain ⟨other, rest, encoded⟩ :=
        List.exists_cons_of_ne_nil (String.utf8EncodeChar_ne_nil (c := c))
      simp only [List.flatMap_cons, encoded, List.cons_append, List.head?_cons,
        Option.some.injEq] at found
      have beyond := high other (by simp [encoded])
      rw [found] at beyond
      exact absurd beyond (UInt8.not_le.mpr ascii)

theorem alone_encoded {chars : List Char} (byte : UInt8)
    (dashes : ∀ rest, context = .plain → Char.ofUInt8 byte = '-' → chars = '-' :: rest → False)
    (slashes : ∀ rest, context = .plain → Char.ofUInt8 byte = '/' → chars = '*' :: rest → False)
    (stars : ∀ rest,
      context = .blockComment → Char.ofUInt8 byte = '*' → chars = '/' :: rest → False) :
    Alone context byte (chars.flatMap String.utf8EncodeChar) := by
  refine ⟨fun plain => ⟨?_, ?_⟩, fun inside => ?_⟩
  · rintro ⟨rfl, second⟩
    obtain ⟨more, split⟩ := head_encoded (by decide) second
    exact dashes more plain rfl split
  · rintro ⟨rfl, second⟩
    obtain ⟨more, split⟩ := head_encoded (by decide) second
    exact slashes more plain rfl split
  · rintro ⟨rfl, second⟩
    obtain ⟨more, split⟩ := head_encoded (by decide) second
    exact stars more inside rfl split

-- Two characters that open or close a comment are taken by one step.
theorem ofSteps_pair (first second : UInt8) (rest : Bytes)
    (pair : Lexer.step rawBackslash context (first :: second :: rest) = ⟨next, 2⟩)
    (turns : ¬(context = .plain ∧ next = .plain)) (offset : Nat) :
    ofSteps rawBackslash context offset (first :: second :: rest) =
      ofSteps rawBackslash next (offset + 2) rest := by
  have both := ofSteps_first [first, second] rest (by simp)
    (congrArg Lexer.Step.length pair) offset
  simp only [List.cons_append, List.nil_append, pair] at both
  rw [both, after, if_neg turns]
  rfl

theorem ofChars_steps (rawBackslash : Bool) (context : Context) (offset : Nat)
    (chars : List Char) : ofChars rawBackslash context offset chars =
      ofSteps rawBackslash context offset (chars.flatMap String.utf8EncodeChar) := by
  fun_induction ofChars rawBackslash context offset chars with
  | case1 context offset => simp [ofSteps, Lexeme.plainOffsets]
  | case2 offset rest ih =>
    rw [ih]
    exact (ofSteps_pair Ascii.dash Ascii.dash _ rfl (by simp) offset).symm
  | case3 offset rest ih =>
    rw [ih]
    exact (ofSteps_pair Ascii.slash Ascii.star _ rfl (by simp) offset).symm
  | case4 offset rest ih =>
    rw [ih]
    exact (ofSteps_pair Ascii.star Ascii.slash _ rfl (by simp) offset).symm
  | case5 context offset c rest dashes slashes stars ih =>
    rw [List.flatMap_cons, ofSteps_character, ih]
    rintro byte _ encoded rfl
    rcases encoded_cases c with ⟨other, _, rfl, same⟩ | ⟨_, high⟩
    · rw [same, List.cons.injEq] at encoded
      obtain ⟨rfl, _⟩ := encoded
      exact alone_encoded other dashes slashes stars
    · exact high_alone (high byte (by simp [encoded])) context _

end Reading

theorem Bytes.ofString_chars (text : String) :
    Bytes.ofString text = text.toList.flatMap String.utf8EncodeChar := by
  have whole := String.toByteArray_ofList (l := text.toList)
  rw [String.ofList_toList] at whole
  rw [Bytes.ofString, String.toUTF8_eq_toByteArray, whole]
  simp [List.utf8Encode]

-- Taking whole bodies in one step and one byte behind a backslash reads a text just as a
-- reader does that takes one character at a time.
theorem reading_exact (rawBackslash : Bool) (text : String) :
    finalContext rawBackslash (Bytes.ofString text) =
        (Reading.ofChars rawBackslash .plain 0 text.toList).final ∧
      Lexeme.plainOffsets (Lexeme.ofText rawBackslash (Bytes.ofString text)) =
        (Reading.ofChars rawBackslash .plain 0 text.toList).plain := by
  rw [Reading.ofChars_steps, ← Bytes.ofString_chars]
  exact ⟨rfl, rfl⟩

-- The escape covers both bytes of its character, and the comment is not closed by the star
-- that opened it.
example : Reading.ofChars false .plain 0 "é'\\é'-/*/".toList = ⟨[0, 1, 7], .blockComment⟩ := by
  decide +kernel

end InsertBatch
