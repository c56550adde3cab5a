import InsertBatch.Proofs.Places
import InsertBatch.Proofs.ValuesClause

namespace InsertBatch

theorem Bytes.slice_middle (left middle right : Bytes) :
    (left ++ (middle ++ right)).slice left.length (left.length + middle.length) = middle := by
  rw [Bytes.slice, List.take_length_add_append, List.take_left, List.drop_left]

theorem Bytes.getElem?_behind (left middle right : Bytes) (index : Nat) :
    (left ++ (middle ++ right))[left.length + middle.length + index]? = right[index]? := by
  rw [← List.append_assoc, ← List.length_append, List.getElem?_append_right (Nat.le_add_right _ _),
    Nat.add_sub_cancel_left]

theorem Lexer.Inert.of_test (test : UInt8 → Bool)
    (refused : [Ascii.singleQuote, Ascii.doubleQuote, Ascii.backtick, Ascii.hash, Ascii.dash,
      Ascii.slash, Ascii.star].any test = false) (passes : test byte = true) : Inert byte := by
  intro member
  rw [List.any_eq_false] at refused
  exact refused byte member passes

-- The front of some bytes of which each passes a test.
theorem Bytes.split_all {bytes : Bytes} {count : Nat} {test : UInt8 → Bool}
    (passes : ∀ index, index < count → ∃ byte, bytes[index]? = some byte ∧ test byte = true) :
    ∃ front rest, bytes = front ++ rest ∧ front.length = count ∧
      ∀ byte ∈ front, test byte = true := by
  have long : count ≤ bytes.length := by
    by_cases none : count = 0
    · omega
    · obtain ⟨byte, last, _⟩ := passes (count - 1) (by omega)
      have bound := (List.getElem?_eq_some_iff.mp last).1
      omega
  refine ⟨bytes.take count, bytes.drop count, (List.take_append_drop _ _).symm,
    List.length_take_of_le long, ?_⟩
  intro byte member
  obtain ⟨index, bound, rfl⟩ := List.getElem_of_mem member
  rw [List.length_take] at bound
  obtain ⟨other, here, pass⟩ := passes index (by omega)
  rw [List.getElem?_eq_getElem (by omega), Option.some.injEq] at here
  rw [List.getElem_take, here]
  exact pass

namespace Lexeme
variable {rawBackslash : Bool} {start : Nat} {lexeme : Lexeme} {front back : List Lexeme}
  {word : Bytes}

def isWordByte (lexeme : Lexeme) : Bool := lexeme.plainByte?.any Ascii.isWord

def startsWord (lexemes : List Lexeme) : Bool := lexemes.head?.any isWordByte

def endsWord (lexemes : List Lexeme) : Bool := lexemes.getLast?.any isWordByte

def plainText (lexemes : List Lexeme) : Bytes := lexemes.filterMap plainByte?

theorem isWordByte_parts (word : lexeme.isWordByte = true) :
    ∃ byte, lexeme.plainByte? = some byte ∧ Ascii.isWord byte = true := by
  unfold isWordByte at word
  cases plain : lexeme.plainByte? with
  | none => simp [plain] at word
  | some byte => exact ⟨byte, rfl, by simpa [plain] using word⟩

theorem endsWord_append (front : List Lexeme) (present : back ≠ []) :
    endsWord (front ++ back) = endsWord back := by
  rw [endsWord, endsWord, List.getLast?_append, List.getLast?_eq_some_getLast present,
    Option.some_or]

theorem endsWord_of_words (present : front ≠ [])
    (words : ∀ lexeme ∈ front, lexeme.isWordByte = true) : endsWord front = true := by
  rw [endsWord, List.getLast?_eq_some_getLast present]
  exact words _ (List.getLast_mem present)

theorem word_inert (word : Ascii.isWord byte = true) : Lexer.Inert byte :=
  .of_test Ascii.isWord (by decide) word

-- Word bytes are taken one by one and leave plain text plain.
theorem ofTextFrom_word (rawBackslash : Bool) (words : ∀ byte ∈ word, Ascii.isWord byte = true)
    (start : Nat) :
    endContext .plain (ofTextFrom rawBackslash .plain start word) = .plain ∧
      (∀ lexeme ∈ ofTextFrom rawBackslash .plain start word, lexeme.isWordByte = true) ∧
      plainText (ofTextFrom rawBackslash .plain start word) = word := by
  induction word generalizing start with
  | nil => simp [plainText]
  | cons byte word ih =>
    obtain ⟨first, words⟩ := List.forall_mem_cons.mp words
    obtain ⟨ends, all, text⟩ := ih words (start + 1)
    rw [ofTextFrom_inert (word_inert first)]
    refine ⟨ends, List.forall_mem_cons.mpr ⟨first, all⟩, ?_⟩
    exact congrArg (byte :: ·) text

theorem startsWord_ofTextFrom (rawBackslash : Bool) (start : Nat) (rest : Bytes) :
    startsWord (ofTextFrom rawBackslash .plain start rest) = rest.head?.any Ascii.isWord := by
  cases rest with
  | nil => simp [startsWord]
  | cons byte rest =>
    by_cases word : Ascii.isWord byte = true
    · rw [ofTextFrom_inert (word_inert word)]
      rfl
    · rw [ofTextFrom_step (by simp)]
      have other : Ascii.isWord byte = false := by simpa using word
      simp only [startsWord, List.head?_cons, Option.any_some, isWordByte, plainByte?, other]
      split
      · rename_i both
        rw [Lexer.step, Lexer.plainStep_plain both.2]
        simpa using other
      · rfl

end Lexeme

namespace Token
variable {start : Nat} {byte : UInt8} {lexeme : Lexeme} {front back middle : List Lexeme}
  {rest before behind : List Token} {text : Bytes}

theorem consLexeme_word (word : lexeme.isWordByte = true) : ∃ byte,
    lexeme.plainByte? = some byte ∧
      ∀ rest, consLexeme lexeme rest = consWord lexeme.start byte rest := by
  obtain ⟨byte, plain, word⟩ := Lexeme.isWordByte_parts word
  refine ⟨byte, plain, fun rest => ?_⟩
  simp only [consLexeme, plain, word, if_true]

theorem consLexeme_other (other : lexeme.isWordByte = false) : ∃ token,
    token.isWord = false ∧ ∀ rest, consLexeme lexeme rest = token :: rest := by
  unfold Lexeme.isWordByte at other
  unfold consLexeme
  cases plain : lexeme.plainByte? with
  | none => exact ⟨_, rfl, fun _ => rfl⟩
  | some byte =>
    simp only [plain, Option.any_some] at other
    simp only [other, Bool.false_eq_true, if_false]
    split
    · exact ⟨_, rfl, fun _ => rfl⟩
    · exact ⟨_, rfl, fun _ => rfl⟩

theorem consWord_fresh (apart : rest.head?.any isWord = false) (start : Nat) (byte : UInt8) :
    consWord start byte rest = .word start [byte] :: rest := by
  cases rest with
  | nil => rfl
  | cons token rest =>
    cases token with
    | word place text => cases apart
    | _ => rfl

theorem consWord_behind (present : rest ≠ []) (start : Nat) (byte : UInt8) (later : List Token) :
    consWord start byte (rest ++ later) = consWord start byte rest ++ later := by
  obtain ⟨token, rest, rfl⟩ := List.exists_cons_of_ne_nil present
  cases token <;> rfl

theorem ofLexemes_ne_nil (present : front ≠ []) : ofLexemes front ≠ [] := by
  obtain ⟨lexeme, front, rfl⟩ := List.exists_cons_of_ne_nil present
  obtain ⟨head, tail, made, _⟩ := consLexeme_start lexeme (ofLexemes front)
  rw [ofLexemes_cons, made]
  simp

theorem head_isWord (lexemes : List Lexeme) :
    (ofLexemes lexemes).head?.any isWord = Lexeme.startsWord lexemes := by
  cases lexemes with
  | nil => rfl
  | cons lexeme lexemes =>
    rw [ofLexemes_cons]
    cases word : lexeme.isWordByte with
    | true =>
      obtain ⟨byte, _, joins⟩ := consLexeme_word word
      rw [joins]
      unfold consWord
      split <;> exact word.symm
    | false =>
      obtain ⟨token, apart, makes⟩ := consLexeme_other word
      rw [makes, List.head?_cons, Option.any_some, apart]
      exact word.symm

-- Unless a word goes on from one part to the other, the parts are grouped alone.
theorem ofLexemes_apart (apart : ¬(Lexeme.endsWord front = true ∧ Lexeme.startsWord back = true)) :
    ofLexemes (front ++ back) = ofLexemes front ++ ofLexemes back := by
  induction front with
  | nil => rfl
  | cons lexeme front ih =>
    by_cases last : front = []
    · subst last
      cases word : lexeme.isWordByte with
      | true =>
        have ends : Lexeme.endsWord [lexeme] = true := word
        have fresh : (ofLexemes back).head?.any isWord = false := by
          rw [head_isWord]
          simpa [ends] using apart
        obtain ⟨byte, _, joins⟩ := consLexeme_word word
        rw [List.cons_append, List.nil_append, ofLexemes_cons, ofLexemes_cons, joins, joins,
          consWord_fresh fresh]
        rfl
      | false =>
        obtain ⟨token, _, makes⟩ := consLexeme_other word
        rw [List.cons_append, ofLexemes_cons, ofLexemes_cons, makes, makes]
        rfl
    · rw [← List.singleton_append, Lexeme.endsWord_append _ last] at apart
      rw [List.cons_append, ofLexemes_cons, ofLexemes_cons, ih apart]
      cases word : lexeme.isWordByte with
      | true =>
        obtain ⟨byte, _, joins⟩ := consLexeme_word word
        rw [joins, joins, consWord_behind (ofLexemes_ne_nil last)]
      | false =>
        obtain ⟨token, _, makes⟩ := consLexeme_other word
        rw [makes, makes, List.cons_append]

theorem ofLexemes_word (words : ∀ other ∈ lexeme :: middle, other.isWordByte = true) :
    ofLexemes (lexeme :: middle) =
      [.word lexeme.start (Lexeme.plainText (lexeme :: middle))] := by
  induction middle generalizing lexeme with
  | nil =>
    obtain ⟨byte, plain, joins⟩ := consLexeme_word (words lexeme (by simp))
    rw [ofLexemes_cons, joins, Lexeme.plainText, List.filterMap_cons_some plain]
    rfl
  | cons next middle ih =>
    obtain ⟨first, words⟩ := List.forall_mem_cons.mp words
    obtain ⟨byte, plain, joins⟩ := consLexeme_word first
    have text : Lexeme.plainText (lexeme :: next :: middle) =
        byte :: Lexeme.plainText (next :: middle) := List.filterMap_cons_some plain
    rw [ofLexemes_cons, joins, ih words, text]
    rfl

-- Word bytes between lexemes that are none.
structure WordRun (front middle back : List Lexeme) : Prop where
  words : ∀ lexeme ∈ middle, lexeme.isWordByte = true
  opens : Lexeme.endsWord front = false
  closes : Lexeme.startsWord back = false

theorem WordRun.tokens (run : WordRun front (lexeme :: middle) back) :
    ofLexemes (front ++ (lexeme :: middle ++ back)) = ofLexemes front ++
      .word lexeme.start (Lexeme.plainText (lexeme :: middle)) :: ofLexemes back := by
  rw [ofLexemes_apart (by simp [run.opens]), ofLexemes_apart (by simp [run.closes]),
    ofLexemes_word run.words]
  rfl

-- The lexemes that make the first token.
theorem first_token (present : lexemes ≠ []) : ∃ chunk back token, lexemes = chunk ++ back ∧
    chunk ≠ [] ∧ ofLexemes chunk = [token] ∧
    ¬(Lexeme.endsWord chunk = true ∧ Lexeme.startsWord back = true) ∧
    (token.isWord = true → ∀ lexeme ∈ chunk, lexeme.isWordByte = true) := by
  obtain ⟨lexeme, rest, rfl⟩ := List.exists_cons_of_ne_nil present
  cases word : lexeme.isWordByte with
  | false =>
    obtain ⟨token, apart, makes⟩ := consLexeme_other word
    have ends : Lexeme.endsWord [lexeme] = false := word
    exact ⟨[lexeme], rest, token, rfl, by simp, makes [], by simp [ends], by simp [apart]⟩
  | true =>
    have words : ∀ other ∈ lexeme :: rest.takeWhile Lexeme.isWordByte, other.isWordByte = true :=
      List.forall_mem_cons.mpr ⟨word, List.all_eq_true.mp List.all_takeWhile⟩
    have stops : Lexeme.startsWord (rest.dropWhile Lexeme.isWordByte) = false := by
      have stopped := List.head?_dropWhile_not Lexeme.isWordByte rest
      unfold Lexeme.startsWord
      cases found : (rest.dropWhile Lexeme.isWordByte).head? with
      | none => rfl
      | some other => simpa [found] using stopped
    refine ⟨_, rest.dropWhile Lexeme.isWordByte, _, ?_, by simp, ofLexemes_word words,
      by simp [stops], fun _ => words⟩
    rw [List.cons_append, List.takeWhile_append_dropWhile]

theorem ofLexemes_word_split (made : ofLexemes lexemes = before ++ .word start text :: behind) :
    ∃ front lexeme middle back, lexemes = front ++ (lexeme :: middle ++ back) ∧
      WordRun front (lexeme :: middle) back ∧ ofLexemes front = before ∧
      ofLexemes back = behind ∧ lexeme.start = start ∧
      Lexeme.plainText (lexeme :: middle) = text := by
  induction before generalizing lexemes with
  | nil =>
    have present : lexemes ≠ [] := by
      rintro rfl
      cases made
    obtain ⟨chunk, back, token, rfl, nonempty, single, apart, words⟩ := first_token present
    rw [ofLexemes_apart apart, single] at made
    obtain ⟨rfl, behind⟩ := List.cons.inj made
    obtain ⟨lexeme, middle, rfl⟩ := List.exists_cons_of_ne_nil nonempty
    have word := ofLexemes_word (words rfl)
    rw [single, List.cons.injEq, Token.word.injEq] at word
    have closes : Lexeme.startsWord back = false := by
      simpa [Lexeme.endsWord_of_words nonempty (words rfl)] using apart
    exact ⟨[], lexeme, middle, back, rfl, ⟨words rfl, rfl, closes⟩, rfl, behind, word.1.1.symm,
      word.1.2.symm⟩
  | cons first before ih =>
    have present : lexemes ≠ [] := by
      rintro rfl
      cases made
    obtain ⟨chunk, back, token, rfl, nonempty, single, apart, words⟩ := first_token present
    rw [ofLexemes_apart apart, single] at made
    obtain ⟨rfl, tail⟩ := List.cons.inj made
    obtain ⟨front, lexeme, middle, later, rfl, run, rfl, rfl, rfl, rfl⟩ := ih tail
    -- What follows the first token starts as the lexemes behind it do, unless nothing follows
    -- it but the word.
    have parts : Lexeme.endsWord (chunk ++ front) = false ∧
        ¬(Lexeme.endsWord chunk = true ∧ Lexeme.startsWord front = true) := by
      by_cases none : front = []
      · subst none
        have starts : Lexeme.startsWord ([] ++ (lexeme :: middle ++ later)) = true :=
          run.words lexeme (by simp)
        rw [List.append_nil]
        exact ⟨Bool.eq_false_iff.mpr fun ends => apart ⟨ends, starts⟩, by simp [Lexeme.startsWord]⟩
      · obtain ⟨head, front, rfl⟩ := List.exists_cons_of_ne_nil none
        rw [Lexeme.endsWord_append _ none]
        exact ⟨run.opens, apart⟩
    refine ⟨chunk ++ front, lexeme, middle, later, (List.append_assoc _ _ _).symm,
      ⟨run.words, parts.1, run.closes⟩, ?_, rfl, rfl, rfl⟩
    rw [ofLexemes_apart parts.2, single]
    rfl

end Token

namespace Lexeme
variable {rawBackslash : Bool} {start stop position : Nat} {left word right sql : Bytes}

theorem word_of_run
    (words : ∀ lexeme ∈ ofTextFrom rawBackslash .plain start word, lexeme.isWordByte = true) :
    ∀ byte ∈ word, Ascii.isWord byte = true := by
  induction word generalizing start with
  | nil => simp
  | cons byte word ih =>
    have run := @ofTextFrom_step rawBackslash .plain start (byte :: word) (by simp)
    have first := words _ (by rw [run]; exact List.mem_cons_self)
    obtain ⟨found, plain, isWord⟩ := isWordByte_parts first
    obtain ⟨_, rest, split, _, later⟩ := first_plain run plain
    obtain ⟨rfl, rfl⟩ := List.cons.inj split
    rw [run, later] at words
    exact List.forall_mem_cons.mpr ⟨isWord, ih (List.forall_mem_cons.mp words).2⟩

def PlainWord (lexemes : List Lexeme) (position : Nat) : Prop :=
  ∃ byte, PlainAt lexemes position byte ∧ Ascii.isWord byte = true

-- The plain word bytes from `start` up to `stop`, with none before and none behind them.
structure WordAt (lexemes : List Lexeme) (start stop : Nat) : Prop where
  filled : start < stop
  words : ∀ position, start ≤ position → position < stop → PlainWord lexemes position
  first : ∀ position, position + 1 = start → ¬PlainWord lexemes position
  last : ¬PlainWord lexemes stop

theorem WordAt.stop_le {lexemes : List Lexeme} {last : Nat} (one : WordAt lexemes start stop)
    (two : WordAt lexemes start last) : stop ≤ last := by
  refine Nat.le_of_not_lt fun less => ?_
  exact two.last (one.words last (Nat.le_of_lt two.filled) less)

-- The same as parts of the text.
structure WordBetween (rawBackslash : Bool) (left word right : Bytes) : Prop where
  ends : finalContext rawBackslash left = .plain
  filled : word ≠ []
  words : ∀ byte ∈ word, Ascii.isWord byte = true
  opens : endsWord (ofText rawBackslash left) = false
  closes : right.head?.any Ascii.isWord = false

theorem WordBetween.split (between : WordBetween rawBackslash left word right) :
    ofText rawBackslash (left ++ (word ++ right)) = ofText rawBackslash left ++
      ofTextFrom rawBackslash .plain left.length (word ++ right) := by
  obtain ⟨ends, filled, words, _, _⟩ := between
  obtain ⟨first, rest, rfl⟩ := List.exists_cons_of_ne_nil filled
  have seam : Lexer.Seam left (first :: rest ++ right) :=
    (word_inert (words first (by simp))).seam_before _ _
  rw [ofText, ofTextFrom_append ends seam, Nat.zero_add]
  rfl

theorem WordBetween.run (between : WordBetween rawBackslash left word right) :
    ofText rawBackslash (left ++ (word ++ right)) = ofText rawBackslash left ++
      (ofTextFrom rawBackslash .plain left.length word ++
        ofTextFrom rawBackslash .plain (left.length + word.length) right) := by
  have last := word_inert (between.words _ (List.getLast_mem between.filled))
  have seam : Lexer.Seam word right := by
    rw [← List.dropLast_concat_getLast between.filled]
    exact last.seam_after _ _
  rw [between.split, ofTextFrom_append (ofTextFrom_word _ between.words _).1 seam]

theorem word_plainAt (rawBackslash : Bool) (words : ∀ byte ∈ word, Ascii.isWord byte = true)
    (lower : start ≤ position) (upper : position < start + word.length) :
    PlainWord (ofTextFrom rawBackslash .plain start word) position := by
  induction word generalizing start with
  | nil =>
    rw [List.length_nil] at upper
    omega
  | cons byte word ih =>
    obtain ⟨first, words⟩ := List.forall_mem_cons.mp words
    rw [ofTextFrom_inert (word_inert first)]
    by_cases here : position = start
    · exact ⟨byte, ⟨_, List.mem_cons_self, here.symm, rfl⟩, first⟩
    · rw [List.length_cons] at upper
      have inner : PlainWord (ofTextFrom rawBackslash .plain (start + 1) word) position :=
        ih words (by omega) (by omega)
      obtain ⟨other, ⟨lexeme, member, place⟩, isWord⟩ := inner
      exact ⟨other, ⟨lexeme, List.mem_cons_of_mem _ member, place⟩, isWord⟩

-- A text that ends with a word ends with a word byte.
theorem endsWord_iff (rawBackslash : Bool) (left : Bytes) :
    endsWord (ofText rawBackslash left) = true ↔
      ∃ position, position + 1 = left.length ∧ PlainWord (ofText rawBackslash left) position := by
  constructor
  · intro ends
    rcases List.eq_nil_or_concat (ofText rawBackslash left) with empty | ⟨front, lexeme, run⟩
    · rw [empty] at ends
      cases ends
    · rw [List.concat_eq_append] at run
      rw [endsWord, run, List.getLast?_concat, Option.any_some] at ends
      obtain ⟨byte, plain, word⟩ := isWordByte_parts ends
      obtain ⟨front, rfl, here⟩ := last_plain run plain
      refine ⟨front.length, by simp, byte, ⟨lexeme, ?_, by simpa using here, plain⟩, word⟩
      rw [run]
      simp
  · rintro ⟨position, last, byte, ⟨lexeme, member, here, plain⟩, word⟩
    obtain ⟨earlier, later, split⟩ := List.append_of_mem member
    obtain ⟨front, rest, rfl, _, _, rfl, behind⟩ := split_plain split plain
    simp only [Nat.zero_add, List.length_append, List.length_cons] at here last
    obtain rfl : rest = [] := List.length_eq_zero_iff.mp (by omega)
    rw [ofTextFrom_nil] at behind
    rw [endsWord, split, behind, List.getLast?_concat]
    exact word

theorem WordBetween.wordAt (between : WordBetween rawBackslash left word right) :
    WordAt (ofText rawBackslash (left ++ (word ++ right))) left.length
      (left.length + word.length) := by
  refine ⟨?_, ?_, ?_, ?_⟩
  · have filled := List.length_pos_iff.mpr between.filled
    omega
  · intro position lower upper
    obtain ⟨byte, plain, isWord⟩ := word_plainAt rawBackslash between.words lower upper
    rw [between.run]
    exact ⟨byte, plainAt_append.mpr (.inr (plainAt_append.mpr (.inl plain))), isWord⟩
  · rintro position last ⟨byte, plain, isWord⟩
    rw [between.run, plainAt_append] at plain
    rcases plain with inside | ⟨lexeme, member, here, _⟩
    · have ends := (endsWord_iff rawBackslash left).mpr ⟨position, last, byte, inside, isWord⟩
      rw [between.opens] at ends
      cases ends
    · rcases List.mem_append.mp member with middle | back
      · have bounds := start_bounds middle
        omega
      · have bounds := start_bounds back
        omega
  · rintro ⟨byte, plain, isWord⟩
    have found := plain.byte_at
    have closes := between.closes
    rw [← List.append_assoc, List.getElem?_append_right (by simp), List.length_append, Nat.sub_self,
      ← List.head?_eq_getElem?] at found
    rw [found, Option.any_some, isWord] at closes
    cases closes

theorem WordAt.between (found : WordAt (ofText rawBackslash sql) start stop) :
    ∃ left word right, sql = left ++ (word ++ right) ∧ start = left.length ∧
      stop = left.length + word.length ∧ WordBetween rawBackslash left word right := by
  obtain ⟨byte, plain, isWord⟩ := found.words start (Nat.le_refl _) found.filled
  obtain ⟨left, rest, rfl, rfl, ends, run⟩ := plain.reached.split
  have filled := found.filled
  obtain ⟨word, right, rfl, count, words⟩ : ∃ word right, rest = word ++ right ∧
      word.length = stop - left.length ∧ ∀ byte ∈ word, Ascii.isWord byte = true := by
    refine Bytes.split_all fun index bound => ?_
    obtain ⟨byte, plain, isWord⟩ := found.words (left.length + index) (by omega) (by omega)
    have here := plain.byte_at
    rw [List.getElem?_append_right (by omega), Nat.add_sub_cancel_left] at here
    exact ⟨byte, here, isWord⟩
  refine ⟨left, word, right, rfl, rfl, by omega, ends, ?_, words, ?_, ?_⟩
  · rw [← List.length_pos_iff, count]
    omega
  · refine Bool.eq_false_iff.mpr fun last => ?_
    obtain ⟨position, before, byte, plain, isWord⟩ := (endsWord_iff rawBackslash left).mp last
    refine found.first position before ⟨byte, ?_, isWord⟩
    rw [run]
    exact plainAt_append.mpr (.inl plain)
  · refine Bool.eq_false_iff.mpr fun goes => found.last ?_
    obtain ⟨byte, rest, rfl⟩ : ∃ byte rest, right = byte :: rest := by
      cases right with
      | nil => cases goes
      | cons byte rest => exact ⟨byte, rest, rfl⟩
    have isWord : Ascii.isWord byte = true := goes
    have inert := word_inert isWord
    have here : left.length + word.length = stop := by omega
    refine ⟨byte, ?_, isWord⟩
    rw [run, ofTextFrom_append (ofTextFrom_word _ words _).1 (inert.seam_before _ _), here,
      ofTextFrom_inert inert]
    exact plainAt_append.mpr (.inr (plainAt_append.mpr (.inr ⟨_, List.mem_cons_self, rfl, rfl⟩)))

end Lexeme

namespace Token
open Lexeme (WordBetween WordAt)
variable {rawBackslash : Bool} {start stop : Nat} {left word right sql text : Bytes}
  {before behind : List Token}

theorem tokens_between (between : WordBetween rawBackslash left word right) :
    ofText rawBackslash (left ++ (word ++ right)) = ofText rawBackslash left ++
      .word left.length word ::
        ofLexemes (Lexeme.ofTextFrom rawBackslash .plain (left.length + word.length) right) := by
  obtain ⟨first, rest, rfl⟩ := List.exists_cons_of_ne_nil between.filled
  obtain ⟨_, words, text⟩ := Lexeme.ofTextFrom_word rawBackslash between.words left.length
  have closes : Lexeme.startsWord (Lexeme.ofTextFrom rawBackslash .plain
      (left.length + (first :: rest).length) right) = false := by
    rw [Lexeme.startsWord_ofTextFrom]
    exact between.closes
  rw [ofText, between.run]
  rw [Lexeme.ofTextFrom_inert (Lexeme.word_inert (between.words first (by simp)))] at words text ⊢
  rw [WordRun.tokens ⟨words, between.opens, closes⟩, text]
  rfl

-- Each word token stands between such parts.
theorem between_of_word (made : ofText rawBackslash sql = before ++ .word start text :: behind) :
    ∃ left right, sql = left ++ (text ++ right) ∧ start = left.length ∧
      WordBetween rawBackslash left text right ∧ before = ofText rawBackslash left ∧
      behind = ofLexemes
        (Lexeme.ofTextFrom rawBackslash .plain (left.length + text.length) right) := by
  obtain ⟨front, lexeme, middle, back, split, run, rfl, rfl, rfl, rfl⟩ := ofLexemes_word_split made
  obtain ⟨left, rest, rfl, rfl, later⟩ := Lexeme.ofTextFrom_split split
  obtain ⟨byte, plain, _⟩ := Lexeme.isWordByte_parts (run.words lexeme (by simp))
  obtain ⟨ends, _, _, here, _⟩ := Lexeme.first_plain later.symm plain
  rw [ends, Nat.zero_add] at later
  rw [Nat.zero_add] at here
  obtain ⟨word, right, rfl, middleRun, rfl⟩ := Lexeme.ofTextFrom_split later.symm
  have words : ∀ byte ∈ word, Ascii.isWord byte = true :=
    Lexeme.word_of_run (middleRun ▸ run.words)
  obtain ⟨wordEnds, _, text⟩ := Lexeme.ofTextFrom_word rawBackslash words left.length
  have closes := run.closes
  rw [middleRun, wordEnds, Lexeme.startsWord_ofTextFrom] at closes
  have filled : word ≠ [] := by
    rintro rfl
    simp at middleRun
  refine ⟨left, right, ?_, by rw [here], ?_, rfl, ?_⟩
  · rw [middleRun, text]
  · rw [middleRun, text]
    exact ⟨ends, filled, words, run.opens, closes⟩
  · rw [middleRun, wordEnds, text]

-- The words of a text are its maximal runs of plain word bytes.
theorem mem_word_iff (rawBackslash : Bool) (sql : Bytes) (start : Nat) (text : Bytes) :
    .word start text ∈ ofText rawBackslash sql ↔
      WordAt (Lexeme.ofText rawBackslash sql) start (start + text.length) ∧
        sql.slice start (start + text.length) = text := by
  constructor
  · intro member
    obtain ⟨before, behind, made⟩ := List.append_of_mem member
    obtain ⟨left, right, rfl, rfl, between, _, _⟩ := between_of_word made
    exact ⟨between.wordAt, Bytes.slice_middle left text right⟩
  · rintro ⟨found, same⟩
    obtain ⟨left, word, right, rfl, rfl, count, between⟩ := found.between
    obtain rfl : word = text := by
      rw [count, Bytes.slice_middle] at same
      exact same
    rw [tokens_between between]
    simp

end Token
end InsertBatch
