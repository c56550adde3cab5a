import InsertBatch.Script
import InsertBatch.Statement
import InsertBatch.Proofs.TokenRuns

namespace InsertBatch

-- What a run tells about joining and cutting: whether a semicolon separates, a line
-- comment opens or there is content, and whether content continues past a semicolon.
structure Outline where
  separates : Bool
  comments : Bool
  content : Bool
  continues : Bool
deriving DecidableEq, Repr

attribute [ext] Outline

theorem finalContext_append {rawBackslash : Bool} {left right : Bytes}
    (ends : finalContext rawBackslash left = .plain) (seam : Lexer.Seam left right) :
    finalContext rawBackslash (left ++ right) = finalContext rawBackslash right := by
  rw [finalContext, Lexeme.ofText, Lexeme.ofTextFrom_append ends seam, Lexeme.endContext_append,
    Lexeme.endContext_start]
  exact congrArg (Lexeme.endContext · _) ends

theorem Lexeme.unmarked_append {rawBackslash : Bool} {left right : Bytes}
    (ends : finalContext rawBackslash left = .plain) (seam : Lexer.Seam left right) :
    placesOf Ascii.question (ofText rawBackslash (left ++ right)) = [] ↔
      placesOf Ascii.question (ofText rawBackslash left) = [] ∧
        placesOf Ascii.question (ofText rawBackslash right) = [] := by
  rw [ofText, ofTextFrom_append ends seam, placesOf_append, List.append_eq_nil_iff,
    placesOf_start _ _ _ _ right, List.map_eq_nil_iff]
  rfl

namespace Outline

def nothing : Outline := ⟨false, false, false, false⟩

-- A parameter mark, and whatever may take its place.
def item : Outline := ⟨false, false, true, false⟩

def andThen (first second : Outline) : Outline where
  separates := first.separates || second.separates
  comments := first.comments || second.comments
  content := first.content || second.content
  continues := first.continues || (first.separates && second.content) || second.continues

@[simp] theorem nothing_andThen (second : Outline) : nothing.andThen second = second := by
  simp [andThen, nothing]

theorem andThen_assoc (first second third : Outline) :
    (first.andThen second).andThen third = first.andThen (second.andThen third) := by
  simp only [andThen, mk.injEq, Bool.or_assoc, Bool.and_or_distrib_left, Bool.and_or_distrib_right,
    true_and]
  ac_rfl

def ofLexeme (lexeme : Lexeme) : Outline :=
  ⟨Script.isSeparator lexeme, lexeme.opensLineComment, Script.isContent lexeme, false⟩

def ofLexemes (lexemes : List Lexeme) : Outline :=
  lexemes.foldr (fun lexeme rest => (ofLexeme lexeme).andThen rest) nothing

variable {rawBackslash : Bool} {lexemes : List Lexeme}

@[simp] theorem ofLexemes_nil : ofLexemes [] = nothing := rfl

theorem ofLexemes_cons (lexeme : Lexeme) (rest : List Lexeme) :
    ofLexemes (lexeme :: rest) = (ofLexeme lexeme).andThen (ofLexemes rest) := rfl

theorem ofLexemes_append (front back : List Lexeme) :
    ofLexemes (front ++ back) = (ofLexemes front).andThen (ofLexemes back) := by
  induction front with
  | nil => simp
  | cons lexeme front ih => rw [List.cons_append, ofLexemes_cons, ih, ofLexemes_cons, andThen_assoc]

theorem ofLexemes_shift (offset : Nat) (lexemes : List Lexeme) :
    ofLexemes (lexemes.map (Lexeme.shift offset)) = ofLexemes lexemes := by
  induction lexemes with
  | nil => rfl
  | cons lexeme rest ih =>
    rw [List.map_cons, ofLexemes_cons, ofLexemes_cons, ih]
    rfl

-- An outline does not tell where its text stands.
theorem ofLexemes_start (rawBackslash : Bool) (context : Context) (start : Nat) (rest : Bytes) :
    ofLexemes (Lexeme.ofTextFrom rawBackslash context start rest) =
      ofLexemes (Lexeme.ofTextFrom rawBackslash context 0 rest) := by
  have moved := Lexeme.ofTextFrom_shift rawBackslash context 0 start rest
  rw [Nat.zero_add] at moved
  rw [moved, ofLexemes_shift]

def ofText (rawBackslash : Bool) (text : Bytes) : Outline :=
  ofLexemes (Lexeme.ofText rawBackslash text)

theorem ofText_start (rawBackslash : Bool) (start : Nat) (text : Bytes) :
    ofLexemes (Lexeme.ofTextFrom rawBackslash .plain start text) = ofText rawBackslash text :=
  ofLexemes_start _ _ _ _

theorem ofText_append {left right : Bytes} (ends : finalContext rawBackslash left = .plain)
    (seam : Lexer.Seam left right) : ofText rawBackslash (left ++ right) =
      (ofText rawBackslash left).andThen (ofText rawBackslash right) := by
  rw [ofText, Lexeme.ofText, Lexeme.ofTextFrom_append ends seam, ofLexemes_append, ofText_start,
    ofText_start]

-- All but `continues` is told lexeme by lexeme.
theorem field_any {field : Outline → Bool} (none : field nothing = false)
    (joins : ∀ first second, field (first.andThen second) = (field first || field second))
    (lexemes : List Lexeme) :
    field (ofLexemes lexemes) = lexemes.any fun lexeme => field (ofLexeme lexeme) := by
  induction lexemes with
  | nil => exact none
  | cons lexeme rest ih => rw [ofLexemes_cons, joins, ih, List.any_cons]

theorem separates_any (lexemes : List Lexeme) :
    (ofLexemes lexemes).separates = lexemes.any Script.isSeparator :=
  field_any rfl (fun _ _ => rfl) lexemes

theorem comments_any (lexemes : List Lexeme) :
    (ofLexemes lexemes).comments = lexemes.any Lexeme.opensLineComment :=
  field_any rfl (fun _ _ => rfl) lexemes

theorem content_any (lexemes : List Lexeme) :
    (ofLexemes lexemes).content = lexemes.any Script.isContent :=
  field_any rfl (fun _ _ => rfl) lexemes

theorem content_of_continues (continues : (ofLexemes lexemes).continues = true) :
    (ofLexemes lexemes).content = true := by
  induction lexemes with
  | nil => cases continues
  | cons lexeme rest ih =>
    simp only [ofLexemes_cons, andThen, ofLexeme, Bool.false_or, Bool.or_eq_true,
      Bool.and_eq_true] at continues ⊢
    rcases continues with ⟨_, content⟩ | later
    · exact .inr content
    · exact .inr (ih later)

theorem continues_of_unseparated (whole : (ofLexemes lexemes).separates = false) :
    (ofLexemes lexemes).continues = false := by
  induction lexemes with
  | nil => rfl
  | cons lexeme rest ih =>
    simp only [ofLexemes_cons, andThen, Bool.or_eq_false_iff] at whole ⊢
    simp only [whole, Bool.false_and, ih whole.2, and_true]
    rfl

-- Without a separator in front, content goes on behind one only where it did before.
theorem continues_append {left right : Bytes} (ends : finalContext rawBackslash left = .plain)
    (seam : Lexer.Seam left right) (whole : (ofText rawBackslash left).separates = false) :
    (ofText rawBackslash (left ++ right)).continues = (ofText rawBackslash right).continues := by
  have none : (ofText rawBackslash left).continues = false := continues_of_unseparated whole
  rw [ofText_append ends seam]
  simp [andThen, whole, none]

end Outline

namespace Token
variable {test : Token → Bool} {lexeme : Lexeme} {lexemes : List Lexeme}

theorem any_consWord (same : ∀ start text, test (.word start text) = holds) (start : Nat)
    (byte : UInt8) (rest : List Token) :
    (consWord start byte rest).any test = (holds || rest.any test) := by
  unfold consWord
  split
  · simp only [List.any_cons, same]
    cases holds <;> rfl
  · simp only [List.any_cons, same]

-- A test that does not look into words can be made lexeme by lexeme.
theorem any_consLexeme (same : ∀ start text, test (.word start text) = holds) (lexeme : Lexeme)
    (rest : List Token) :
    (consLexeme lexeme rest).any test = ((consLexeme lexeme []).any test || rest.any test) := by
  rcases consLexeme_parts lexeme with ⟨byte, joins⟩ | ⟨token, _, makes⟩
  · rw [joins, joins, any_consWord same, any_consWord same, List.any_nil, Bool.or_false]
  · rw [makes, makes, List.any_cons, List.any_cons, List.any_nil, Bool.or_false]

theorem any_ofLexemes {single : Lexeme → Bool}
    (same : ∀ start text, test (.word start text) = holds)
    (each : ∀ lexeme, (consLexeme lexeme []).any test = single lexeme) (lexemes : List Lexeme) :
    (ofLexemes lexemes).any test = lexemes.any single := by
  induction lexemes with
  | nil => rfl
  | cons lexeme lexemes ih => rw [ofLexemes_cons, any_consLexeme same, ih, each, List.any_cons]

theorem isBlank_of_isWord (word : Ascii.isWord byte = true) : Ascii.isBlank byte = false := by
  cases blank : Ascii.isBlank byte with
  | false => rfl
  | true =>
    simp only [Ascii.isBlank, Bool.or_eq_true, beq_iff_eq] at blank
    rcases blank with (((rfl | rfl) | rfl) | rfl) | rfl <;> exact absurd word (by decide)

-- The token that a lexeme makes when no word stands behind it.
theorem consLexeme_nil (lexeme : Lexeme) :
    (lexeme.plainByte? = none ∧ consLexeme lexeme [] = [.turn lexeme]) ∨
      ∃ byte, lexeme.plainByte? = some byte ∧
        ((Ascii.isWord byte = true ∧ consLexeme lexeme [] = [.word lexeme.start [byte]]) ∨
          (Ascii.isBlank byte = true ∧ consLexeme lexeme [] = [.blank lexeme.start byte]) ∨
          (Ascii.isBlank byte = false ∧ consLexeme lexeme [] = [.sign lexeme.start byte])) := by
  unfold consLexeme
  cases plain : lexeme.plainByte? with
  | none => exact .inl ⟨rfl, rfl⟩
  | some byte =>
    refine .inr ⟨byte, rfl, ?_⟩
    by_cases word : Ascii.isWord byte = true
    · exact .inl ⟨word, by simp [word, consWord]⟩
    · by_cases blank : Ascii.isBlank byte = true
      · exact .inr (.inl ⟨blank, by simp [word, blank]⟩)
      · exact .inr (.inr ⟨by simpa using blank, by simp [word, blank]⟩)

theorem isSignificant_consLexeme (lexeme : Lexeme) :
    (consLexeme lexeme []).any isSignificant = Script.isContent lexeme := by
  unfold Script.isContent
  rcases consLexeme_nil lexeme with ⟨plain, made⟩ | ⟨byte, plain, ⟨word, made⟩ | ⟨blank, made⟩ |
    ⟨sign, made⟩⟩
  · simp [plain, made, isSignificant]
  · simp [plain, made, isSignificant, isBlank_of_isWord word]
  · simp [plain, made, isSignificant, blank]
  · simp [plain, made, isSignificant, sign]

theorem semicolon_consLexeme (lexeme : Lexeme) :
    (consLexeme lexeme []).any (isSign Ascii.semicolon) = Script.isSeparator lexeme := by
  unfold Script.isSeparator
  rcases consLexeme_nil lexeme with ⟨plain, made⟩ | ⟨byte, plain, ⟨word, made⟩ | ⟨blank, made⟩ |
    ⟨sign, made⟩⟩
  · simp [plain, made, isSign]
  · have other : byte ≠ Ascii.semicolon := by
      rintro rfl
      exact absurd word (by decide)
    simp [plain, made, isSign, other]
  · have other : byte ≠ Ascii.semicolon := by
      rintro rfl
      exact absurd blank (by decide)
    simp [plain, made, isSign, other]
  · simp [plain, made, isSign]

theorem opensLineComment_consLexeme (lexeme : Lexeme) :
    (consLexeme lexeme []).any opensLineComment = lexeme.opensLineComment := by
  have closed : ∀ byte, lexeme.plainByte? = some byte → lexeme.opensLineComment = false := by
    intro byte plain
    unfold Lexeme.plainByte? at plain
    split at plain
    · rename_i both
      simp [Lexeme.opensLineComment, both]
    · cases plain
  rcases consLexeme_nil lexeme with ⟨plain, made⟩ | ⟨byte, plain, ⟨_, made⟩ | ⟨_, made⟩ | ⟨_, made⟩⟩
  · simp [made, opensLineComment]
  all_goals simp [made, opensLineComment, closed byte plain]

theorem any_isSignificant (lexemes : List Lexeme) :
    (ofLexemes lexemes).any isSignificant = (Outline.ofLexemes lexemes).content := by
  rw [Outline.content_any]
  exact any_ofLexemes (fun _ _ => rfl) isSignificant_consLexeme lexemes

theorem any_semicolon (lexemes : List Lexeme) :
    (ofLexemes lexemes).any (isSign Ascii.semicolon) = (Outline.ofLexemes lexemes).separates := by
  rw [Outline.separates_any]
  exact any_ofLexemes (fun _ _ => rfl) semicolon_consLexeme lexemes

theorem any_opensLineComment (lexemes : List Lexeme) :
    (ofLexemes lexemes).any opensLineComment = (Outline.ofLexemes lexemes).comments := by
  rw [Outline.comments_any]
  exact any_ofLexemes (fun _ _ => rfl) opensLineComment_consLexeme lexemes

end Token

namespace Classification

theorem continuesPastSemicolon_cons (token : Token) (rest : List Token) :
    continuesPastSemicolon (token :: rest) =
      if token.isSign Ascii.semicolon then rest.any Token.isSignificant
      else continuesPastSemicolon rest := by
  unfold continuesPastSemicolon
  cases separates : token.isSign Ascii.semicolon <;> simp [separates]

theorem continuesPastSemicolon_consWord (start : Nat) (byte : UInt8) (rest : List Token) :
    continuesPastSemicolon (Token.consWord start byte rest) = continuesPastSemicolon rest := by
  unfold Token.consWord
  split <;> rfl

theorem continuesPastSemicolon_ofLexemes (lexemes : List Lexeme) :
    continuesPastSemicolon (Token.ofLexemes lexemes) = (Outline.ofLexemes lexemes).continues := by
  induction lexemes with
  | nil => rfl
  | cons lexeme lexemes ih =>
    simp only [Outline.ofLexemes_cons, Outline.andThen, Outline.ofLexeme,
      ← Token.semicolon_consLexeme, Bool.false_or]
    rcases Token.consLexeme_parts lexeme with ⟨byte, joins⟩ | ⟨token, _, makes⟩
    · rw [Token.ofLexemes_cons, joins, joins, continuesPastSemicolon_consWord, ih]
      rfl
    · rw [Token.ofLexemes_cons, makes, makes, continuesPastSemicolon_cons, Token.any_isSignificant,
        List.any_cons, List.any_nil, Bool.or_false]
      cases token.isSign Ascii.semicolon with
      | false => simpa using ih
      | true =>
        cases continues : (Outline.ofLexemes lexemes).continues with
        | false => simp
        | true => simp [Outline.content_of_continues continues]

end Classification

namespace Statement

theorem hasSecondStatement_outline (rawBackslash : Bool) (sql : Bytes) :
    (analyze rawBackslash sql).classification.hasSecondStatement =
      (Outline.ofText rawBackslash sql).continues :=
  Classification.continuesPastSemicolon_ofLexemes _

theorem endsInsideLiteral_final (rawBackslash : Bool) (sql : Bytes) :
    (analyze rawBackslash sql).classification.endsInsideLiteral =
      ((finalContext rawBackslash sql).isQuoted || finalContext rawBackslash sql == .blockComment) :=
  rfl

theorem joinable_outline (rawBackslash : Bool) (sql : Bytes) :
    (analyze rawBackslash sql).classification.joinable =
      (!(Outline.ofText rawBackslash sql).separates && !(Outline.ofText rawBackslash sql).comments &&
        !(analyze rawBackslash sql).classification.endsInsideLiteral) := by
  rw [Outline.ofText, ← Token.any_semicolon, ← Token.any_opensLineComment]
  rfl

end Statement
end InsertBatch
