import InsertBatch.Classification
import InsertBatch.Proofs.LexemeRuns

namespace InsertBatch.Token
variable {lexeme : Lexeme} {token : Token} {front back : List Lexeme} {earlier later : List Token}

def isWord : Token → Bool
  | .word .. => true
  | _ => false

-- A lexeme either lengthens a word or makes a token of its own.
theorem consLexeme_parts (lexeme : Lexeme) :
    (∃ byte, ∀ rest, consLexeme lexeme rest = consWord lexeme.start byte rest) ∨
      ∃ token, token.isWord = false ∧ ∀ rest, consLexeme lexeme rest = token :: rest := by
  unfold consLexeme
  split
  · exact .inr ⟨_, rfl, fun _ => rfl⟩
  · split
    · exact .inl ⟨_, fun _ => rfl⟩
    · split
      · exact .inr ⟨_, rfl, fun _ => rfl⟩
      · exact .inr ⟨_, rfl, fun _ => rfl⟩

theorem consLexeme_sign (plain : lexeme.plainByte? = some byte)
    (ordinary : Ascii.isWord byte = false ∧ Ascii.isBlank byte = false) (rest : List Token) :
    consLexeme lexeme rest = .sign lexeme.start byte :: rest := by
  simp [consLexeme, plain, ordinary.1, ordinary.2]

theorem sign_consLexeme (made : consLexeme lexeme rest = .sign start byte :: rest) :
    lexeme.start = start ∧ lexeme.plainByte? = some byte := by
  unfold consLexeme at made
  split at made
  · cases made
  · rename_i found plain
    split at made
    · unfold consWord at made
      split at made <;> cases made
    · split at made
      · cases made
      · cases made
        exact ⟨rfl, plain⟩

-- A token that is no word ends the word before it, so it splits the grouping.
theorem consWord_append (start : Nat) (byte : UInt8) (apart : token.isWord = false) :
    consWord start byte (earlier ++ token :: later) =
      consWord start byte earlier ++ token :: later := by
  cases earlier with
  | nil => cases token <;> first | rfl | cases apart
  | cons first earlier => cases first <;> rfl

theorem consWord_split (start : Nat) (byte : UInt8) (apart : token.isWord = false)
    (made : consWord start byte tokens = earlier ++ token :: later) :
    ∃ shorter, tokens = shorter ++ token :: later ∧ consWord start byte shorter = earlier := by
  cases earlier with
  | nil =>
    unfold consWord at made
    split at made <;> cases made <;> cases apart
  | cons first earlier =>
    unfold consWord at made
    split at made
    · rename_i inner text rest
      obtain ⟨rfl, rfl⟩ := List.cons.inj made
      exact ⟨.word inner text :: earlier, rfl, rfl⟩
    · rename_i noWord
      obtain ⟨rfl, rfl⟩ := List.cons.inj made
      refine ⟨earlier, rfl, ?_⟩
      cases earlier with
      | nil => rfl
      | cons next earlier =>
        cases next with
        | word inner text => exact absurd rfl (noWord inner text _)
        | _ => rfl

theorem marks_consWord (start : Nat) (byte : UInt8) (rest : List Token) :
    marks (consWord start byte rest) = marks rest := by
  unfold consWord
  split <;> rfl

theorem ofLexemes_cons (lexeme : Lexeme) (rest : List Lexeme) :
    ofLexemes (lexeme :: rest) = consLexeme lexeme (ofLexemes rest) := rfl

theorem ofLexemes_append (alone : ∀ rest, consLexeme lexeme rest = token :: rest)
    (apart : token.isWord = false) :
    ofLexemes (front ++ lexeme :: back) = ofLexemes front ++ token :: ofLexemes back := by
  induction front with
  | nil => exact alone _
  | cons first front ih =>
    rw [List.cons_append, ofLexemes_cons, ofLexemes_cons, ih]
    rcases consLexeme_parts first with ⟨byte, joins⟩ | ⟨other, _, makes⟩
    · rw [joins, joins, consWord_append _ _ apart]
    · rw [makes, makes, List.cons_append]

-- Conversely a token that is no word tells where the lexemes were split.
theorem ofLexemes_split (apart : token.isWord = false)
    (run : ofLexemes lexemes = earlier ++ token :: later) :
    ∃ front lexeme back, lexemes = front ++ lexeme :: back ∧ ofLexemes front = earlier ∧
      ofLexemes back = later ∧ ∀ rest, consLexeme lexeme rest = token :: rest := by
  induction lexemes generalizing earlier with
  | nil => simp [ofLexemes] at run
  | cons first lexemes ih =>
    rw [ofLexemes_cons] at run
    rcases consLexeme_parts first with ⟨byte, joins⟩ | ⟨other, _, makes⟩
    · rw [joins] at run
      obtain ⟨shorter, tail, rfl⟩ := consWord_split _ _ apart run
      obtain ⟨front, lexeme, back, rfl, rfl, rfl, alone⟩ := ih tail
      exact ⟨first :: front, lexeme, back, rfl, by rw [ofLexemes_cons, joins], rfl, alone⟩
    · rw [makes] at run
      cases earlier with
      | nil =>
        obtain ⟨rfl, rfl⟩ := List.cons.inj run
        exact ⟨[], first, lexemes, rfl, rfl, rfl, makes⟩
      | cons _ earlier =>
        obtain ⟨rfl, tail⟩ := List.cons.inj run
        obtain ⟨front, lexeme, back, rfl, rfl, rfl, alone⟩ := ih tail
        exact ⟨first :: front, lexeme, back, rfl, by rw [ofLexemes_cons, makes], rfl, alone⟩

theorem marks_consLexeme (lexeme : Lexeme) (rest : List Token) :
    marks (consLexeme lexeme rest) = (lexeme.place? Ascii.question).toList ++ marks rest := by
  unfold consLexeme Lexeme.place?
  cases plain : lexeme.plainByte? with
  | none => rfl
  | some byte =>
    simp only [Option.some.injEq]
    by_cases word : Ascii.isWord byte = true
    · have other : byte ≠ Ascii.question := by
        rintro rfl
        exact absurd word (by decide)
      rw [if_pos word, if_neg other, marks_consWord]
      rfl
    · rw [if_neg word]
      by_cases blank : Ascii.isBlank byte = true
      · have other : byte ≠ Ascii.question := by
          rintro rfl
          exact absurd blank (by decide)
        rw [if_pos blank, if_neg other]
        rfl
      · rw [if_neg blank]
        by_cases question : byte = Ascii.question <;> simp [marks, mark?, question]

-- The parameter marks of a text, read off its lexemes.
theorem marks_ofLexemes (lexemes : List Lexeme) :
    marks (ofLexemes lexemes) = Lexeme.placesOf Ascii.question lexemes := by
  induction lexemes with
  | nil => rfl
  | cons lexeme lexemes ih =>
    rw [ofLexemes_cons, marks_consLexeme, ih, Lexeme.placesOf, Lexeme.placesOf, List.filterMap_cons]
    cases lexeme.place? Ascii.question <;> rfl

end InsertBatch.Token
