import InsertBatch.Proofs.SolidTokens

namespace InsertBatch

namespace Lexer

theorem past?_first (inside : stop ∉ body) (rest : Bytes) :
    past? stop (body ++ stop :: rest) = some (body.length + 1) := by
  induction body with
  | nil => simp [past?]
  | cons byte body ih =>
    rw [List.mem_cons, not_or] at inside
    obtain ⟨other, inside⟩ := inside
    rw [List.cons_append, past?, if_neg (Ne.symm other), ih inside]
    rfl

theorem pastBlockEnd?_first (inside : ¬[Ascii.star, Ascii.slash] <:+: body) (rest : Bytes) :
    pastBlockEnd? (body ++ Ascii.star :: Ascii.slash :: rest) = some (body.length + 2) := by
  induction body with
  | nil => simp [pastBlockEnd?]
  | cons byte body ih =>
    have open_ : ¬(byte = Ascii.star ∧
        (body ++ Ascii.star :: Ascii.slash :: rest).head? = some Ascii.slash) := by
      intro closes
      obtain ⟨rfl, next⟩ := closes
      cases body with
      | nil => exact absurd next (by simp +decide)
      | cons first body =>
        cases next
        exact inside ⟨[], body, rfl⟩
    have later : ¬[Ascii.star, Ascii.slash] <:+: body := by
      intro found
      exact inside (found.trans (List.suffix_cons byte body).isInfix)
    rw [List.cons_append, pastBlockEnd?, if_neg open_, ih later]
    rfl

end Lexer

namespace Token
variable {rawBackslash : Bool} {start : Nat} {left right part rest opener body : Bytes}
  {tokens later : List Token} {token : Token} {lexemes : List Lexeme} {byte : UInt8}

-- From plain text a part of the text is read as these tokens, and what follows it as if it
-- stood alone.
structure Reads (rawBackslash : Bool) (start : Nat) (part rest : Bytes) (tokens : List Token) :
    Prop where
  made : ofLexemes (Lexeme.ofTextFrom rawBackslash .plain start (part ++ rest)) =
    tokens ++ ofLexemes (Lexeme.ofTextFrom rawBackslash .plain (start + part.length) rest)
  ends : Lexeme.endContext .plain (Lexeme.ofTextFrom rawBackslash .plain start (part ++ rest)) =
    Lexeme.endContext .plain (Lexeme.ofTextFrom rawBackslash .plain (start + part.length) rest)

theorem Reads.nil (start : Nat) (rest : Bytes) : Reads rawBackslash start [] rest [] :=
  ⟨rfl, rfl⟩

theorem Reads.append (first : Reads rawBackslash start left (right ++ rest) tokens)
    (second : Reads rawBackslash (start + left.length) right rest later) :
    Reads rawBackslash start (left ++ right) rest (tokens ++ later) := by
  constructor
  · rw [List.append_assoc, first.made, second.made, List.append_assoc, List.length_append,
      Nat.add_assoc]
  · rw [List.append_assoc, first.ends, second.ends, List.length_append, Nat.add_assoc]

theorem Reads.alone (reads : Reads rawBackslash 0 part [] tokens) :
    ofText rawBackslash part = tokens ∧ finalContext rawBackslash part = .plain := by
  obtain ⟨made, ends⟩ := reads
  have none : ofLexemes [] = [] := rfl
  rw [List.append_nil, Lexeme.ofTextFrom_nil] at made ends
  rw [none, List.append_nil] at made
  exact ⟨made, ends⟩

theorem reads_of_run
    (run : Lexeme.ofTextFrom rawBackslash .plain start (part ++ rest) =
      lexemes ++ Lexeme.ofTextFrom rawBackslash .plain (start + part.length) rest)
    (made : ofLexemes lexemes = tokens) (ends : Lexeme.endContext .plain lexemes = .plain)
    (apart : Lexeme.endsWord lexemes = true → rest.head?.any Ascii.isWord = false) :
    Reads rawBackslash start part rest tokens := by
  constructor
  · rw [run, ← made]
    apply ofLexemes_apart
    intro meet
    have behind := apart meet.1
    rw [Lexeme.startsWord_ofTextFrom, behind] at meet
    cases meet.2
  · rw [run, Lexeme.endContext_append, ends]

theorem reads_byte (inert : Lexer.Inert byte) (other : Ascii.isWord byte = false)
    (alone : consLexeme ⟨start, .plain, .plain, [byte]⟩ [] = [token]) (rest : Bytes) :
    Reads rawBackslash start [byte] rest [token] := by
  have run : Lexeme.ofTextFrom rawBackslash .plain start ([byte] ++ rest) =
      [⟨start, .plain, .plain, [byte]⟩] ++
        Lexeme.ofTextFrom rawBackslash .plain (start + 1) rest :=
    Lexeme.ofTextFrom_inert inert start rest
  apply reads_of_run run alone rfl
  intro word
  have single : Ascii.isWord byte = true := word
  rw [other] at single
  cases single

theorem reads_sign (inert : Lexer.Inert byte)
    (ordinary : Ascii.isWord byte = false ∧ Ascii.isBlank byte = false) (start : Nat)
    (rest : Bytes) : Reads rawBackslash start [byte] rest [.sign start byte] :=
  reads_byte inert ordinary.1 (consLexeme_sign rfl ordinary []) rest

theorem reads_blank (blank : Ascii.isBlank byte = true) (start : Nat) (rest : Bytes) :
    Reads rawBackslash start [byte] rest [.blank start byte] := by
  have other : Ascii.isWord byte = false := by
    apply Bool.eq_false_iff.mpr
    intro word
    rw [isBlank_of_isWord word] at blank
    cases blank
  exact reads_byte (blank_inert blank) other (consLexeme_blank rfl blank []) rest

-- A word is read whole where no word byte follows it.
theorem reads_word (filled : part ≠ []) (words : ∀ byte ∈ part, Ascii.isWord byte = true)
    (start : Nat) (apart : rest.head?.any Ascii.isWord = false) :
    Reads rawBackslash start part rest [.word start part] := by
  obtain ⟨byte, more, rfl⟩ := List.exists_cons_of_ne_nil filled
  obtain ⟨ends, all, text⟩ := Lexeme.ofTextFrom_word rawBackslash words start
  have seam : Lexer.Seam (byte :: more) rest := by
    rw [← List.dropLast_concat_getLast filled]
    have last := words _ (List.getLast_mem filled)
    exact (Lexeme.word_inert last).seam_after _ _
  apply reads_of_run
  · exact Lexeme.ofTextFrom_append ends seam
  · rw [Lexeme.ofTextFrom_inert (Lexeme.word_inert (words byte List.mem_cons_self))] at all text ⊢
    rw [ofLexemes_word all, text]
  · exact ends
  · intro _
    exact apart

-- What opens and closes some context is read as two turns.
theorem reads_enclosed (context : Context) (filled : opener ≠ []) (present : body ≠ [])
    (opens : ∀ rest, Lexer.plainStep (opener ++ rest) = ⟨context, opener.length⟩)
    (closes : ∀ rest, Lexer.step rawBackslash context (body ++ rest) = ⟨.plain, body.length⟩)
    (inside : context ≠ .plain) (start : Nat) (rest : Bytes) :
    Reads rawBackslash start (opener ++ body) rest
      [.turn ⟨start, .plain, context, opener⟩,
        .turn ⟨start + opener.length, context, .plain, body⟩] := by
  have first : ∀ place : Nat, Lexeme.plainByte? ⟨place, .plain, context, opener⟩ = none := by
    intro place
    rw [Lexeme.plainByte?, if_neg fun both => inside both.2]
  have second : ∀ place : Nat, Lexeme.plainByte? ⟨place, context, .plain, body⟩ = none := by
    intro place
    rw [Lexeme.plainByte?, if_neg fun both => inside both.1]
  have front : Lexer.step rawBackslash .plain (opener ++ (body ++ rest)) = _ := opens _
  have back := closes rest
  have run : Lexeme.ofTextFrom rawBackslash .plain start (opener ++ body ++ rest) =
      [⟨start, .plain, context, opener⟩, ⟨start + opener.length, context, .plain, body⟩] ++
        Lexeme.ofTextFrom rawBackslash .plain (start + (opener ++ body).length) rest := by
    rw [List.append_assoc, Lexeme.ofTextFrom_first filled (by rw [front]), front,
      Lexeme.ofTextFrom_first present (by rw [back]), back, List.length_append, ← Nat.add_assoc]
    rfl
  apply reads_of_run run
  · rw [ofLexemes_cons, consLexeme_turn (first start), ofLexemes_cons, consLexeme_turn (second _)]
    rfl
  · rfl
  · intro word
    have last : (Lexeme.mk (start + opener.length) context .plain body).isWordByte = true := word
    rw [Lexeme.isWordByte, second] at last
    cases last

def shift (offset : Nat) : Token → Token
  | .word start text => .word (start + offset) text
  | .sign start byte => .sign (start + offset) byte
  | .blank start byte => .blank (start + offset) byte
  | .turn lexeme => .turn (lexeme.shift offset)

theorem keyword?_shift (offset : Nat) (token : Token) :
    (token.shift offset).keyword? = token.keyword? := by
  cases token <;> rfl

theorem consLexeme_shift (offset : Nat) (lexeme : Lexeme) (rest : List Token) :
    consLexeme (lexeme.shift offset) (rest.map (shift offset)) =
      (consLexeme lexeme rest).map (shift offset) := by
  unfold consLexeme
  rw [Lexeme.shift_plainByte?]
  split
  · rfl
  · split
    · cases rest with
      | nil => rfl
      | cons token rest => cases token <;> rfl
    · split <;> rfl

theorem ofLexemes_shift (offset : Nat) (lexemes : List Lexeme) :
    ofLexemes (lexemes.map (Lexeme.shift offset)) = (ofLexemes lexemes).map (shift offset) := by
  induction lexemes with
  | nil => rfl
  | cons lexeme lexemes ih =>
    rw [List.map_cons, ofLexemes_cons, ih, consLexeme_shift, ofLexemes_cons]

-- Tokens that pass a test stand for this part of the text.
def Passes (rawBackslash : Bool) (test : Token → Prop) (start : Nat) (part rest : Bytes) : Prop :=
  ∃ tokens, Reads rawBackslash start part rest tokens ∧ ∀ token ∈ tokens, test token

variable {test other : Token → Prop}

theorem Reads.passes (reads : Reads rawBackslash start part rest tokens)
    (all : ∀ token ∈ tokens, test token) : Passes rawBackslash test start part rest :=
  ⟨tokens, reads, all⟩

theorem Reads.passes_one (reads : Reads rawBackslash start part rest [token]) (pass : test token) :
    Passes rawBackslash test start part rest := by
  apply reads.passes
  intro other member
  rw [List.mem_singleton.mp member]
  exact pass

theorem Passes.imp (passes : Passes rawBackslash test start part rest)
    (weaker : ∀ token, test token → other token) : Passes rawBackslash other start part rest := by
  obtain ⟨tokens, reads, all⟩ := passes
  exact ⟨tokens, reads, fun token member => weaker token (all token member)⟩

theorem Passes.append (first : Passes rawBackslash test start left (right ++ rest))
    (second : Passes rawBackslash test (start + left.length) right rest) :
    Passes rawBackslash test start (left ++ right) rest := by
  obtain ⟨tokens, reads, all⟩ := first
  obtain ⟨later, behind, others⟩ := second
  exact ⟨tokens ++ later, reads.append behind, List.forall_mem_append.mpr ⟨all, others⟩⟩

theorem passes_blanks (blank : ∀ byte ∈ part, Ascii.isBlank byte = true) (start : Nat)
    (rest : Bytes) : Passes rawBackslash (isBlank · = true) start part rest := by
  induction part generalizing start with
  | nil => exact (Reads.nil start rest).passes (by simp)
  | cons byte part ih =>
    obtain ⟨first, blank⟩ := List.forall_mem_cons.mp blank
    have here : Passes rawBackslash (isBlank · = true) start [byte] (part ++ rest) :=
      (reads_blank first start _).passes_one rfl
    exact here.append (ih blank (start + 1))

end Token
end InsertBatch
