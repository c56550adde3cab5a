import InsertBatch.Proofs.WordPlaces

namespace InsertBatch

namespace Lexer
variable {rawBackslash : Bool} {context : Context} {rest : Bytes} {length : Nat}

theorem past?_last (found : past? stop rest = some length) :
    (rest.take length).getLast? = some stop := by
  induction rest generalizing length with
  | nil => cases found
  | cons b rest ih =>
    simp only [past?] at found
    split at found
    · rename_i here
      cases found
      rw [here]
      rfl
    · obtain ⟨shorter, inside, rfl⟩ := Option.map_eq_some_iff.mp found
      rw [List.take_succ_cons, List.getLast?_cons, ih inside]
      rfl

theorem pastBlockEnd?_last (found : pastBlockEnd? rest = some length) :
    (rest.take length).getLast? = some Ascii.slash := by
  induction rest generalizing length with
  | nil => cases found
  | cons b rest ih =>
    simp only [pastBlockEnd?] at found
    split at found
    · rename_i closes
      cases found
      cases rest with
      | nil => simp at closes
      | cons next rest => simpa using closes.2
    · obtain ⟨shorter, inside, rfl⟩ := Option.map_eq_some_iff.mp found
      rw [List.take_succ_cons, List.getLast?_cons, ih inside]
      rfl

theorem stringStep_last (ends : (stringStep rawBackslash quote rest).after = .plain) :
    (rest.take (stringStep rawBackslash quote rest).length).getLast? = some quote.byte := by
  induction rest with
  | nil => cases ends
  | cons b rest ih =>
    simp only [stringStep] at ends ⊢
    split at ends
    · rename_i here
      rw [if_pos here, here]
      rfl
    · split at ends
      · cases ends
      · rename_i open_ raw
        rw [if_neg open_, if_neg raw, Step.advance, List.take_succ_cons, List.getLast?_cons,
          ih ends]
        rfl

-- Of all bodies only a line comment ends with a blank.
theorem step_last (inside : context ≠ .plain)
    (ends : (step rawBackslash context rest).after = .plain) :
    ∃ byte, (rest.take (step rawBackslash context rest).length).getLast? = some byte ∧
      (Ascii.isBlank byte = true → context = .lineComment) := by
  cases context with
  | plain => exact absurd rfl inside
  | string quote =>
    refine ⟨_, stringStep_last ends, fun blank => absurd blank ?_⟩
    cases quote <;> decide
  | escape quote => cases ends
  | identifier =>
    simp only [step] at ends ⊢
    cases found : past? Ascii.backtick rest with
    | none => simp [found, close] at ends
    | some length => exact ⟨_, past?_last found, fun blank => absurd blank (by decide)⟩
  | lineComment =>
    simp only [step] at ends ⊢
    cases found : past? Ascii.newline rest with
    | none => simp [found, close] at ends
    | some length => exact ⟨_, past?_last found, fun _ => trivial⟩
  | blockComment =>
    simp only [step] at ends ⊢
    cases found : pastBlockEnd? rest with
    | none => simp [found, close] at ends
    | some length => exact ⟨_, pastBlockEnd?_last found, fun blank => absurd blank (by decide)⟩

end Lexer

namespace Lexeme

-- The text starts here, or a blank, a plain parenthesis or a comment ends here.
inductive FreeAt (rawBackslash : Bool) (sql : Bytes) : Nat → Prop where
  | start : FreeAt rawBackslash sql 0
  | blank (found : sql[position]? = some byte) (blank : Ascii.isBlank byte = true) :
      FreeAt rawBackslash sql (position + 1)
  | paren (plain : PlainAt (ofText rawBackslash sql) position byte)
      (either : byte = Ascii.openParen ∨ byte = Ascii.closeParen) :
      FreeAt rawBackslash sql (position + 1)
  | comment (member : lexeme ∈ ofText rawBackslash sql) (inside : lexeme.before.isComment = true)
      (ends : lexeme.after = .plain) :
      FreeAt rawBackslash sql (lexeme.start + lexeme.text.length)

variable {rawBackslash : Bool} {position : Nat} {byte : UInt8} {lexeme : Lexeme}
  {front : List Lexeme} {left right sql : Bytes}

theorem text_filled (member : lexeme ∈ ofText rawBackslash sql) : 0 < lexeme.text.length := by
  obtain ⟨left, right, _, present, _, _, text⟩ := mem_parts member
  have bound := Lexer.step_length_le rawBackslash lexeme.before present
  rw [text, List.length_take_of_le bound]
  exact Lexer.step_length_pos _ _ present

theorem plain_text (member : lexeme ∈ ofText rawBackslash sql)
    (plain : lexeme.plainByte? = some byte) : lexeme.text = [byte] := by
  obtain ⟨earlier, later, split⟩ := List.append_of_mem member
  obtain ⟨_, _, _, _, _, rfl, _⟩ := split_plain split plain
  rfl

theorem mem_front (run : ofText rawBackslash (left ++ right) =
      ofText rawBackslash left ++ ofTextFrom rawBackslash .plain left.length right)
    (member : lexeme ∈ ofText rawBackslash (left ++ right)) (before : lexeme.start < left.length) :
    lexeme ∈ ofText rawBackslash left := by
  rw [run] at member
  rcases List.mem_append.mp member with inside | behind
  · exact inside
  · have bounds := start_bounds behind
    omega

theorem end_of_last (run : ofText rawBackslash left = front ++ [lexeme]) :
    lexeme.start + lexeme.text.length = left.length := by
  obtain ⟨_, _, rfl, _, rfl, _⟩ := split_last run
  rw [Nat.zero_add, List.length_append]

theorem last_of_end (member : lexeme ∈ ofText rawBackslash left)
    (ends : lexeme.start + lexeme.text.length = left.length) :
    ∃ front, ofText rawBackslash left = front ++ [lexeme] := by
  obtain ⟨earlier, later, run⟩ := List.append_of_mem member
  refine ⟨earlier, ?_⟩
  cases later with
  | nil => exact run
  | cons next later =>
    -- The next lexeme would start behind the end.
    rw [List.append_cons] at run
    obtain ⟨front, rest, rfl, present, same, _⟩ := split_step run
    have early := end_of_last same.symm
    have filled := List.length_pos_iff.mpr present
    rw [early, List.length_append] at ends
    omega

theorem ofText_ne_nil (present : left ≠ []) : ofText rawBackslash left ≠ [] := by
  rw [ofText, ofTextFrom_step present]
  exact List.cons_ne_nil _ _

-- The last lexeme of a text that ends plain: its last byte, or the end of a body.
theorem last_lexeme (present : left ≠ []) (plain : finalContext rawBackslash left = .plain) :
    ∃ front lexeme byte, ofText rawBackslash left = front ++ [lexeme] ∧
      left.getLast? = some byte ∧ (lexeme.plainByte? = some byte ∨
        lexeme.plainByte? = none ∧ lexeme.after = .plain ∧
          (Ascii.isBlank byte = true → lexeme.before = .lineComment)) := by
  rcases List.eq_nil_or_concat (ofText rawBackslash left) with empty | ⟨front, lexeme, run⟩
  · exact absurd empty (ofText_ne_nil present)
  · rw [List.concat_eq_append] at run
    have after : lexeme.after = .plain := by
      rw [finalContext, run, endContext_append] at plain
      exact plain
    obtain ⟨before, rest, rfl, nonempty, rfl, whole⟩ := split_last run
    have last : (before ++ rest).getLast? = rest.getLast? := by
      rw [List.getLast?_append, List.getLast?_eq_some_getLast nonempty, Option.some_or]
    by_cases inside : endContext .plain front = .plain
    · obtain ⟨byte, rest, rfl⟩ := List.exists_cons_of_ne_nil nonempty
      rw [inside] at after whole
      rw [Lexer.step, Lexer.plainStep_plain after, List.take_succ_cons, List.take_zero] at whole
      cases whole
      refine ⟨front, _, byte, run, last, .inl ?_⟩
      rw [plainByte?, if_pos ⟨inside, by rw [inside]; exact after⟩]
      rfl
    · obtain ⟨byte, ends, blank⟩ := Lexer.step_last inside after
      rw [whole] at ends
      refine ⟨front, _, byte, run, last.trans ends, .inr ⟨?_, after, blank⟩⟩
      rw [plainByte?, if_neg fun both => inside both.1]

end Lexeme

namespace Token
variable {rawBackslash : Bool} {lexeme : Lexeme} {front : List Lexeme} {left right : Bytes}
  {token : Token}

theorem blank_consLexeme (made : consLexeme lexeme [] = [.blank place byte]) :
    lexeme.plainByte? = some byte ∧ Ascii.isBlank byte = true := by
  rcases consLexeme_nil lexeme with ⟨_, single⟩ | ⟨found, plain, ⟨_, single⟩ | ⟨blank, single⟩ |
    ⟨_, single⟩⟩
  all_goals
    rw [single] at made
    cases made
  exact ⟨plain, blank⟩

theorem turn_consLexeme (made : consLexeme lexeme [] = [.turn other]) : lexeme = other := by
  rcases consLexeme_nil lexeme with ⟨_, single⟩ | ⟨_, _, ⟨_, single⟩ | ⟨_, single⟩ | ⟨_, single⟩⟩
  all_goals
    rw [single] at made
    cases made
  rfl

theorem consLexeme_blank (plain : lexeme.plainByte? = some byte) (blank : Ascii.isBlank byte = true)
    (rest : List Token) : consLexeme lexeme rest = .blank lexeme.start byte :: rest := by
  have other : Ascii.isWord byte = false := by
    refine Bool.eq_false_iff.mpr fun word => ?_
    rw [isBlank_of_isWord word] at blank
    cases blank
  simp [consLexeme, plain, other, blank]

theorem consLexeme_turn (turns : lexeme.plainByte? = none) (rest : List Token) :
    consLexeme lexeme rest = .turn lexeme :: rest := by
  simp [consLexeme, turns]

-- The last token, if it is no word, is made by the last lexeme.
theorem last_token (made : ofText rawBackslash left = before ++ [token])
    (apart : token.isWord = false) :
    ∃ front lexeme, Lexeme.ofText rawBackslash left = front ++ [lexeme] ∧
      ∀ rest, consLexeme lexeme rest = token :: rest := by
  obtain ⟨front, lexeme, back, run, _, empty, alone⟩ := ofLexemes_split apart made
  have none : back = [] := by
    cases back with
    | nil => rfl
    | cons other back => exact absurd empty (ofLexemes_ne_nil (by simp))
  exact ⟨front, lexeme, by rw [run, none], alone⟩

theorem ofText_last (run : Lexeme.ofText rawBackslash left = front ++ [lexeme])
    (alone : ∀ rest, consLexeme lexeme rest = token :: rest) (apart : token.isWord = false) :
    ofText rawBackslash left = ofLexemes front ++ [token] := by
  rw [ofText, run, ofLexemes_append alone apart]
  rfl

-- What the tokens before a place of plain text tell of the byte before it.
theorem Free.freeAt
    (run : Lexeme.ofText rawBackslash (left ++ right) = Lexeme.ofText rawBackslash left ++
      Lexeme.ofTextFrom rawBackslash .plain left.length right)
    (free : Free (ofText rawBackslash left)) :
    Lexeme.FreeAt rawBackslash (left ++ right) left.length := by
  generalize made : ofText rawBackslash left = tokens at free
  cases free with
  | start =>
    have none : left = [] := by
      refine Classical.byContradiction fun present => ?_
      exact ofLexemes_ne_nil (Lexeme.ofText_ne_nil present) made
    rw [none]
    exact .start
  | blank =>
    obtain ⟨front, lexeme, run, alone⟩ := last_token made rfl
    obtain ⟨plain, blank⟩ := blank_consLexeme (alone [])
    obtain ⟨front, rfl, _⟩ := Lexeme.last_plain run plain
    rw [List.length_append]
    exact .blank (by simp) blank
  | paren either =>
    obtain ⟨front, lexeme, lastRun, alone⟩ := last_token made rfl
    obtain ⟨_, plain⟩ := sign_consLexeme (alone [])
    obtain ⟨front, rfl, here⟩ := Lexeme.last_plain lastRun plain
    rw [List.length_append]
    refine .paren ⟨lexeme, ?_, by rw [here, Nat.zero_add], plain⟩ either
    rw [run, lastRun]
    simp
  | comment inside after =>
    obtain ⟨front, lexeme, lastRun, alone⟩ := last_token made rfl
    obtain rfl := turn_consLexeme (alone [])
    rw [← Lexeme.end_of_last lastRun]
    refine .comment ?_ inside after
    rw [run, lastRun]
    simp

theorem Free.of_freeAt (ends : finalContext rawBackslash left = .plain)
    (run : Lexeme.ofText rawBackslash (left ++ right) = Lexeme.ofText rawBackslash left ++
      Lexeme.ofTextFrom rawBackslash .plain left.length right)
    (free : Lexeme.FreeAt rawBackslash (left ++ right) left.length) :
    Free (ofText rawBackslash left) := by
  generalize here : left.length = place at free
  cases free with
  | start =>
    obtain rfl := List.length_eq_zero_iff.mp here
    rw [ofText, Lexeme.ofText, Lexeme.ofTextFrom_nil]
    exact .start
  | @blank position byte found blank =>
    -- The blank is a plain byte, or the newline that closes a line comment.
    have present : left ≠ [] := by
      rintro rfl
      cases here
    obtain ⟨front, lexeme, last, lastRun, byteLast, shape⟩ := Lexeme.last_lexeme present ends
    have same : last = byte := by
      rw [List.getElem?_append_left (by omega)] at found
      rw [List.getLast?_eq_getElem?, here, Nat.add_sub_cancel, found, Option.some.injEq] at byteLast
      exact byteLast.symm
    subst same
    rcases shape with plain | ⟨turns, after, comment⟩
    · rw [ofText_last lastRun (consLexeme_blank plain blank) rfl]
      exact .blank
    · rw [ofText_last lastRun (consLexeme_turn turns) rfl]
      exact .comment (by rw [comment blank]; rfl) after
  | @paren position byte plain either =>
    obtain ⟨lexeme, member, rfl, plain⟩ := plain
    have text := Lexeme.plain_text member plain
    have inside := Lexeme.mem_front run member (by omega)
    obtain ⟨front, lastRun⟩ := Lexeme.last_of_end inside (by simpa [text] using here.symm)
    have sign : ∀ rest, consLexeme lexeme rest = .sign lexeme.start byte :: rest :=
      consLexeme_sign plain (by rcases either with rfl | rfl <;> decide)
    rw [ofText_last lastRun sign rfl]
    exact .paren either
  | @comment lexeme member inside after =>
    have filled := Lexeme.text_filled member
    have last := Lexeme.mem_front run member (by omega)
    obtain ⟨front, lastRun⟩ := Lexeme.last_of_end last here.symm
    have turns : lexeme.plainByte? = none := by
      rw [Lexeme.plainByte?, if_neg]
      rintro ⟨plain, _⟩
      rw [plain] at inside
      cases inside
    rw [ofText_last lastRun (consLexeme_turn turns) rfl]
    exact .comment inside after

theorem free_iff (ends : finalContext rawBackslash left = .plain)
    (run : Lexeme.ofText rawBackslash (left ++ right) = Lexeme.ofText rawBackslash left ++
      Lexeme.ofTextFrom rawBackslash .plain left.length right) :
    Free (ofText rawBackslash left) ↔ Lexeme.FreeAt rawBackslash (left ++ right) left.length :=
  ⟨Free.freeAt run, Free.of_freeAt ends run⟩

theorem blank_inert (blank : Ascii.isBlank byte = true) : Lexer.Inert byte :=
  .of_test Ascii.isBlank (by decide) blank

end Token
end InsertBatch
