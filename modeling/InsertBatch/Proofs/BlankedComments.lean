import InsertBatch.Proofs.SolidTokens

namespace InsertBatch

-- What a context becomes once comments are blanks.
def Context.outside (context : Context) : Context :=
  if context.isComment then .plain else context

theorem Context.outside_plain {context : Context}
    (either : context = .plain ∨ context.isComment = true) : context.outside = .plain := by
  cases either with
  | inl plain => rw [plain]; rfl
  | inr comment => rw [outside, if_pos comment]

theorem Context.outside_self {context : Context} (outside : context.isComment = false) :
    context.outside = context := by
  rw [Context.outside, outside]
  rfl

namespace Lexeme

-- Of a comment, the bytes that open and close it included.
def inComment (lexeme : Lexeme) : Bool := lexeme.before.isComment || lexeme.after.isComment

-- A space for each byte of a comment, and any other text as it is.
def blanked (lexeme : Lexeme) : Bytes :=
  if lexeme.inComment then List.replicate lexeme.text.length Ascii.space else lexeme.text

def blanks (start count : Nat) : List Lexeme :=
  (List.range' start count).map fun place => ⟨place, .plain, .plain, [Ascii.space]⟩

def asBlanks (lexeme : Lexeme) : List Lexeme :=
  if lexeme.inComment then blanks lexeme.start lexeme.text.length else [lexeme]

end Lexeme

-- The text with a space in place of each byte of a comment.
def blankComments (rawBackslash : Bool) (sql : Bytes) : Bytes :=
  (Lexeme.ofText rawBackslash sql).flatMap Lexeme.blanked

theorem Lexer.outside_comment {rawBackslash : Bool} {context : Context} {rest : Bytes}
    (comment : (context.isComment || (step rawBackslash context rest).after.isComment) = true) :
    context.outside = .plain ∧ (step rawBackslash context rest).after.outside = .plain := by
  cases opened : (step rawBackslash context rest).after.isComment with
  | true =>
    refine ⟨Context.outside_plain ?_, Context.outside_plain (.inr opened)⟩
    apply (comment_before opened).imp_right
    intro same
    rw [same]
    exact opened
  | false =>
    have inside : context.isComment = true := by simpa [opened] using comment
    refine ⟨Context.outside_plain (.inr inside), Context.outside_plain ?_⟩
    apply (comment_after inside).imp_right
    intro same
    rw [same]
    exact inside

namespace Lexeme
variable {rawBackslash : Bool} {context : Context} {first more : Bytes}

theorem ofTextFrom_blanks (rawBackslash : Bool) (start count : Nat) (rest : Bytes) :
    ofTextFrom rawBackslash .plain start (List.replicate count Ascii.space ++ rest) =
      blanks start count ++ ofTextFrom rawBackslash .plain (start + count) rest := by
  induction count generalizing start with
  | zero => rfl
  | succ count ih =>
    rw [List.replicate_succ, List.cons_append, ofTextFrom_inert (by decide), ih, Nat.add_assoc,
      Nat.add_comm 1]
    rfl

-- The first byte is the same or has become a space.
theorem head_blanked (rawBackslash : Bool) (context : Context) (start : Nat) (rest : Bytes) :
    ((ofTextFrom rawBackslash context start rest).flatMap blanked).head? = rest.head? ∨
      ((ofTextFrom rawBackslash context start rest).flatMap blanked).head? = some Ascii.space := by
  by_cases none : rest = []
  · rw [none, ofTextFrom_nil]
    exact .inl rfl
  · obtain ⟨first, more, rfl, filled, taken⟩ := step_cut rawBackslash context none
    obtain ⟨byte, first, rfl⟩ := List.exists_cons_of_ne_nil filled
    rw [ofTextFrom_first (by simp) taken, List.flatMap_cons]
    unfold blanked
    split
    · exact .inr rfl
    · exact .inl rfl

-- A space completes no opener of two bytes that was not there before.
theorem seam_blanked {byte : UInt8} (more : Bytes)
    (leaves : (Lexer.plainStep (byte :: more)).after.isComment = false)
    (rawBackslash : Bool) (context : Context) (start : Nat) :
    Lexer.Seam [byte] ((ofTextFrom rawBackslash context start more).flatMap blanked) := by
  cases head_blanked rawBackslash context start more with
  | inl same =>
    rw [Lexer.Seam, same]
    exact Lexer.seam_of_plainStep leaves
  | inr space =>
    rw [Lexer.Seam, space]
    simp +decide

-- No step outside of comments tells what has become of the comments behind it.
theorem step_blanked (start : Nat) (present : first ≠ [])
    (taken : (Lexer.step rawBackslash context (first ++ more)).length = first.length)
    (leaves : (Lexer.step rawBackslash context (first ++ more)).after.isComment = false) :
    Lexer.step rawBackslash context (first ++
        (ofTextFrom rawBackslash (Lexer.step rawBackslash context (first ++ more)).after start
          more).flatMap blanked) =
      Lexer.step rawBackslash context (first ++ more) := by
  have front := Lexer.step_of_append present (Nat.le_of_eq taken)
  by_cases inside : context = .plain
  · subst inside
    obtain ⟨byte, first, rfl⟩ := List.exists_cons_of_ne_nil present
    have single : (Lexer.step rawBackslash .plain (byte :: first ++ more)).length = 1 :=
      Lexer.plainStep_single leaves
    rw [taken] at single
    obtain rfl : first = [] := List.length_eq_zero_iff.mp (Nat.succ.inj single)
    have seam := seam_blanked more leaves rawBackslash
      (Lexer.step rawBackslash .plain ([byte] ++ more)).after start
    rw [Lexer.step_append present seam (.inl rfl), front]
  · by_cases same : (Lexer.step rawBackslash context (first ++ more)).after = context
    · have whole := Lexer.step_open inside same
      rw [taken, List.length_append] at whole
      obtain rfl : more = [] := List.length_eq_zero_iff.mp (by omega)
      rw [ofTextFrom_nil, List.flatMap_nil]
    · rw [← front] at same
      rw [Lexer.step_append_inside inside same, front]

-- Lexed again, the text with its comments blanked gives the same lexemes outside of them.
theorem ofTextFrom_blanked (rawBackslash : Bool) (context : Context) (start : Nat)
    (rest : Bytes) :
    ofTextFrom rawBackslash context.outside start
        ((ofTextFrom rawBackslash context start rest).flatMap blanked) =
      (ofTextFrom rawBackslash context start rest).flatMap asBlanks := by
  fun_induction ofTextFrom rawBackslash context start rest with
  | case1 => exact ofTextFrom_nil
  | case2 context start rest present step ih =>
    obtain ⟨first, more, rfl, filled, taken⟩ := step_cut rawBackslash context present
    have length : step.length = first.length := taken
    rw [length, List.drop_left] at ih
    rw [length, List.take_left, List.drop_left, List.flatMap_cons, List.flatMap_cons, ← ih]
    cases comment : (context.isComment || step.after.isComment) with
    | true =>
      obtain ⟨before, after⟩ := Lexer.outside_comment comment
      rw [before, after]
      simp only [blanked, asBlanks, inComment, comment, if_true]
      exact ofTextFrom_blanks _ _ _ _
    | false =>
      obtain ⟨outside, leaves⟩ := Bool.or_eq_false_iff.mp comment
      have same := step_blanked (start + first.length) filled taken leaves
      rw [Context.outside_self outside, Context.outside_self leaves]
      simp only [blanked, asBlanks, inComment, comment, Bool.false_eq_true, if_false]
      rw [ofTextFrom_first filled ((congrArg Lexer.Step.length same).trans taken), same]
      rfl

theorem endContext_blanks (start count : Nat) :
    endContext .plain (blanks start count) = .plain := by
  induction count generalizing start with
  | zero => rfl
  | succ count ih => exact ih (start + 1)

theorem endContext_blanked (rawBackslash : Bool) (context : Context) (start : Nat)
    (rest : Bytes) :
    endContext context.outside ((ofTextFrom rawBackslash context start rest).flatMap asBlanks) =
      (endContext context (ofTextFrom rawBackslash context start rest)).outside := by
  fun_induction ofTextFrom rawBackslash context start rest with
  | case1 => rfl
  | case2 context start rest present step ih =>
    rw [List.flatMap_cons, endContext_append, endContext_cons, ← ih]
    congr 1
    cases comment : (context.isComment || step.after.isComment) with
    | true =>
      obtain ⟨before, after⟩ := Lexer.outside_comment comment
      rw [before, after]
      simp only [asBlanks, inComment, comment, if_true]
      exact endContext_blanks _ _
    | false =>
      rw [Context.outside_self (Bool.or_eq_false_iff.mp comment).2]
      simp only [asBlanks, inComment, comment, Bool.false_eq_true, if_false]
      rfl

end Lexeme

theorem finalContext_blanked (rawBackslash : Bool) (sql : Bytes) :
    finalContext rawBackslash (blankComments rawBackslash sql) =
      (finalContext rawBackslash sql).outside := by
  have same := Lexeme.ofTextFrom_blanked rawBackslash .plain 0 sql
  have ends := Lexeme.endContext_blanked rawBackslash .plain 0 sql
  rw [← same] at ends
  exact ends

namespace Token
variable {rawBackslash : Bool} {token : Token} {lexeme : Lexeme} {lexemes : List Lexeme}
  {tokens before behind : List Token} {place : Nat} {sql : Bytes}

def blanks (start count : Nat) : List Token :=
  (List.range' start count).map fun place => .blank place Ascii.space

-- A comment becomes as many blanks as it has bytes.
def asBlanks : Token → List Token
  | .turn lexeme =>
    if lexeme.inComment then blanks lexeme.start lexeme.text.length else [.turn lexeme]
  | token => [token]

theorem asBlanks_kept (kept : token.isBlankOrComment = false) : asBlanks token = [token] := by
  cases token with
  | turn lexeme =>
    have outside : lexeme.inComment = false := kept
    simp [asBlanks, outside]
  | word start text | sign start byte | blank start byte => rfl

theorem mem_blanks {start count : Nat} (member : token ∈ blanks start count) :
    token.isBlank = true := by
  obtain ⟨place, _, rfl⟩ := List.mem_map.mp member
  rfl

theorem asBlanks_skipped (skipped : token.isBlankOrComment = true) :
    ∀ other ∈ asBlanks token, other.isBlank = true := by
  intro other member
  cases token with
  | word start text | sign start byte => cases skipped
  | blank start byte =>
    rw [List.mem_singleton.mp member]
    rfl
  | turn lexeme =>
    have inside : lexeme.inComment = true := skipped
    simp only [asBlanks, inside, if_true] at member
    exact mem_blanks member

theorem skipped_of_isBlank (blank : token.isBlank = true) : token.isBlankOrComment = true := by
  cases token with
  | blank start byte => rfl
  | word start text | sign start byte | turn lexeme => cases blank

theorem skipped_of_asBlanks (blanks : ∀ other ∈ asBlanks token, other.isBlank = true) :
    token.isBlankOrComment = true := by
  cases skipped : token.isBlankOrComment with
  | true => rfl
  | false =>
    rw [asBlanks_kept skipped] at blanks
    have kept := skipped_of_isBlank (blanks token List.mem_cons_self)
    rw [skipped] at kept
    cases kept

theorem solid_asBlanks (tokens : List Token) : solid (tokens.flatMap asBlanks) = solid tokens := by
  induction tokens with
  | nil => rfl
  | cons token rest ih =>
    rw [List.flatMap_cons, solid_append, ih]
    cases skipped : token.isBlankOrComment with
    | true =>
      have none : solid (asBlanks token) = [] := by
        apply List.filter_eq_nil_iff.mpr
        intro other member
        simp [skipped_of_isBlank (asBlanks_skipped skipped other member)]
      rw [none, solid_skip skipped]
      rfl
    | false =>
      rw [asBlanks_kept skipped, solid_keep skipped, solid_keep skipped]
      rfl

-- Any token but a blank is found again between the same neighbours.
theorem asBlanks_split (kept : token.isBlankOrComment = false)
    (made : tokens.flatMap asBlanks = before ++ token :: behind) :
    ∃ front back, tokens = front ++ token :: back ∧ front.flatMap asBlanks = before ∧
      back.flatMap asBlanks = behind := by
  induction tokens generalizing before with
  | nil => simp at made
  | cons first rest ih =>
    rw [List.flatMap_cons] at made
    cases skipped : first.isBlankOrComment with
    | true =>
      have later : ∃ more, before = asBlanks first ++ more ∧
          rest.flatMap asBlanks = more ++ token :: behind := by
        rcases List.append_eq_append_iff.mp made with ⟨more, longer, tail⟩ | ⟨more, shorter, tail⟩
        · exact ⟨more, longer, tail⟩
        · cases more with
          | nil => exact ⟨[], by simpa using shorter.symm, tail.symm⟩
          | cons head more =>
            -- The token would stand among the blanks.
            obtain ⟨rfl, _⟩ := List.cons.inj tail
            have inside : token ∈ asBlanks first := by simp [shorter]
            rw [skipped_of_isBlank (asBlanks_skipped skipped token inside)] at kept
            cases kept
      obtain ⟨more, rfl, tail⟩ := later
      obtain ⟨front, back, rfl, rfl, rfl⟩ := ih tail
      exact ⟨first :: front, back, rfl, List.flatMap_cons, rfl⟩
    | false =>
      rw [asBlanks_kept skipped, List.singleton_append] at made
      cases before with
      | nil =>
        obtain ⟨rfl, rfl⟩ := List.cons.inj made
        exact ⟨[], rest, rfl, rfl, rfl⟩
      | cons head before =>
        obtain ⟨rfl, tail⟩ := List.cons.inj made
        obtain ⟨front, back, rfl, rfl, rfl⟩ := ih tail
        refine ⟨first :: front, back, rfl, ?_, rfl⟩
        rw [List.flatMap_cons, asBlanks_kept skipped]
        rfl

theorem ofLexemes_blanks (start count : Nat) (lexemes : List Lexeme) :
    ofLexemes (Lexeme.blanks start count ++ lexemes) = blanks start count ++ ofLexemes lexemes := by
  induction count generalizing start with
  | zero => rfl
  | succ count ih =>
    change consLexeme ⟨start, .plain, .plain, [Ascii.space]⟩
      (ofLexemes (Lexeme.blanks (start + 1) count ++ lexemes)) = _
    rw [ih]
    rfl

theorem mem_of_turn (member : .turn lexeme ∈ ofLexemes lexemes) : lexeme ∈ lexemes := by
  obtain ⟨before, behind, made⟩ := List.append_of_mem member
  obtain ⟨front, first, back, rfl, _, _, alone⟩ := ofLexemes_split rfl made
  rw [turn_consLexeme (alone [])]
  simp

theorem consWord_asBlanks (start : Nat) (byte : UInt8)
    (filled : ∀ lexeme, .turn lexeme ∈ tokens → lexeme.text ≠ []) :
    consWord start byte (tokens.flatMap asBlanks) =
      (consWord start byte tokens).flatMap asBlanks := by
  cases tokens with
  | nil => rfl
  | cons token rest =>
    cases token with
    | word place text | sign place other | blank place other => rfl
    | turn lexeme =>
      have apart : ((Token.turn lexeme :: rest).flatMap asBlanks).head?.any isWord = false := by
        obtain ⟨first, text, some⟩ :=
          List.exists_cons_of_ne_nil (filled lexeme List.mem_cons_self)
        cases comment : lexeme.inComment with
        | true =>
          simp only [List.flatMap_cons, asBlanks, comment, if_true, some]
          rfl
        | false =>
          simp only [List.flatMap_cons, asBlanks, comment]
          rfl
      rw [consWord_fresh apart]
      rfl

theorem consLexeme_asBlanks (outside : lexeme.inComment = false)
    (filled : ∀ lexeme, .turn lexeme ∈ tokens → lexeme.text ≠ []) :
    consLexeme lexeme (tokens.flatMap asBlanks) = (consLexeme lexeme tokens).flatMap asBlanks := by
  have kept : (Token.turn lexeme).isBlankOrComment = false := outside
  unfold consLexeme
  split
  · rw [List.flatMap_cons, asBlanks_kept kept]
    rfl
  · split
    · exact consWord_asBlanks _ _ filled
    · split <;> rfl

-- Blanks part words as comments do.
theorem ofLexemes_asBlanks (filled : ∀ lexeme ∈ lexemes, lexeme.text ≠ []) :
    ofLexemes (lexemes.flatMap Lexeme.asBlanks) = (ofLexemes lexemes).flatMap asBlanks := by
  induction lexemes with
  | nil => rfl
  | cons lexeme rest ih =>
    obtain ⟨_, filled⟩ := List.forall_mem_cons.mp filled
    rw [List.flatMap_cons, ofLexemes_cons]
    cases comment : lexeme.inComment with
    | true =>
      have turns : lexeme.plainByte? = none := by
        apply Option.eq_none_iff_forall_ne_some.mpr
        intro byte plain
        obtain ⟨before, after⟩ := Lexeme.plainByte?_contexts plain
        simp [Lexeme.inComment, before, after, Context.isComment] at comment
      rw [consLexeme_turn turns, List.flatMap_cons, Lexeme.asBlanks, asBlanks]
      simp only [comment, if_true]
      rw [ofLexemes_blanks, ih filled]
    | false =>
      rw [Lexeme.asBlanks]
      simp only [comment, Bool.false_eq_true, if_false, List.singleton_append]
      rw [ofLexemes_cons, ih filled]
      apply consLexeme_asBlanks comment
      intro other member
      exact filled other (mem_of_turn member)

theorem ofText_blanked (rawBackslash : Bool) (sql : Bytes) :
    ofText rawBackslash (blankComments rawBackslash sql) =
      (ofText rawBackslash sql).flatMap asBlanks := by
  have lexed : Lexeme.ofText rawBackslash (blankComments rawBackslash sql) =
      (Lexeme.ofText rawBackslash sql).flatMap Lexeme.asBlanks :=
    Lexeme.ofTextFrom_blanked rawBackslash .plain 0 sql
  rw [ofText, lexed]
  apply ofLexemes_asBlanks
  intro lexeme member
  exact List.length_pos_iff.mp (Lexeme.text_filled member)

-- A turn just before a word has come back to plain text.
theorem turn_before_word (made : ofText rawBackslash sql = before ++ .word place text :: behind)
    (last : before.getLast? = some (.turn lexeme)) :
    lexeme.after = .plain ∧ lexeme.text ≠ [] := by
  obtain ⟨left, right, rfl, rfl, between, rfl, _⟩ := between_of_word made
  obtain ⟨front, split⟩ := List.getLast?_eq_some_iff.mp last
  obtain ⟨earlier, other, run, alone⟩ := last_token split rfl
  obtain rfl := turn_consLexeme (alone [])
  have ends := between.ends
  rw [finalContext, run, Lexeme.endContext_append] at ends
  have member : other ∈ Lexeme.ofText rawBackslash left := by
    rw [run]
    simp
  exact ⟨ends, List.length_pos_iff.mp (Lexeme.text_filled member)⟩

theorem asBlanks_ne_nil (filled : ∀ lexeme, token = .turn lexeme → lexeme.text ≠ []) :
    asBlanks token ≠ [] := by
  cases token with
  | word start text | sign start byte | blank start byte => exact List.cons_ne_nil _ _
  | turn lexeme =>
    obtain ⟨first, text, some⟩ := List.exists_cons_of_ne_nil (filled lexeme rfl)
    simp only [asBlanks, some]
    split
    · exact List.cons_ne_nil _ _
    · exact List.cons_ne_nil _ _

theorem startsClause_skipped (skipped : token.isBlankOrComment = true)
    (shut : ∀ lexeme, token = .turn lexeme → lexeme.after = .plain) :
    Classification.startsClause (some token) = true := by
  cases token with
  | blank start byte => rfl
  | word start text | sign start byte => cases skipped
  | turn lexeme =>
    have after := shut lexeme rfl
    have inside : lexeme.before.isComment = true := by
      simpa [isBlankOrComment, after, Context.isComment] using skipped
    simp [Classification.startsClause, Lexeme.closesComment, inside, after, Context.isPlain]

-- A clause may start behind a comment as it may behind the blanks in its place.
theorem free_asBlanks (shut : ∀ lexeme, before.getLast? = some (.turn lexeme) →
      lexeme.after = .plain ∧ lexeme.text ≠ []) :
    Free (before.flatMap asBlanks) ↔ Free before := by
  rw [← Classification.startsClause_free, ← Classification.startsClause_free]
  cases List.eq_nil_or_concat before with
  | inl none => rw [none, List.flatMap_nil]
  | inr some =>
    obtain ⟨front, token, rfl⟩ := some
    rw [List.concat_eq_append, List.getLast?_concat] at shut
    rw [List.concat_eq_append, List.flatMap_append, List.flatMap_singleton, List.getLast?_concat]
    cases skipped : token.isBlankOrComment with
    | false => rw [asBlanks_kept skipped, List.getLast?_concat]
    | true =>
      have present : asBlanks token ≠ [] := by
        apply asBlanks_ne_nil
        intro lexeme same
        exact (shut lexeme (congrArg Option.some same)).2
      have blank := asBlanks_skipped skipped _ (List.getLast_mem present)
      rw [List.getLast?_append, List.getLast?_eq_some_getLast present, Option.some_or]
      apply iff_of_true
      · apply startsClause_skipped (skipped_of_isBlank blank)
        intro lexeme same
        rw [same] at blank
        cases blank
      · apply startsClause_skipped skipped
        intro lexeme same
        exact (shut lexeme (congrArg Option.some same)).1

-- The lists across blanks alone are, once comments are blanked, the lists across both.
theorem listAt_blanked (rawBackslash : Bool) (sql : Bytes) (place opens : Nat) :
    ListAt isBlank (ofText rawBackslash (blankComments rawBackslash sql)) place opens ↔
      ListAt isBlankOrComment (ofText rawBackslash sql) place opens := by
  rw [ofText_blanked]
  constructor
  · intro found
    obtain ⟨before, text, behind, rest, made, free, named, between, across, gap⟩ := found
    obtain ⟨before, behind, split, rfl, rfl⟩ := asBlanks_split rfl made
    obtain ⟨between, rest, rfl, rfl, rfl⟩ := asBlanks_split rfl across
    refine ⟨before, text, _, rest, split, ?_, named, between, rfl, ?_⟩
    · exact (free_asBlanks fun _ => turn_before_word split).mp free
    · intro token member
      apply skipped_of_asBlanks
      intro other inside
      exact gap other (List.mem_flatMap.mpr ⟨token, member, inside⟩)
  · intro found
    obtain ⟨before, text, behind, rest, split, free, named, between, rfl, gap⟩ := found
    refine ⟨before.flatMap asBlanks, text, _, rest.flatMap asBlanks, ?_, ?_, named,
      between.flatMap asBlanks, rfl, ?_⟩
    · rw [split, List.flatMap_append, List.flatMap_cons, List.flatMap_append, List.flatMap_cons]
      rfl
    · exact (free_asBlanks fun _ => turn_before_word split).mpr free
    · intro other inside
      obtain ⟨token, member, inside⟩ := List.mem_flatMap.mp inside
      exact asBlanks_skipped (gap token member) other inside

-- No comment parts the first VALUES or VALUE that blanks and comments lead from to a
-- parenthesis from that parenthesis.
def Undivided (rawBackslash : Bool) (sql : Bytes) : Prop :=
  ∀ place opens, ListAt isBlankOrComment (ofText rawBackslash sql) place opens →
    (∀ other next, ListAt isBlankOrComment (ofText rawBackslash sql) other next → place ≤ other) →
    ListAt isBlank (ofText rawBackslash sql) place opens

end Token

namespace Statement
open Token (ListAt Undivided)
variable {rawBackslash : Bool} {sql : Bytes} {tokens : List Token} {place opens : Nat}

theorem tupleOpen_listAt (rawBackslash : Bool) (sql : Bytes) (opens : Nat) :
    (analyze rawBackslash sql).classification.tupleOpen = some opens ↔
      ∃ place, ListAt Token.isBlank (Token.ofText rawBackslash sql) place opens ∧
        ∀ other next, ListAt Token.isBlank (Token.ofText rawBackslash sql) other next →
          place ≤ other := by
  rw [Classification.tupleOpen_iff]
  constructor
  · intro found
    obtain ⟨place, stop, declares, first⟩ := found
    refine ⟨place, declares.listAt, ?_⟩
    intro other next candidate
    obtain ⟨last, declared⟩ := Classification.declares_of_listAt candidate
    exact first other last next declared
  · intro found
    obtain ⟨place, list, first⟩ := found
    obtain ⟨stop, declares⟩ := Classification.declares_of_listAt list
    refine ⟨place, stop, declares, ?_⟩
    intro other last next declared
    exact first other next declared.listAt

theorem tupleOpen_blanked (rawBackslash : Bool) (sql : Bytes) (opens : Nat) :
    (analyze rawBackslash (blankComments rawBackslash sql)).classification.tupleOpen =
        some opens ↔
      ∃ place, ListAt Token.isBlankOrComment (Token.ofText rawBackslash sql) place opens ∧
        ∀ other next, ListAt Token.isBlankOrComment (Token.ofText rawBackslash sql) other next →
          place ≤ other := by
  rw [tupleOpen_listAt]
  simp only [Token.listAt_blanked]

theorem listAt_across (found : ListAt Token.isBlank tokens place opens) :
    ListAt Token.isBlankOrComment tokens place opens := by
  obtain ⟨before, text, behind, rest, made, free, named, between, across, gap⟩ := found
  refine ⟨before, text, behind, rest, made, free, named, between, across, ?_⟩
  intro token member
  exact Token.skipped_of_isBlank (gap token member)

-- The search for the tuple is the one place where blanks are told from comments.
theorem tupleOpen_blanked_iff (rawBackslash : Bool) (sql : Bytes) :
    (analyze rawBackslash (blankComments rawBackslash sql)).classification.tupleOpen =
        (analyze rawBackslash sql).classification.tupleOpen ↔
      Undivided rawBackslash sql := by
  constructor
  · intro same place opens found first
    have opened := (tupleOpen_blanked rawBackslash sql opens).mpr ⟨place, found, first⟩
    rw [same] at opened
    obtain ⟨other, list, _⟩ := (tupleOpen_listAt rawBackslash sql opens).mp opened
    have increase := tokens_increase rawBackslash sql
    rw [Classification.listAt_unique increase found (listAt_across list)]
    exact list
  · intro undivided
    cases opened :
        (analyze rawBackslash (blankComments rawBackslash sql)).classification.tupleOpen with
    | some opens =>
      obtain ⟨place, found, first⟩ := (tupleOpen_blanked rawBackslash sql opens).mp opened
      apply Eq.symm
      apply (tupleOpen_listAt rawBackslash sql opens).mpr
      refine ⟨place, undivided place opens found first, ?_⟩
      intro other next candidate
      exact first other next (listAt_across candidate)
    | none =>
      have missing := Classification.tupleOpen_none opened
      apply Eq.symm
      apply Option.eq_none_iff_forall_ne_some.mpr
      intro opens found
      obtain ⟨place, list, _⟩ := (tupleOpen_listAt rawBackslash sql opens).mp found
      apply missing place opens
      exact (Token.listAt_blanked rawBackslash sql place opens).mpr (listAt_across list)

theorem analyze_classification (rawBackslash : Bool) (sql : Bytes) :
    (analyze rawBackslash sql).classification =
      Classification.ofTokens (Token.ofText rawBackslash sql) (finalContext rawBackslash sql) := rfl

theorem solid_blanked (rawBackslash : Bool) (sql : Bytes) :
    Token.solid (Token.ofText rawBackslash (blankComments rawBackslash sql)) =
      Token.solid (Token.ofText rawBackslash sql) := by
  rw [Token.ofText_blanked, Token.solid_asBlanks]

-- Only line comments tell, by which the statement may not be joined.
theorem classification_blanked (closed : (finalContext rawBackslash sql).isComment = false)
    (undivided : Undivided rawBackslash sql) :
    (analyze rawBackslash (blankComments rawBackslash sql)).classification =
      { (analyze rawBackslash sql).classification with
        joinable :=
          (analyze rawBackslash (blankComments rawBackslash sql)).classification.joinable } := by
  have final := finalContext_blanked rawBackslash sql
  rw [Context.outside_self closed] at final
  have opened := (tupleOpen_blanked_iff rawBackslash sql).mpr undivided
  rw [analyze_classification, analyze_classification, final] at opened ⊢
  exact Classification.ofTokens_congr _ (solid_blanked rawBackslash sql) (tokens_increase _ _)
    (tokens_increase _ _) opened

-- Comments that are closed count as blanks, unless one stands between the word that opens the
-- tuple and its parenthesis.
theorem blanked_agrees (rawBackslash : Bool) (sql : Bytes)
    (closed : (finalContext rawBackslash sql).isComment = false) :
    (analyze rawBackslash (blankComments rawBackslash sql)).marks =
        (analyze rawBackslash sql).marks ∧
      ((analyze rawBackslash (blankComments rawBackslash sql)).classification.tupleOpen =
          (analyze rawBackslash sql).classification.tupleOpen ↔ Undivided rawBackslash sql) ∧
      (Undivided rawBackslash sql →
        (analyze rawBackslash (blankComments rawBackslash sql)).classification.tupleSpan? =
            (analyze rawBackslash sql).classification.tupleSpan? ∧
          (analyze rawBackslash (blankComments rawBackslash sql)).blocker? =
            (analyze rawBackslash sql).blocker?) := by
  refine ⟨?_, tupleOpen_blanked_iff rawBackslash sql, ?_⟩
  · change Token.marks (Token.ofText _ _) = Token.marks (Token.ofText _ _)
    rw [← Token.marks_solid, solid_blanked, Token.marks_solid]
  · intro undivided
    rw [blocker?, blocker?, classification_blanked closed undivided]
    exact ⟨rfl, rfl⟩

theorem blanked_agrees_commented :
    let sql := Bytes.ofString
      "/* ; */ INSERT # (\n INTO t (a, b)/* */VALUES\n (?, /* ? */ b'(', -- )\n ?) /* ? */ ; -- \n"
    (finalContext false sql).isComment = false ∧ Undivided false sql ∧
      (analyze false (blankComments false sql)).marks = (analyze false sql).marks ∧
      (analyze false (blankComments false sql)).classification.tupleSpan? =
        (analyze false sql).classification.tupleSpan? ∧
      (analyze false (blankComments false sql)).blocker? = (analyze false sql).blocker? ∧
      (analyze false sql).classification.tupleSpan? = some (46, 72) ∧
      (analyze false sql).blocker? = none := by
  intro sql
  have closed : (finalContext false sql).isComment = false := by decide +kernel
  obtain ⟨marks, opened, agrees⟩ := blanked_agrees false sql closed
  have undivided : Undivided false sql := opened.mp (by decide +kernel)
  obtain ⟨span, blocker⟩ := agrees undivided
  exact ⟨closed, undivided, marks, span, blocker, by decide +kernel, by decide +kernel⟩

-- A comment between the two keeps the parenthesis from being found.
theorem divided_differs :
    let sql := Bytes.ofString "INSERT INTO t VALUES/**/(?)"
    (finalContext false sql).isComment = false ∧
      blankComments false sql = Bytes.ofString "INSERT INTO t VALUES    (?)" ∧
      (analyze false (blankComments false sql)).classification.tupleSpan? = some (24, 27) ∧
      (analyze false sql).classification.tupleSpan? = none ∧
      (analyze false (blankComments false sql)).blocker? = none ∧
      (analyze false sql).blocker? = some .noValuesClause := by
  decide +kernel

end Statement
end InsertBatch
