import InsertBatch.Proofs.FreePlaces

namespace InsertBatch

namespace Classification
open Token (ListAt)
variable {rawBackslash : Bool} {opens start stop last other : Nat} {sql right : Bytes}

theorem openAfterBlanks?_stops {lexeme : Lexeme}
    (stops : ∀ byte, lexeme.plainByte? = some byte →
      Ascii.isBlank byte = false ∧ byte ≠ Ascii.openParen) (rest : List Token) :
    openAfterBlanks? (Token.consLexeme lexeme rest) = none := by
  unfold Token.consLexeme
  split
  · rfl
  · rename_i byte plain
    obtain ⟨unblank, other⟩ := stops byte plain
    simp only [unblank, Bool.false_eq_true, if_false]
    split
    · unfold Token.consWord
      split <;> rfl
    · simp [openAfterBlanks?, Token.isBlank, other]

-- Over the bytes: a blank is passed, a parenthesis is found, and all else stops the search.
theorem openAfterBlanks?_step (rawBackslash : Bool) (start : Nat) (byte : UInt8) (right : Bytes) :
    openAfterBlanks? (Token.ofLexemes
        (Lexeme.ofTextFrom rawBackslash .plain start (byte :: right))) =
      if Ascii.isBlank byte then
        openAfterBlanks? (Token.ofLexemes (Lexeme.ofTextFrom rawBackslash .plain (start + 1) right))
      else if byte = Ascii.openParen then
        some (start, Token.ofLexemes (Lexeme.ofTextFrom rawBackslash .plain (start + 1) right))
      else none := by
  split
  · rename_i blank
    rw [Lexeme.ofTextFrom_inert (Token.blank_inert blank), Token.ofLexemes_cons,
      Token.consLexeme_blank rfl blank]
    rfl
  · rename_i unblank
    split
    · rename_i paren
      subst paren
      rw [Lexeme.ofTextFrom_inert openParen_inert, Token.ofLexemes_cons, openParen_token]
      rfl
    · rename_i other
      have run := @Lexeme.ofTextFrom_step rawBackslash .plain start (byte :: right) (by simp)
      rw [run, Token.ofLexemes_cons]
      refine openAfterBlanks?_stops (fun found plain => ?_) _
      obtain ⟨_, _, split, _, _⟩ := Lexeme.first_plain run plain
      obtain ⟨rfl, _⟩ := List.cons.inj split
      exact ⟨Bool.eq_false_iff.mpr unblank, other⟩

-- Blanks lead to a parenthesis among the tokens where they do among the bytes.
theorem openAfterBlanks?_bytes (rawBackslash : Bool) (start : Nat) (right : Bytes) :
    (∃ rest, openAfterBlanks? (Token.ofLexemes
        (Lexeme.ofTextFrom rawBackslash .plain start right)) = some (opens, rest)) ↔
      ∃ gap more, right = gap ++ Ascii.openParen :: more ∧
        (∀ byte ∈ gap, Ascii.isBlank byte = true) ∧ opens = start + gap.length := by
  induction right generalizing start with
  | nil => simp [Token.ofLexemes, openAfterBlanks?]
  | cons byte right ih =>
    rw [openAfterBlanks?_step]
    constructor
    · rintro ⟨rest, found⟩
      split at found
      · rename_i blank
        obtain ⟨gap, more, rfl, blanks, rfl⟩ := (ih (start + 1)).mp ⟨rest, found⟩
        refine ⟨byte :: gap, more, rfl, List.forall_mem_cons.mpr ⟨blank, blanks⟩, ?_⟩
        rw [List.length_cons]
        omega
      · split at found
        · rename_i paren
          cases found
          exact ⟨[], right, by rw [paren]; rfl, by simp, rfl⟩
        · cases found
    · rintro ⟨gap, more, split, blanks, rfl⟩
      cases gap with
      | nil =>
        cases split
        exact ⟨_, rfl⟩
      | cons first gap =>
        obtain ⟨rfl, rfl⟩ := List.cons.inj split
        obtain ⟨blank, blanks⟩ := List.forall_mem_cons.mp blanks
        rw [if_pos blank]
        refine (ih (start + 1)).mpr ⟨gap, more, rfl, blanks, ?_⟩
        rw [List.length_cons]
        omega

-- The word from `start` to `stop` is a free VALUES or VALUE, and behind it nothing but blanks
-- stands before a parenthesis that opens at `opens`.
structure Declares (rawBackslash : Bool) (sql : Bytes) (start stop opens : Nat) : Prop where
  word : Lexeme.WordAt (Lexeme.ofText rawBackslash sql) start stop
  named : Token.spells ["values", "value"] (sql.slice start stop)
  free : Lexeme.FreeAt rawBackslash sql start
  reaches : stop ≤ opens
  blanks : ∀ position, stop ≤ position → position < opens →
    ∃ byte, sql[position]? = some byte ∧ Ascii.isBlank byte = true
  paren : sql[opens]? = some Ascii.openParen

theorem Declares.start_lt (declares : Declares rawBackslash sql start stop opens) : start < opens :=
  Nat.lt_of_lt_of_le declares.word.filled declares.reaches

theorem Declares.opens_le (one : Declares rawBackslash sql start stop opens)
    (two : Declares rawBackslash sql start stop other) : opens ≤ other := by
  refine Nat.le_of_not_lt fun less => ?_
  obtain ⟨byte, found, blank⟩ := one.blanks other two.reaches less
  rw [two.paren, Option.some.injEq] at found
  rw [← found] at blank
  exact absurd blank (by decide)

theorem Declares.opens_unique (one : Declares rawBackslash sql start stop opens)
    (two : Declares rawBackslash sql start last other) : opens = other := by
  obtain rfl : stop = last :=
    Nat.le_antisymm (one.word.stop_le two.word) (two.word.stop_le one.word)
  exact Nat.le_antisymm (one.opens_le two) (two.opens_le one)

theorem declares_of_listAt
    (found : ListAt Token.isBlank (Token.ofText rawBackslash sql) start opens) :
    ∃ stop, Declares rawBackslash sql start stop opens := by
  obtain ⟨before, text, behind, rest, made, free, named, across⟩ := found
  obtain ⟨left, right, rfl, rfl, between, rfl, rfl⟩ := Token.between_of_word made
  obtain ⟨gap, more, rfl, blanks, rfl⟩ := (openAfterBlanks?_bytes _ _ _).mp
    ⟨rest, openAfterBlanks?_some.mpr across⟩
  refine ⟨_, between.wordAt, ?_, (Token.free_iff between.ends between.split).mp free,
    Nat.le_add_right _ _, ?_, ?_⟩
  · rw [Bytes.slice_middle]
    exact named
  · intro position lower upper
    obtain ⟨index, rfl⟩ := Nat.exists_eq_add_of_le lower
    have inside : index < gap.length := by omega
    refine ⟨gap[index], ?_, blanks _ (List.getElem_mem inside)⟩
    rw [Bytes.getElem?_behind, List.getElem?_append_left inside, List.getElem?_eq_getElem inside]
  · rw [Bytes.getElem?_behind, List.getElem?_append_right (Nat.le_refl _), Nat.sub_self]
    rfl

theorem Declares.listAt (declares : Declares rawBackslash sql start stop opens) :
    ListAt Token.isBlank (Token.ofText rawBackslash sql) start opens := by
  obtain ⟨found, named, free, reaches, blanks, paren⟩ := declares
  obtain ⟨left, word, right, rfl, rfl, rfl, between⟩ := found.between
  obtain ⟨gap, more, rfl, count, blank⟩ : ∃ gap more, right = gap ++ more ∧
      gap.length = opens - (left.length + word.length) ∧
      ∀ byte ∈ gap, Ascii.isBlank byte = true := by
    refine Bytes.split_all fun index bound => ?_
    obtain ⟨byte, here, blank⟩ := blanks (left.length + word.length + index) (by omega) (by omega)
    rw [Bytes.getElem?_behind] at here
    exact ⟨byte, here, blank⟩
  have here : opens = left.length + word.length + gap.length := by omega
  rw [here, Bytes.getElem?_behind, List.getElem?_append_right (Nat.le_refl _), Nat.sub_self]
    at paren
  obtain ⟨more, rfl⟩ : ∃ rest, more = Ascii.openParen :: rest := by
    cases more with
    | nil => cases paren
    | cons byte rest =>
      cases paren
      exact ⟨rest, rfl⟩
  obtain ⟨rest, opened⟩ := (openAfterBlanks?_bytes rawBackslash (left.length + word.length)
    (gap ++ Ascii.openParen :: more)).mpr ⟨gap, more, rfl, blank, here⟩
  rw [Bytes.slice_middle] at named
  exact ⟨_, word, _, rest, Token.tokens_between between,
    (Token.free_iff between.ends between.split).mpr free, named, openAfterBlanks?_some.mp opened⟩

-- A search that finds nothing has passed no list.
theorem openTuple?_none {before tokens : List Token}
    (missing : openTuple? before.getLast? tokens = none) :
    ∀ front place text behind opens rest, tokens = front ++ .word place text :: behind →
      ¬Token.Introduces Token.isBlank (before ++ front) text behind opens rest := by
  -- Tokens that the search has passed move from `tokens` to `before`.
  induction tokens generalizing before with
  | nil =>
    intro front place text behind opens rest split
    simp at split
  | cons token tokens ih =>
    rcases openTuple?_cons before token tokens with
      ⟨_, _, _, _, _, _, here⟩ | ⟨none, goes⟩
    · rw [here] at missing
      cases missing
    · rw [goes] at missing
      intro front place text behind opens rest split introduces
      cases front with
      | nil =>
        obtain ⟨rfl, rfl⟩ := List.cons.inj split
        rw [List.append_nil] at introduces
        exact none _ _ _ _ rfl introduces
      | cons first front =>
        obtain ⟨rfl, tail⟩ := List.cons.inj split
        refine ih missing front place text behind opens rest tail ?_
        rw [List.append_assoc]
        exact introduces

theorem tupleOpen_none
    (missing : (Statement.analyze rawBackslash sql).classification.tupleOpen = none)
    (place opens : Nat) :
    ¬ListAt Token.isBlank (Token.ofText rawBackslash sql) place opens := by
  intro found
  obtain ⟨before, text, behind, rest, made, introduces⟩ := found
  have searched : openTuple? ([] : List Token).getLast? (Token.ofText rawBackslash sql) = none :=
    Option.map_eq_none_iff.mp missing
  exact openTuple?_none searched before place text behind opens rest made introduces

theorem tupleOpen_iff (rawBackslash : Bool) (sql : Bytes) (opens : Nat) :
    (Statement.analyze rawBackslash sql).classification.tupleOpen = some opens ↔
      ∃ start stop, Declares rawBackslash sql start stop opens ∧
        ∀ other last next, Declares rawBackslash sql other last next → start ≤ other := by
  have forward : ∀ opens,
      (Statement.analyze rawBackslash sql).classification.tupleOpen = some opens →
        ∃ start stop, Declares rawBackslash sql start stop opens ∧
          ∀ other last next, Declares rawBackslash sql other last next → start ≤ other := by
    intro opens opened
    obtain ⟨start, clause, first⟩ := Statement.tupleOpen_first opened
    obtain ⟨stop, declares⟩ := declares_of_listAt clause
    refine ⟨start, stop, declares, fun other last next candidate => ?_⟩
    have order := declares.start_lt
    rcases first other next candidate.listAt with same | later
    · omega
    · omega
  refine ⟨forward opens, ?_⟩
  rintro ⟨start, stop, declares, first⟩
  cases opened : (Statement.analyze rawBackslash sql).classification.tupleOpen with
  | none => exact absurd declares.listAt (tupleOpen_none opened start opens)
  | some found =>
    obtain ⟨other, last, candidate, least⟩ := forward found opened
    have upper := first _ _ _ candidate
    have lower := least _ _ _ declares
    obtain rfl : start = other := Nat.le_antisymm upper lower
    rw [declares.opens_unique candidate]

-- How often this byte is plain from `start` to `stop`, both included.
def plainCount (lexemes : List Lexeme) (byte : UInt8) (start stop : Nat) : Nat :=
  lexemes.countP fun lexeme =>
    start ≤ lexeme.start && lexeme.start ≤ stop && lexeme.plainByte? == some byte

-- As many parentheses close as open.
def Balanced (lexemes : List Lexeme) (start stop : Nat) : Prop :=
  plainCount lexemes Ascii.openParen start stop = plainCount lexemes Ascii.closeParen start stop

-- The first plain parenthesis behind `opens` that closes as many as were opened from there on.
structure ClosesAt (lexemes : List Lexeme) (opens close : Nat) : Prop where
  behind : opens < close
  paren : Lexeme.PlainAt lexemes close Ascii.closeParen
  balanced : Balanced lexemes opens close
  least : ∀ other, opens < other → Lexeme.PlainAt lexemes other Ascii.closeParen →
    Balanced lexemes opens other → close ≤ other

theorem closeTuple?_none {depth : Nat} {lexemes : List Lexeme}
    (missing : closeTuple? (depth + 1) (Token.ofLexemes lexemes) = none) :
    ∀ front back, lexemes = front ++ back →
      0 < ((depth + 1 : Nat) : Int) + Lexeme.balance front := by
  induction lexemes generalizing depth with
  | nil =>
    intro front back split
    rw [(List.append_eq_nil_iff.mp split.symm).1]
    simp [Lexeme.balance]
  | cons lexeme lexemes ih =>
    rw [Token.ofLexemes_cons, closeTuple?_consLexeme] at missing
    intro front back split
    cases front with
    | nil => simp [Lexeme.balance]
    | cons first front =>
      obtain ⟨rfl, tail⟩ := List.cons.inj split
      have nested := Lexeme.nest_balance (Nat.succ_pos depth) lexeme
      have sum := Lexeme.balance_append [lexeme] front
      rw [List.singleton_append] at sum
      cases deeper : Lexeme.nest (depth + 1) lexeme with
      | zero => simp [deeper] at missing
      | succ depth =>
        rw [deeper, if_neg (Nat.succ_ne_zero _)] at missing
        have rest := ih missing front back tail
        rw [deeper] at nested
        omega

variable {lexemes before front back : List Lexeme} {opener closer : Lexeme} {close : Nat}

theorem plainCount_range
    (increase : (before ++ (opener :: front ++ closer :: back)).Pairwise (·.start < ·.start))
    (byte : UInt8) :
    plainCount (before ++ (opener :: front ++ closer :: back)) byte opener.start closer.start =
      (opener :: front ++ [closer]).countP (·.plainByte? == some byte) := by
  obtain ⟨_, inside, earlier⟩ := List.pairwise_append.mp increase
  obtain ⟨upTo, behind, order⟩ := List.pairwise_append.mp inside
  have first := (List.pairwise_cons.mp upTo).1
  have later := (List.pairwise_cons.mp behind).1
  have whole : opener.start < closer.start := order opener (by simp) closer (by simp)
  have ahead : plainCount before byte opener.start closer.start = 0 := by
    refine List.countP_eq_zero.mpr fun lexeme member => ?_
    have place := earlier lexeme member opener (by simp)
    simp only [Bool.and_eq_true, decide_eq_true_eq]
    omega
  have beyond : plainCount back byte opener.start closer.start = 0 := by
    refine List.countP_eq_zero.mpr fun lexeme member => ?_
    have place := later lexeme member
    simp only [Bool.and_eq_true, decide_eq_true_eq]
    omega
  have between : plainCount (opener :: front ++ [closer]) byte opener.start closer.start =
      (opener :: front ++ [closer]).countP (·.plainByte? == some byte) := by
    refine List.countP_congr fun lexeme member => ?_
    have bounds : opener.start ≤ lexeme.start ∧ lexeme.start ≤ closer.start := by
      rcases List.mem_append.mp member with inner | last
      · have upper := order lexeme inner closer (by simp)
        rcases List.mem_cons.mp inner with rfl | inner
        · omega
        · have lower := first lexeme inner
          omega
      · rw [List.mem_singleton.mp last]
        omega
    simp [bounds]
  unfold plainCount at ahead beyond between ⊢
  rw [List.append_cons (opener :: front), List.countP_append, List.countP_append, ahead, beyond,
    between, Nat.zero_add, Nat.add_zero]

theorem balanced_iff
    (increase : (before ++ (opener :: front ++ closer :: back)).Pairwise (·.start < ·.start))
    (opens : opener.plainByte? = some Ascii.openParen) :
    Balanced (before ++ (opener :: front ++ closer :: back)) opener.start closer.start ↔
      1 + Lexeme.balance (front ++ [closer]) = 0 := by
  have one : Lexeme.balance [opener] = 1 := by simp +decide [Lexeme.balance, opens]
  have sum := Lexeme.balance_append [opener] (front ++ [closer])
  rw [one, Lexeme.balance, List.singleton_append] at sum
  rw [Balanced, plainCount_range increase, plainCount_range increase, List.cons_append]
  omega

-- The search for the closing parenthesis finds the place that counting gives.
theorem closeTuple?_iff (increase : (before ++ opener :: back).Pairwise (·.start < ·.start))
    (opens : opener.plainByte? = some Ascii.openParen) (close : Nat) :
    closeTuple? 1 (Token.ofLexemes back) = some close ↔
      ClosesAt (before ++ opener :: back) opener.start close := by
  have forward : ∀ close, closeTuple? 1 (Token.ofLexemes back) = some close →
      ClosesAt (before ++ opener :: back) opener.start close := by
    intro close found
    obtain ⟨front, closer, later, rfl, rfl, closes⟩ := closeTuple?_split found
    obtain ⟨proper, total⟩ := closes.balance
    obtain ⟨_, last, same, paren⟩ := closes.last
    obtain rfl := List.singleton_inj.mp (List.append_inj' same rfl).2
    have inside := List.pairwise_cons.mp (List.pairwise_append.mp increase).2.1
    refine ⟨inside.1 closer (by simp), ⟨closer, by simp, rfl, paren⟩,
      (balanced_iff increase opens).mpr (by simpa using total), ?_⟩
    rintro other behind ⟨lexeme, member, rfl, plain⟩ balanced
    refine Nat.le_of_not_lt fun less => ?_
    -- A parenthesis between the two leaves one open.
    have early := Lexeme.mem_ahead inside.2 (Lexeme.mem_behind increase member behind) less
    obtain ⟨first, rest, rfl⟩ := List.append_of_mem early
    have regroup : before ++ opener :: (first ++ lexeme :: rest ++ closer :: later) =
        before ++ (opener :: first ++ lexeme :: (rest ++ closer :: later)) := by simp
    rw [regroup] at balanced increase
    have none := (balanced_iff increase opens).mp balanced
    have open_ := proper (first ++ [lexeme]) (rest ++ [closer]) (by simp) (by simp)
    omega
  refine ⟨forward close, fun closes => ?_⟩
  cases found : closeTuple? 1 (Token.ofLexemes back) with
  | none =>
    obtain ⟨closer, member, rfl, _⟩ := closes.paren
    obtain ⟨front, later, rfl⟩ :=
      List.append_of_mem (Lexeme.mem_behind increase member closes.behind)
    have positive := closeTuple?_none found (front ++ [closer]) later (by simp)
    have balanced := (balanced_iff increase opens).mp closes.balanced
    omega
  | some other =>
    have candidate := forward other found
    have upper := closes.least other candidate.behind candidate.paren candidate.balanced
    have lower := candidate.least close closes.behind closes.paren closes.balanced
    rw [Nat.le_antisymm lower upper]

end Classification

namespace Statement
open Classification (Declares ClosesAt)

-- The recorded tuple opens where the first VALUES or VALUE that introduces one opens it, and
-- closes where its parentheses are even for the first time.
theorem tuple_bounds (rawBackslash : Bool) (sql : Bytes) :
    (∀ opens, (analyze rawBackslash sql).classification.tupleOpen = some opens ↔
      ∃ start stop, Declares rawBackslash sql start stop opens ∧
        ∀ other last next, Declares rawBackslash sql other last next → start ≤ other) ∧
    ∀ close, (analyze rawBackslash sql).classification.tupleClose = some close ↔
      ∃ opens, (analyze rawBackslash sql).classification.tupleOpen = some opens ∧
        ClosesAt (Lexeme.ofText rawBackslash sql) opens close := by
  refine ⟨Classification.tupleOpen_iff rawBackslash sql, fun close => ?_⟩
  simp only [analyze, Classification.ofTokens]
  cases opened : Classification.openTuple? none
      (Token.ofLexemes (Lexeme.ofText rawBackslash sql)) with
  | none => simp
  | some found =>
    obtain ⟨opens, rest⟩ := found
    obtain ⟨_, tokens, _⟩ := Classification.openTuple?_site opened
    obtain ⟨front, opener, back, run, _, rfl, alone⟩ := Token.ofLexemes_split rfl tokens
    obtain ⟨rfl, paren⟩ := Token.sign_consLexeme (alone [])
    have increase := Lexeme.starts_increase rawBackslash .plain 0 sql
    rw [Lexeme.ofText] at run ⊢
    rw [run] at increase ⊢
    simp only [Option.bind_some, Option.map_some, Option.some.injEq, exists_eq_left']
    exact Classification.closeTuple?_iff increase paren close

end Statement
end InsertBatch
