import InsertBatch.Proofs.TupleBounds

namespace InsertBatch

namespace Token
variable {test : Token → Bool} {token : Token} {front rest : List Token}

-- What is left when blanks and comments are skipped.
def solid (tokens : List Token) : List Token := tokens.filter (!isBlankOrComment ·)

theorem solid_skip (skipped : token.isBlankOrComment = true) :
    solid (token :: rest) = solid rest := by
  simp [solid, skipped]

theorem solid_keep (kept : token.isBlankOrComment = false) :
    solid (token :: rest) = token :: solid rest := by
  simp [solid, kept]

theorem solid_append (front rest : List Token) :
    solid (front ++ rest) = solid front ++ solid rest :=
  List.filter_append front rest

theorem keyword?_skipped (skipped : token.isBlankOrComment = true) : token.keyword? = none := by
  cases token with
  | word start text | sign start byte => cases skipped
  | blank start byte | turn lexeme => rfl

theorem isSign_skipped (skipped : token.isBlankOrComment = true) (byte : UInt8) :
    token.isSign byte = false := by
  cases token with
  | word start text | sign start byte => cases skipped
  | blank start byte | turn lexeme => rfl

theorem isSignificant_skipped (skipped : token.isBlankOrComment = true) :
    token.isSignificant = false := by
  cases token with
  | word start text | sign start byte => cases skipped
  | blank start byte => rfl
  | turn lexeme =>
    simp only [isBlankOrComment, Bool.or_eq_true] at skipped
    simp only [isSignificant, Lexeme.opensQuoted]
    cases before : lexeme.before <;> cases after : lexeme.after <;>
      simp [before, after, Context.isComment, Context.isPlain, Context.isQuoted] at skipped ⊢

-- A test that passes no blank and no comment need not see them.
theorem any_solid (passes : ∀ token, isBlankOrComment token = true → test token = false)
    (tokens : List Token) : (solid tokens).any test = tokens.any test := by
  induction tokens with
  | nil => rfl
  | cons token rest ih =>
    cases skipped : token.isBlankOrComment with
    | true => rw [solid_skip skipped, ih, List.any_cons, passes token skipped, Bool.false_or]
    | false => rw [solid_keep skipped, List.any_cons, List.any_cons, ih]

theorem find?_solid (passes : ∀ token, isBlankOrComment token = true → test token = false)
    (tokens : List Token) : (solid tokens).find? test = tokens.find? test := by
  induction tokens with
  | nil => rfl
  | cons token rest ih =>
    cases skipped : token.isBlankOrComment with
    | true => rw [solid_skip skipped, ih, List.find?_cons_of_neg (by simp [passes token skipped])]
    | false => rw [solid_keep skipped, List.find?_cons, List.find?_cons, ih]

theorem marks_solid (tokens : List Token) : marks (solid tokens) = marks tokens := by
  induction tokens with
  | nil => rfl
  | cons token rest ih =>
    cases skipped : token.isBlankOrComment with
    | true =>
      have unmarked : token.mark? = none := by
        cases token with
        | word start text | sign start byte => cases skipped
        | blank start byte | turn lexeme => rfl
      rw [solid_skip skipped, ih, marks, marks, List.filterMap_cons_none unmarked]
    | false =>
      rw [solid_keep skipped]
      unfold marks at ih ⊢
      rw [List.filterMap_cons, List.filterMap_cons, ih]

-- The tokens before and behind one of them, told by where they start.
theorem filter_ahead (increase : (front ++ token :: rest).Pairwise (·.start < ·.start)) :
    (front ++ token :: rest).filter (·.start < token.start) = front := by
  obtain ⟨_, inside, earlier⟩ := List.pairwise_append.mp increase
  have ahead : front.filter (·.start < token.start) = front := by
    apply List.filter_eq_self.mpr
    intro other member
    exact decide_eq_true (earlier other member token List.mem_cons_self)
  have behind : rest.filter (·.start < token.start) = [] := by
    apply List.filter_eq_nil_iff.mpr
    intro other member
    have order := (List.pairwise_cons.mp inside).1 other member
    simp only [decide_eq_true_eq]
    omega
  rw [List.filter_append, ahead, List.filter_cons_of_neg (by simp), behind, List.append_nil]

theorem filter_behind (increase : (front ++ token :: rest).Pairwise (·.start < ·.start)) :
    (front ++ token :: rest).filter (token.start < ·.start) = rest := by
  obtain ⟨_, inside, earlier⟩ := List.pairwise_append.mp increase
  have ahead : front.filter (token.start < ·.start) = [] := by
    apply List.filter_eq_nil_iff.mpr
    intro other member
    have order := earlier other member token List.mem_cons_self
    simp only [decide_eq_true_eq]
    omega
  have behind : rest.filter (token.start < ·.start) = rest := by
    apply List.filter_eq_self.mpr
    intro other member
    exact decide_eq_true ((List.pairwise_cons.mp inside).1 other member)
  rw [List.filter_append, ahead, List.nil_append, List.filter_cons_of_neg (by simp), behind]

end Token

namespace Classification
open Token (solid ListAt Introduces)
variable {tokens others : List Token} {place other opens : Nat}

theorem mentions_solid (keyword : Keyword) (tokens : List Token) :
    mentions keyword (solid tokens) = mentions keyword tokens := by
  apply Token.any_solid
  intro token skipped
  rw [Token.keyword?_skipped skipped]
  rfl

theorem continuesPastSemicolon_solid (tokens : List Token) :
    continuesPastSemicolon (solid tokens) = continuesPastSemicolon tokens := by
  induction tokens with
  | nil => rfl
  | cons token rest ih =>
    rw [continuesPastSemicolon_cons]
    cases skipped : token.isBlankOrComment with
    | true =>
      rw [Token.solid_skip skipped, Token.isSign_skipped skipped, ih]
      rfl
    | false =>
      rw [Token.solid_keep skipped, continuesPastSemicolon_cons, ih,
        Token.any_solid fun _ => Token.isSignificant_skipped]

theorem closeTuple?_solid (depth : Nat) (tokens : List Token) :
    closeTuple? depth (solid tokens) = closeTuple? depth tokens := by
  induction tokens generalizing depth with
  | nil => rfl
  | cons token rest ih =>
    cases token with
    | word start text => exact ih depth
    | blank start byte => exact ih depth
    | sign start byte =>
      rw [Token.solid_keep rfl]
      simp only [closeTuple?, ih]
    | turn lexeme =>
      cases skipped : (Token.turn lexeme).isBlankOrComment with
      | true => rw [Token.solid_skip skipped]; exact ih depth
      | false => rw [Token.solid_keep skipped]; exact ih depth

-- The tuple closes where the solid tokens behind its opening parenthesis close it.
theorem tupleClose_solid (increase : tokens.Pairwise (·.start < ·.start)) (final : Context) :
    (ofTokens tokens final).tupleClose = (ofTokens tokens final).tupleOpen.bind fun opens =>
      closeTuple? 1 ((solid tokens).filter (opens < ·.start)) := by
  simp only [ofTokens]
  cases found : openTuple? none tokens with
  | none => rfl
  | some opened =>
    obtain ⟨opens, rest⟩ := opened
    obtain ⟨lead, rfl, _⟩ := openTuple?_site found
    have behind : (solid (lead ++ .sign opens Ascii.openParen :: rest)).filter
        (opens < ·.start) = solid rest := by
      rw [solid, List.filter_filter]
      simp only [Bool.and_comm]
      rw [← List.filter_filter]
      exact congrArg solid (Token.filter_behind increase)
    simp only [Option.bind_some, Option.map_some, behind]
    exact (closeTuple?_solid 1 rest).symm

-- With the same solid tokens and the same opening parenthesis the classification is the same,
-- but for what line comments tell.
theorem ofTokens_congr (final : Context) (same : solid tokens = solid others)
    (one : tokens.Pairwise (·.start < ·.start)) (two : others.Pairwise (·.start < ·.start))
    (opened : (ofTokens tokens final).tupleOpen = (ofTokens others final).tupleOpen) :
    ofTokens tokens final =
      { ofTokens others final with joinable := (ofTokens tokens final).joinable } := by
  have closed : (ofTokens tokens final).tupleClose = (ofTokens others final).tupleClose := by
    rw [tupleClose_solid one, tupleClose_solid two, same, opened]
  have marks : Token.marks tokens = Token.marks others := by
    rw [← Token.marks_solid, same, Token.marks_solid]
  have mentioned : ∀ keyword, mentions keyword tokens = mentions keyword others := by
    intro keyword
    rw [← mentions_solid, same, mentions_solid]
  have first : tokens.find? Token.isSignificant = others.find? Token.isSignificant := by
    rw [← Token.find?_solid fun _ => Token.isSignificant_skipped, same,
      Token.find?_solid fun _ => Token.isSignificant_skipped]
  have continues : continuesPastSemicolon tokens = continuesPastSemicolon others := by
    rw [← continuesPastSemicolon_solid, same, continuesPastSemicolon_solid]
  simp only [ofTokens] at opened closed ⊢
  rw [opened, closed, marks, mentioned, mentioned, first, continues]

-- A parenthesis is introduced by one word only: the last solid token before it.
theorem listAt_unique (increase : tokens.Pairwise (·.start < ·.start))
    (one : ListAt Token.isBlankOrComment tokens place opens)
    (two : ListAt Token.isBlankOrComment tokens other opens) : place = other := by
  have last : ∀ {place}, ListAt Token.isBlankOrComment tokens place opens →
      ∃ text, (solid (tokens.filter (·.start < opens))).getLast? = some (.word place text) := by
    intro place found
    obtain ⟨before, text, behind, rest, rfl, _, _, between, rfl, gap⟩ := found
    rw [← List.cons_append, ← List.append_assoc] at increase ⊢
    have ahead : (before ++ .word place text :: between ++
        .sign opens Ascii.openParen :: rest).filter (·.start < opens) =
          before ++ .word place text :: between := Token.filter_ahead increase
    have none : solid between = [] := by
      apply List.filter_eq_nil_iff.mpr
      intro token member
      simp [gap token member]
    refine ⟨text, ?_⟩
    rw [ahead, Token.solid_append, Token.solid_keep rfl, none, List.getLast?_concat]
  obtain ⟨text, here⟩ := last one
  obtain ⟨word, there⟩ := last two
  rw [here] at there
  cases there
  rfl

end Classification
end InsertBatch
