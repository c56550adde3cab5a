import InsertBatch.Proofs.TemplateSoundness

namespace InsertBatch

def Keyword.names : Keyword → List String
  | .insert => ["insert"]
  | .values => ["values", "value"]
  | .select => ["select"]
  | .lastInsertId => ["last_insert_id"]

namespace Token
variable {token : Token} {lexemes : List Lexeme}

def start : Token → Nat
  | .word start _ | .sign start _ | .blank start _ => start
  | .turn lexeme => lexeme.start

theorem consWord_parts (start : Nat) (byte : UInt8) (rest : List Token) :
    ∃ head tail, consWord start byte rest = head :: tail ∧ head.start = start ∧ tail <:+ rest := by
  unfold consWord
  split
  · exact ⟨_, _, rfl, rfl, List.suffix_cons _ _⟩
  · exact ⟨_, _, rfl, rfl, List.suffix_rfl⟩

theorem consLexeme_start (lexeme : Lexeme) (rest : List Token) :
    ∃ head tail, consLexeme lexeme rest = head :: tail ∧ head.start = lexeme.start ∧
      tail <:+ rest := by
  unfold consLexeme
  split
  · exact ⟨_, _, rfl, rfl, List.suffix_rfl⟩
  · split
    · exact consWord_parts _ _ _
    · split
      · exact ⟨_, _, rfl, rfl, List.suffix_rfl⟩
      · exact ⟨_, _, rfl, rfl, List.suffix_rfl⟩

theorem mem_start (member : token ∈ ofLexemes lexemes) :
    ∃ lexeme ∈ lexemes, lexeme.start = token.start := by
  induction lexemes with
  | nil => cases member
  | cons lexeme lexemes ih =>
    obtain ⟨head, tail, made, here, suffix⟩ := consLexeme_start lexeme (ofLexemes lexemes)
    rw [ofLexemes_cons, made] at member
    rcases List.mem_cons.mp member with rfl | later
    · exact ⟨lexeme, List.mem_cons_self, here.symm⟩
    · obtain ⟨other, found, same⟩ := ih (suffix.subset later)
      exact ⟨other, List.mem_cons_of_mem _ found, same⟩

theorem starts_increase (increase : lexemes.Pairwise (·.start < ·.start)) :
    (ofLexemes lexemes).Pairwise (·.start < ·.start) := by
  induction lexemes with
  | nil => exact .nil
  | cons lexeme lexemes ih =>
    obtain ⟨first, increase⟩ := List.pairwise_cons.mp increase
    obtain ⟨head, tail, made, here, suffix⟩ := consLexeme_start lexeme (ofLexemes lexemes)
    rw [ofLexemes_cons, made]
    refine .cons ?_ ((ih increase).sublist suffix.sublist)
    intro token member
    obtain ⟨other, found, same⟩ := mem_start (suffix.subset member)
    rw [here, ← same]
    exact first other found

-- In any letter case.
def spells (spellings : List String) (text : Bytes) : Prop :=
  text.map Ascii.lower ∈ spellings.map Bytes.ofString

instance (spellings : List String) (text : Bytes) : Decidable (spells spellings text) :=
  inferInstanceAs (Decidable (_ ∈ _))

-- The text starts behind these tokens, or a blank, a parenthesis or a comment ends them.
inductive Free : List Token → Prop where
  | start : Free []
  | blank : Free (before ++ [.blank place byte])
  | paren (either : byte = Ascii.openParen ∨ byte = Ascii.closeParen) :
      Free (before ++ [.sign place byte])
  | comment (inside : lexeme.before.isComment = true) (ends : lexeme.after = .plain) :
      Free (before ++ [.turn lexeme])

-- The word that stands between these tokens is a free VALUES or VALUE, and across nothing
-- but `gap` a parenthesis opens at `opens`, with `rest` behind it.
structure Introduces (gap : Token → Bool) (before : List Token) (text : Bytes)
    (behind : List Token) (opens : Nat) (rest : List Token) : Prop where
  free : Free before
  named : spells ["values", "value"] text
  across : ∃ between, behind = between ++ .sign opens Ascii.openParen :: rest ∧
    ∀ token ∈ between, gap token = true

-- Nothing but blanks stands between the word and its parenthesis.
theorem Introduces.mem_rest (introduces : Introduces isBlank before text behind opens rest)
    (member : .word place other ∈ behind) : .word place other ∈ rest := by
  obtain ⟨between, rfl, blanks⟩ := introduces.across
  rcases List.mem_append.mp member with inside | later
  · cases blanks _ inside
  · simpa using later

def ListAt (gap : Token → Bool) (tokens : List Token) (place opens : Nat) : Prop :=
  ∃ before text behind rest, tokens = before ++ .word place text :: behind ∧
    Introduces gap before text behind opens rest

def isBlankOrComment : Token → Bool
  | .blank .. => true
  | .turn lexeme => lexeme.before.isComment || lexeme.after.isComment
  | _ => false

def update? : Token → Option Nat
  | .word place text => if spells ["update"] text then some place else none
  | _ => none

def updates (tokens : List Token) : List Nat := tokens.filterMap update?

-- A word is a keyword if it spells one of the names of the keyword.
theorem ofWord?_iff (text : Bytes) (keyword : Keyword) :
    Keyword.ofWord? text = some keyword ↔ spells keyword.names text := by
  unfold Keyword.ofWord?
  constructor
  · intro found
    obtain ⟨front, back, split, _⟩ := List.lookup_eq_some_iff.mp found
    have listed : (text.map Ascii.lower, keyword) ∈ Keyword.spellings := by
      rw [split]
      simp
    simp only [Keyword.spellings, List.mem_cons, Prod.mk.injEq, List.not_mem_nil,
      or_false] at listed
    rcases listed with ⟨same, rfl⟩ | ⟨same, rfl⟩ | ⟨same, rfl⟩ | ⟨same, rfl⟩ | ⟨same, rfl⟩
    all_goals
      rw [spells, same]
      decide
  · intro named
    cases keyword
    all_goals
      simp only [spells, Keyword.names, List.map_cons, List.map_nil, List.mem_cons,
        List.not_mem_nil, or_false] at named
    case insert | select | lastInsertId =>
      rw [named]
      decide
    case values =>
      rcases named with named | named
      all_goals
        rw [named]
        decide

end Token

namespace Classification
open Token (Free Introduces ListAt)
variable {rawBackslash : Bool} {sql : Bytes} {tokens before rest behind : List Token}
  {opens : Nat} {token : Token}

theorem startsClause_free (before : List Token) :
    startsClause before.getLast? = true ↔ Free before := by
  constructor
  · intro starts
    rcases List.eq_nil_or_concat before with rfl | ⟨front, token, rfl⟩
    · exact .start
    · rw [List.concat_eq_append, List.getLast?_concat] at starts
      rw [List.concat_eq_append]
      cases token with
      | word place text => cases starts
      | sign place byte => exact .paren (by simpa [startsClause] using starts)
      | blank place byte => exact .blank
      | turn lexeme =>
        simp only [startsClause, Lexeme.closesComment, Bool.and_eq_true] at starts
        refine .comment starts.1 ?_
        cases after : lexeme.after <;> simp [after, Context.isPlain] at starts
        rfl
  · intro free
    cases free with
    | start => rfl
    | blank => rw [List.getLast?_concat]; rfl
    | paren either => rw [List.getLast?_concat]; simpa [startsClause] using either
    | comment inside ends =>
      rw [List.getLast?_concat]
      simp [startsClause, Lexeme.closesComment, inside, ends, Context.isPlain]

theorem around {index : Nat} (found : tokens[index]? = some token) :
    tokens = tokens.take index ++ token :: tokens.drop (index + 1) := by
  obtain ⟨bound, rfl⟩ := List.getElem?_eq_some_iff.mp found
  rw [← List.drop_eq_getElem_cons bound, List.take_append_drop]

-- A list is found by looking at the tokens at two places.
theorem listAt_index {gap : Token → Bool} {place : Nat} (text : Bytes) (index width : Nat)
    (found : tokens[index]? = some (.word place text) ∧
      startsClause (tokens.take index).getLast? = true ∧
      Token.spells ["values", "value"] text ∧
      ((tokens.drop (index + 1)).take width).all gap = true ∧
      (tokens.drop (index + 1))[width]? = some (.sign opens Ascii.openParen)) :
    ListAt gap tokens place opens := by
  obtain ⟨here, starts, named, across, paren⟩ := found
  exact ⟨_, text, _, _, around here, (startsClause_free _).mp starts, named, _,
    around paren, List.all_eq_true.mp across⟩

theorem openAfterBlanks?_some :
    openAfterBlanks? tokens = some (opens, rest) ↔
      ∃ between, tokens = between ++ .sign opens Ascii.openParen :: rest ∧
        ∀ token ∈ between, token.isBlank = true := by
  constructor
  · intro found
    induction tokens with
    | nil => cases found
    | cons token tokens ih =>
      cases token with
      | word place text => cases found
      | turn lexeme => cases found
      | blank place byte =>
        obtain ⟨between, rfl, blanks⟩ := ih found
        exact ⟨.blank place byte :: between, rfl, List.forall_mem_cons.mpr ⟨rfl, blanks⟩⟩
      | sign place byte =>
        by_cases paren : byte = Ascii.openParen
        · simp [openAfterBlanks?, Token.isBlank, paren] at found
          obtain ⟨rfl, rfl⟩ := found
          exact ⟨[], by rw [paren]; rfl, by simp⟩
        · simp [openAfterBlanks?, Token.isBlank, paren] at found
  · rintro ⟨between, rfl, blanks⟩
    induction between with
    | nil => rfl
    | cons token between ih =>
      obtain ⟨first, later⟩ := List.forall_mem_cons.mp blanks
      cases token with
      | blank place byte => exact ih later
      | _ => cases first

-- One step of the search: the word in front introduces a list, or the search goes on.
theorem openTuple?_cons (before : List Token) (token : Token) (tokens : List Token) :
    (∃ place text opens rest, token = .word place text ∧
        Introduces Token.isBlank before text tokens opens rest ∧
        openTuple? before.getLast? (token :: tokens) = some (opens, rest)) ∨
      ((∀ place text opens rest, token = .word place text →
          ¬Introduces Token.isBlank before text tokens opens rest) ∧
        openTuple? before.getLast? (token :: tokens) =
          openTuple? (before ++ [token]).getLast? tokens) := by
  rw [List.getLast?_concat]
  unfold openTuple?
  split
  · rename_i clause
    obtain ⟨keyword, starts⟩ := clause
    cases token with
    | word place text =>
      split
      · rename_i opened found
        obtain ⟨opens, rest⟩ := opened
        exact .inl ⟨place, text, opens, rest, rfl, ⟨(startsClause_free before).mp starts,
          (Token.ofWord?_iff text .values).mp keyword, openAfterBlanks?_some.mp found⟩, rfl⟩
      · rename_i missing
        refine .inr ⟨?_, by rw [← openTuple?.eq_def]⟩
        rintro _ _ opens rest ⟨⟩ introduces
        rw [openAfterBlanks?_some.mpr introduces.across] at missing
        cases missing
    | _ => cases keyword
  · rename_i clause
    refine .inr ⟨?_, by rw [← openTuple?.eq_def]⟩
    rintro place text opens rest rfl introduces
    exact clause ⟨(Token.ofWord?_iff text .values).mpr introduces.named,
      (startsClause_free before).mpr introduces.free⟩

-- Every list that a search could find starts with the word it found or stands behind the
-- parenthesis it found.
theorem openTuple?_first (found : openTuple? before.getLast? tokens = some (opens, rest)) :
    ∃ front place text behind, tokens = front ++ .word place text :: behind ∧
      Introduces Token.isBlank (before ++ front) text behind opens rest ∧
      ∀ other position word after next more, tokens = other ++ .word position word :: after →
        Introduces Token.isBlank (before ++ other) word after next more →
        position = place ∨ .word position word ∈ rest := by
  induction tokens generalizing before with
  | nil => cases found
  | cons token tokens ih =>
    rcases openTuple?_cons before token tokens with
      ⟨place, text, first, inner, rfl, introduces, here⟩ | ⟨none, goes⟩
    · rw [here] at found
      cases found
      refine ⟨[], place, text, tokens, rfl, by simpa using introduces, ?_⟩
      intro other position word after next more split _
      cases other with
      | nil =>
        cases split
        exact .inl rfl
      | cons _ other =>
        obtain ⟨_, rfl⟩ := List.cons.inj split
        exact .inr (introduces.mem_rest (by simp))
    · rw [goes] at found
      obtain ⟨front, place, text, behind, rfl, introduces, first⟩ := ih found
      refine ⟨token :: front, place, text, behind, rfl, by simpa using introduces, ?_⟩
      intro other position word after next more split candidate
      cases other with
      | nil =>
        obtain ⟨rfl, rfl⟩ := List.cons.inj split
        rw [List.append_nil] at candidate
        exact absurd candidate (none _ _ _ _ rfl)
      | cons _ other =>
        obtain ⟨rfl, tail⟩ := List.cons.inj split
        exact first other position word after next more tail (by simpa using candidate)

end Classification

namespace Statement
open Classification (Group Leads)
open Token (ListAt)
variable {rawBackslash : Bool} {sql : Bytes}

-- The list of values that the classification records: its keyword and its parentheses.
structure Records (rawBackslash : Bool) (sql : Bytes) (keyword opens close : Nat) : Prop where
  opened : (analyze rawBackslash sql).classification.tupleOpen = some opens
  closed : (analyze rawBackslash sql).classification.tupleClose = some close
  clause : ListAt Token.isBlank (Token.ofText rawBackslash sql) keyword opens

-- No UPDATE stands before the list, and before the first UPDATE no other list.
structure Alone (tokens : List Token) (keyword opens close : Nat) : Prop where
  early : ∀ place ∈ Token.updates tokens, opens < place
  only : ∀ other next, ListAt Token.isBlankOrComment tokens other next →
    other < keyword ∨ close < other → ∃ place ∈ Token.updates tokens, place < other

theorem tokens_increase (rawBackslash : Bool) (sql : Bytes) :
    (Token.ofText rawBackslash sql).Pairwise (·.start < ·.start) :=
  Token.starts_increase (Lexeme.starts_increase _ _ _ _)

theorem tupleOpen_first (opened : (analyze rawBackslash sql).classification.tupleOpen = some opens) :
    ∃ keyword, ListAt Token.isBlank (Token.ofText rawBackslash sql) keyword opens ∧
      ∀ other next, ListAt Token.isBlank (Token.ofText rawBackslash sql) other next →
        other = keyword ∨ opens < other := by
  obtain ⟨⟨start, rest⟩, found, rfl⟩ := Option.map_eq_some_iff.mp opened
  have searched : Classification.openTuple? ([] : List Token).getLast?
      (Token.ofText rawBackslash sql) = some (start, rest) := found
  obtain ⟨front, keyword, text, behind, split, introduces, first⟩ :=
    Classification.openTuple?_first searched
  refine ⟨keyword, ⟨front, text, behind, rest, split, introduces⟩, ?_⟩
  rintro other next ⟨before, word, after, more, place, candidate⟩
  rcases first before other word after next more place candidate with same | later
  · exact .inl same
  · obtain ⟨between, gap, _⟩ := introduces.across
    have increase := tokens_increase rawBackslash sql
    rw [split, gap, ← List.cons_append, ← List.append_assoc] at increase
    have behind := (List.pairwise_append.mp increase).2.1
    exact .inr ((List.pairwise_cons.mp behind).1 _ later)

-- The tuple of a mergeable statement is the first list of values that the text has, and
-- the only one with marks.
theorem recorded_first (rawBackslash : Bool) (sql : Bytes)
    (mergeable : (analyze rawBackslash sql).isMergeable = true) :
    ∃ keyword opens close, Records rawBackslash sql keyword opens close ∧
      (∀ other next, ListAt Token.isBlank (Token.ofText rawBackslash sql) other next →
        other = keyword ∨ opens < other) ∧
      ∀ mark ∈ (analyze rawBackslash sql).marks, opens < mark ∧ mark < close := by
  obtain ⟨lead, tuple, trail, rfl, leads, group, marks, _⟩ := mergeable_parts mergeable
  have span := Classification.tupleSpan?_of_group leads group trail
  obtain ⟨opens, close, opened, closed, same⟩ := Classification.tupleSpan?_of_isMergeable mergeable
  rw [same, Option.some.injEq, Prod.mk.injEq] at span
  obtain ⟨keyword, clause, first⟩ := tupleOpen_first opened
  refine ⟨keyword, opens, close, ⟨opened, closed, clause⟩, first, ?_⟩
  intro mark member
  rw [marks] at member
  have bounds := Template.group_marks group _ mark member
  omega

theorem recorded_first_three :
    let sql := Bytes.ofString "INSERT INTO t VALUES (?, (?)) ON DUPLICATE KEY UPDATE n = VALUES (n)"
    ∃ keyword opens close, Records false sql keyword opens close ∧
      (∀ other next, ListAt Token.isBlank (Token.ofText false sql) other next →
        other = keyword ∨ opens < other) ∧
      ∀ mark ∈ (analyze false sql).marks, opens < mark ∧ mark < close :=
  recorded_first _ _ (by decide +kernel)

-- Not the only one: a list may follow it, a comment may part an earlier keyword from its
-- parenthesis, and the list may stand behind UPDATE.
theorem recorded_not_alone :
    let followed := Bytes.ofString "INSERT INTO t VALUES (?) VALUES (3)"
    let parted := Bytes.ofString "INSERT INTO value/**/(a) VALUES (?)"
    let updating := Bytes.ofString "INSERT INTO t SET a = 1 ON DUPLICATE KEY UPDATE a = VALUES(a)"
    ((analyze false followed).isMergeable = true ∧ Records false followed 14 21 23 ∧
        ¬Alone (Token.ofText false followed) 14 21 23) ∧
      ((analyze false parted).isMergeable = true ∧ Records false parted 25 32 34 ∧
        ¬Alone (Token.ofText false parted) 25 32 34) ∧
      ((analyze false updating).isMergeable = true ∧ Records false updating 52 58 60 ∧
        ¬Alone (Token.ofText false updating) 52 58 60) := by
  intro followed parted updating
  refine ⟨⟨by decide +kernel, ⟨by decide +kernel, by decide +kernel, ?_⟩, ?_⟩,
    ⟨by decide +kernel, ⟨by decide +kernel, by decide +kernel, ?_⟩, ?_⟩,
    ⟨by decide +kernel, ⟨by decide +kernel, by decide +kernel, ?_⟩, ?_⟩⟩
  · exact Classification.listAt_index (Bytes.ofString "VALUES") 6 1 (by decide +kernel)
  · intro alone
    have later : ListAt Token.isBlankOrComment (Token.ofText false followed) 25 32 :=
      Classification.listAt_index (Bytes.ofString "VALUES") 12 1 (by decide +kernel)
    obtain ⟨place, member, _⟩ := alone.only 25 32 later (by decide)
    exact absurd (List.length_pos_of_mem member) (by decide +kernel)
  · exact Classification.listAt_index (Bytes.ofString "VALUES") 11 1 (by decide +kernel)
  · intro alone
    have earlier : ListAt Token.isBlankOrComment (Token.ofText false parted) 12 21 :=
      Classification.listAt_index (Bytes.ofString "value") 4 2 (by decide +kernel)
    obtain ⟨place, member, _⟩ := alone.only 12 21 earlier (by decide)
    exact absurd (List.length_pos_of_mem member) (by decide +kernel)
  · exact Classification.listAt_index (Bytes.ofString "VALUES") 26 0 (by decide +kernel)
  · intro alone
    exact absurd (alone.early 41 (by decide +kernel)) (by decide)

end Statement
end InsertBatch
