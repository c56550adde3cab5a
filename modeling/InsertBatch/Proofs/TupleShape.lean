import InsertBatch.Statement
import InsertBatch.Proofs.TokenRuns

namespace InsertBatch.Lexeme
variable {rawBackslash : Bool} {context : Context} {depth position : Nat} {lexeme : Lexeme}
  {lexemes front back earlier later : List Lexeme} {inner sql : Bytes}

-- How many parentheses are open behind a lexeme when `depth` are open before it.
def nest (depth : Nat) (lexeme : Lexeme) : Nat :=
  if lexeme.plainByte? = some Ascii.openParen then depth + 1
  else if lexeme.plainByte? = some Ascii.closeParen then depth - 1
  else depth

-- With `depth` parentheses open before them, the last of these lexemes and no
-- earlier one leaves none open.
def Closes : Nat → List Lexeme → Prop
  | depth, [] => depth = 0
  | depth, lexeme :: rest => 0 < depth ∧ Closes (nest depth lexeme) rest

theorem Closes.congr (closes : Closes depth earlier)
    (same : later.map plainByte? = earlier.map plainByte?) : Closes depth later := by
  induction earlier generalizing depth later with
  | nil =>
    rw [List.map_nil, List.map_eq_nil_iff] at same
    rw [same]
    exact closes
  | cons first earlier ih =>
    obtain ⟨other, later, rfl, head, tail⟩ := List.map_eq_cons_iff.mp same
    obtain ⟨positive, closes⟩ := closes
    have nested : nest depth other = nest depth first := by simp only [nest, head]
    exact ⟨positive, nested ▸ ih closes tail⟩

theorem Closes.extend (closes : Closes depth (front ++ earlier))
    (replaces : ∀ depth, Closes depth earlier → Closes depth later) :
    Closes depth (front ++ later) := by
  induction front generalizing depth with
  | nil => exact replaces _ closes
  | cons first front ih => exact ⟨closes.1, ih closes.2⟩

-- Lexemes that open and close nothing may stand anywhere between the parentheses.
theorem Closes.insert (positive : 0 < depth) (closes : Closes depth back)
    (neutral : ∀ lexeme ∈ front, lexeme.plainByte? ≠ some Ascii.openParen ∧
      lexeme.plainByte? ≠ some Ascii.closeParen) : Closes depth (front ++ back) := by
  induction front with
  | nil => exact closes
  | cons first front ih =>
    obtain ⟨⟨opens, ends⟩, neutral⟩ := List.forall_mem_cons.mp neutral
    have same : nest depth first = depth := by
      rw [nest, if_neg opens, if_neg ends]
    exact ⟨positive, same.symm ▸ ih neutral⟩

theorem nest_zero (zero : nest (depth + 1) lexeme = 0) :
    lexeme.plainByte? = some Ascii.closeParen := by
  unfold nest at zero
  split at zero
  · cases zero
  · split at zero
    · assumption
    · cases zero

theorem Closes.last (closes : Closes (depth + 1) lexemes) :
    ∃ front lexeme, lexemes = front ++ [lexeme] ∧
      lexeme.plainByte? = some Ascii.closeParen := by
  induction lexemes generalizing depth with
  | nil => cases closes
  | cons first rest ih =>
    obtain ⟨_, closes⟩ := closes
    cases nested : nest (depth + 1) first with
    | zero =>
      rw [nested] at closes
      cases rest with
      | nil => exact ⟨[], first, rfl, nest_zero nested⟩
      | cons next rest => exact absurd closes.1 (Nat.lt_irrefl 0)
    | succ deeper =>
      rw [nested] at closes
      obtain ⟨front, lexeme, rfl, close⟩ := ih closes
      exact ⟨first :: front, lexeme, rfl, close⟩

theorem plainByte?_contexts (plain : lexeme.plainByte? = some byte) :
    lexeme.before = .plain ∧ lexeme.after = .plain := by
  unfold plainByte? at plain
  split at plain
  · assumption
  · cases plain

theorem Closes.ends (closes : Closes (depth + 1) lexemes) :
    endContext context lexemes = .plain := by
  obtain ⟨front, lexeme, rfl, close⟩ := closes.last
  rw [endContext_append]
  exact (plainByte?_contexts close).2

end InsertBatch.Lexeme

namespace InsertBatch.Classification
open Lexeme (Closes nest)
variable {rawBackslash : Bool} {depth start stop close : Nat} {lexeme : Lexeme} {previous : Option Token}
  {lexemes front back : List Lexeme} {tokens rest : List Token} {lead tuple trail inner text : Bytes}
  {context : Context}

theorem closeTuple?_consWord (depth start : Nat) (byte : UInt8) (rest : List Token) :
    closeTuple? depth (Token.consWord start byte rest) = closeTuple? depth rest := by
  unfold Token.consWord
  split <;> rfl

-- The search for the closing parenthesis only looks at how each lexeme nests.
theorem closeTuple?_consLexeme (depth : Nat) (lexeme : Lexeme) (rest : List Token) :
    closeTuple? (depth + 1) (Token.consLexeme lexeme rest) =
      if nest (depth + 1) lexeme = 0 then some lexeme.start
      else closeTuple? (nest (depth + 1) lexeme) rest := by
  unfold Token.consLexeme nest
  cases plain : lexeme.plainByte? with
  | none => simp [closeTuple?]
  | some byte =>
    by_cases opens : byte = Ascii.openParen
    · subst opens
      simp +decide [closeTuple?]
    · by_cases closes : byte = Ascii.closeParen
      · subst closes
        simp +decide [closeTuple?]
      · by_cases word : Ascii.isWord byte = true
        · simp [word, opens, closes, closeTuple?_consWord]
        · by_cases blank : Ascii.isBlank byte = true
          · simp [word, blank, opens, closes, closeTuple?]
          · simp [word, blank, opens, closes, closeTuple?]

theorem closeTuple?_of_closes (closes : Closes (depth + 1) (front ++ [lexeme])) :
    closeTuple? (depth + 1) (Token.ofLexemes (front ++ lexeme :: back)) = some lexeme.start := by
  induction front generalizing depth with
  | nil =>
    have closed : nest (depth + 1) lexeme = 0 := closes.2
    rw [List.nil_append, Token.ofLexemes_cons, closeTuple?_consLexeme, if_pos closed]
  | cons first front ih =>
    obtain ⟨_, closes⟩ := closes
    rw [List.cons_append, Token.ofLexemes_cons, closeTuple?_consLexeme]
    cases nested : nest (depth + 1) first with
    | zero =>
      rw [nested] at closes
      cases front <;> exact absurd closes.1 (Nat.lt_irrefl 0)
    | succ deeper =>
      rw [nested] at closes
      rw [if_neg (Nat.succ_ne_zero _), ih closes]

theorem closeTuple?_split (found : closeTuple? (depth + 1) (Token.ofLexemes lexemes) = some close) :
    ∃ front lexeme back, lexemes = front ++ lexeme :: back ∧ lexeme.start = close ∧
      Closes (depth + 1) (front ++ [lexeme]) := by
  induction lexemes generalizing depth with
  | nil => cases found
  | cons first lexemes ih =>
    rw [Token.ofLexemes_cons, closeTuple?_consLexeme] at found
    cases nested : nest (depth + 1) first with
    | zero =>
      rw [if_pos nested] at found
      exact ⟨[], first, lexemes, rfl, Option.some.inj found, Nat.succ_pos _, nested⟩
    | succ deeper =>
      rw [nested, if_neg (Nat.succ_ne_zero _)] at found
      obtain ⟨front, lexeme, back, rfl, here, closes⟩ := ih found
      exact ⟨first :: front, lexeme, back, rfl, here, Nat.succ_pos _, nested ▸ closes⟩

theorem openAfterBlanks?_site (found : openAfterBlanks? tokens = some (start, rest)) :
    ∃ lead, tokens = lead ++ .sign start Ascii.openParen :: rest ∧
      ∀ other, openAfterBlanks? (lead ++ .sign start Ascii.openParen :: other) =
        some (start, other) := by
  induction tokens with
  | nil => cases found
  | cons token tokens ih =>
    cases token with
    | blank position byte =>
      obtain ⟨lead, rfl, same⟩ := ih found
      exact ⟨.blank position byte :: lead, rfl, same⟩
    | sign position byte =>
      by_cases opens : byte = Ascii.openParen
      · simp [openAfterBlanks?, Token.isBlank, opens] at found
        obtain ⟨rfl, rfl⟩ := found
        exact ⟨[], by rw [opens]; rfl, fun _ => rfl⟩
      · simp [openAfterBlanks?, Token.isBlank, opens] at found
    | word position text => cases found
    | turn lexeme => cases found

-- What stands behind a parenthesis has no say in whether blanks lead to it.
theorem openAfterBlanks?_none {lead : List Token}
    (missing : openAfterBlanks? (lead ++ .sign start Ascii.openParen :: rest) = none)
    (other : List Token) :
    openAfterBlanks? (lead ++ .sign start Ascii.openParen :: other) = none := by
  induction lead with
  | nil => cases missing
  | cons token lead ih =>
    cases token with
    | blank position byte => exact ih missing
    | sign position byte =>
      by_cases opens : byte = Ascii.openParen
      · simp [openAfterBlanks?, Token.isBlank, opens] at missing
      · simp [openAfterBlanks?, Token.isBlank, opens]
    | word position text => rfl
    | turn lexeme => rfl

theorem openTuple?_site (found : openTuple? previous tokens = some (start, rest)) :
    ∃ lead, tokens = lead ++ .sign start Ascii.openParen :: rest ∧
      ∀ other, openTuple? previous (lead ++ .sign start Ascii.openParen :: other) =
        some (start, other) := by
  induction tokens generalizing previous with
  | nil => cases found
  | cons token tokens ih =>
    unfold openTuple? at found
    split at found
    · rename_i clause
      split at found
      · rename_i opened here
        cases found
        obtain ⟨lead, rfl, same⟩ := openAfterBlanks?_site here
        refine ⟨token :: lead, rfl, fun other => ?_⟩
        rw [List.cons_append, openTuple?, if_pos clause, same]
      · rename_i missing
        obtain ⟨lead, rfl, same⟩ := ih found
        refine ⟨token :: lead, rfl, fun other => ?_⟩
        rw [List.cons_append, openTuple?, if_pos clause, openAfterBlanks?_none missing, same]
    · rename_i clause
      obtain ⟨lead, rfl, same⟩ := ih found
      refine ⟨token :: lead, rfl, fun other => ?_⟩
      rw [List.cons_append, openTuple?, if_neg clause, same]

-- A parenthesis, what it encloses and the parenthesis that closes it, read from
-- plain text.
def Group (rawBackslash : Bool) (text : Bytes) : Prop :=
  ∃ inner, text = Ascii.openParen :: inner ∧
    Closes 1 (Lexeme.ofTextFrom rawBackslash .plain 1 inner)

-- Plain text after which a parenthesis opens the first VALUES tuple, whatever it
-- encloses.
def Leads (rawBackslash : Bool) (lead : Bytes) : Prop :=
  finalContext rawBackslash lead = .plain ∧
    ∀ rest, openTuple? none
      (Token.ofText rawBackslash lead ++ .sign lead.length Ascii.openParen :: rest) =
        some (lead.length, rest)

theorem openParen_inert : Lexer.Inert Ascii.openParen := by decide

theorem closes_at (start : Nat)
    (closes : Closes depth (Lexeme.ofTextFrom rawBackslash context elsewhere inner)) :
    Closes depth (Lexeme.ofTextFrom rawBackslash context start inner) := by
  refine closes.congr ?_
  rw [Lexeme.map_plainByte?_start _ _ start, Lexeme.map_plainByte?_start _ _ elsewhere]

theorem Group.ends (group : Group rawBackslash text) (start : Nat) :
    Lexeme.endContext .plain (Lexeme.ofTextFrom rawBackslash .plain start text) = .plain := by
  obtain ⟨inner, rfl, closes⟩ := group
  rw [Lexeme.ofTextFrom_inert openParen_inert, Lexeme.endContext_cons]
  exact (closes_at _ closes).ends

theorem Group.last (group : Group rawBackslash text) :
    ∃ left, text = Ascii.openParen :: left ++ [Ascii.closeParen] := by
  obtain ⟨inner, rfl, closes⟩ := group
  obtain ⟨front, lexeme, run, close⟩ := closes.last
  obtain ⟨left, rfl, _⟩ := Lexeme.last_plain run close
  exact ⟨left, rfl⟩

theorem Group.seam (group : Group rawBackslash text) (right : Bytes) : Lexer.Seam text right := by
  obtain ⟨left, rfl⟩ := group.last
  exact Lexer.Inert.seam_after (by decide) _ right

-- The search from a group's opening parenthesis ends at the last byte of the group.
theorem Group.found (group : Group rawBackslash text) (start : Nat) :
    ∃ inside, Lexeme.ofTextFrom rawBackslash .plain start text =
        ⟨start, .plain, .plain, [Ascii.openParen]⟩ :: inside ∧
      ∀ later, closeTuple? 1 (Token.ofLexemes (inside ++ later)) =
        some (start + text.length - 1) := by
  obtain ⟨inner, rfl, closes⟩ := group
  have moved := closes_at (start + 1) closes
  obtain ⟨front, lexeme, run, close⟩ := moved.last
  obtain ⟨left, cut, here⟩ := Lexeme.last_plain run close
  refine ⟨_, Lexeme.ofTextFrom_inert openParen_inert start inner, fun later => ?_⟩
  rw [run] at moved ⊢
  rw [List.append_assoc, List.singleton_append, closeTuple?_of_closes moved, here, cut]
  simp only [List.length_cons, List.length_append, List.length_nil, Option.some.injEq]
  omega

theorem openParen_token (start : Nat) (rest : List Token) :
    Token.consLexeme ⟨start, .plain, .plain, [Ascii.openParen]⟩ rest =
      .sign start Ascii.openParen :: rest := Token.consLexeme_sign rfl (by decide) rest

theorem tupleSpan?_parts (tokens : List Token) (final : Context) :
    (ofTokens tokens final).tupleSpan? = some (start, stop) ↔
      ∃ rest close, openTuple? none tokens = some (start, rest) ∧
        closeTuple? 1 rest = some close ∧ stop = close + 1 := by
  simp only [ofTokens, tupleSpan?]
  cases opened : openTuple? none tokens with
  | none => simp
  | some found =>
    obtain ⟨place, behind⟩ := found
    simp only [Option.map_some, Option.bind_some]
    cases closed : closeTuple? 1 behind with
    | none =>
      constructor
      · intro span
        cases span
      · rintro ⟨_, _, same, ends, _⟩
        cases same
        rw [closed] at ends
        cases ends
    | some close =>
      constructor
      · intro span
        cases span
        exact ⟨_, _, rfl, closed, rfl⟩
      · rintro ⟨_, _, same, ends, rfl⟩
        cases same
        rw [closed] at ends
        cases ends
        rfl

-- The lexemes of a text around a group that plain text leads to.
theorem ofTextFrom_around (ends : finalContext rawBackslash lead = .plain)
    (group : Group rawBackslash tuple) (trail : Bytes) :
    Lexeme.ofText rawBackslash (lead ++ tuple ++ trail) =
      Lexeme.ofText rawBackslash lead ++
        (Lexeme.ofTextFrom rawBackslash .plain lead.length tuple ++
          Lexeme.ofTextFrom rawBackslash .plain (lead.length + tuple.length) trail) := by
  have opens : Lexer.Seam lead (tuple ++ trail) := by
    obtain ⟨left, rfl⟩ := group.last
    exact openParen_inert.seam_before _ _
  rw [Lexeme.ofText, List.append_assoc, Lexeme.ofTextFrom_append ends opens, Nat.zero_add,
    Lexeme.ofTextFrom_append (group.ends _) (group.seam _)]
  rfl

theorem tupleSpan?_of_group (leads : Leads rawBackslash lead) (group : Group rawBackslash tuple)
    (trail : Bytes) :
    (Statement.analyze rawBackslash (lead ++ tuple ++ trail)).classification.tupleSpan? =
      some (lead.length, lead.length + tuple.length) := by
  obtain ⟨inside, run, closes⟩ := group.found lead.length
  rw [Statement.analyze, tupleSpan?_parts, ofTextFrom_around leads.1 group, run, List.cons_append,
    Token.ofLexemes_append (openParen_token _) rfl]
  refine ⟨_, _, leads.2 _, closes _, ?_⟩
  obtain ⟨left, rfl⟩ := group.last
  simp only [List.length_append, List.length_cons]
  omega

theorem tupleSpan?_split
    (found : (Statement.analyze rawBackslash sql).classification.tupleSpan? = some (start, stop)) :
    ∃ lead tuple trail, sql = lead ++ tuple ++ trail ∧ start = lead.length ∧
      stop = lead.length + tuple.length ∧ Leads rawBackslash lead ∧ Group rawBackslash tuple := by
  rw [Statement.analyze, tupleSpan?_parts] at found
  obtain ⟨rest, close, opened, closed, rfl⟩ := found
  obtain ⟨before, tokens, stable⟩ := openTuple?_site opened
  obtain ⟨front, opener, back, run, rfl, rfl, alone⟩ := Token.ofLexemes_split rfl tokens
  obtain ⟨here, plain⟩ := Token.sign_consLexeme (alone [])
  obtain ⟨lead, right, rfl, rfl, ends, rfl, behind⟩ := Lexeme.split_plain run plain
  obtain ⟨inside, closer, later, split, place, closes⟩ := closeTuple?_split closed
  rw [behind, List.append_cons] at split
  obtain ⟨inner, trail, rfl, group, _⟩ := Lexeme.ofTextFrom_split split
  obtain ⟨before, last, same, close⟩ := closes.last
  obtain ⟨-, same⟩ := List.append_inj' same rfl
  obtain rfl := List.singleton_inj.mp same
  obtain ⟨left, cut, position⟩ := Lexeme.last_plain group.symm close
  simp only [Nat.zero_add] at here position group stable
  subst here
  refine ⟨lead, Ascii.openParen :: inner, trail, by simp, rfl, ?_, ⟨ends, stable⟩, inner, rfl, ?_⟩
  · rw [← place, position, cut]
    simp only [List.length_cons, List.length_append, List.length_nil]
    omega
  · rw [group] at closes
    exact closes_at 1 closes

end InsertBatch.Classification
