import InsertBatch.Proofs.FlagMeanings
import InsertBatch.Proofs.InsertHeads

namespace InsertBatch

namespace Lexeme
variable {depth : Nat} {lexemes : List Lexeme} {closer : Lexeme}

-- Where parentheses close only what they opened, one more closes all that is open.
theorem closes_of_balance (close : closer.plainByte? = some Ascii.closeParen)
    (nested : ∀ count, 0 ≤ depth + balance (lexemes.take count))
    (level : depth + balance lexemes = 0) : Closes (depth + 1) (lexemes ++ [closer]) := by
  induction lexemes generalizing depth with
  | nil =>
    have none : balance [] = 0 := rfl
    rw [none] at level
    obtain rfl : depth = 0 := by omega
    refine ⟨Nat.one_pos, ?_⟩
    simp +decide [nest, close, Closes]
  | cons first rest ih =>
    have deeper : (nest (depth + 1) first : Int) = (depth + 1 : Nat) + balance [first] :=
      nest_balance (Nat.succ_pos depth) first
    have one := nested 1
    rw [List.take_succ_cons, List.take_zero] at one
    obtain ⟨next, same⟩ : ∃ next, nest (depth + 1) first = next + 1 :=
      Nat.exists_eq_succ_of_ne_zero (by omega)
    have sum : ∀ others, balance (first :: others) = balance [first] + balance others :=
      balance_append [first]
    refine ⟨Nat.succ_pos depth, ?_⟩
    rw [same]
    apply ih
    · intro count
      have inside := nested (count + 1)
      rw [List.take_succ_cons, sum] at inside
      omega
    · rw [sum] at level
      omega

end Lexeme

namespace Grammar
open Lexeme (PlainAt SignificantAt SpelledAt)
open Classification (mentions)

-- What may stand between the parentheses, read alone.
structure Inside (rawBackslash : Bool) (body : Bytes) : Prop where
  ends : finalContext rawBackslash body = .plain
  nested : ∀ count, 0 ≤ Lexeme.balance ((Lexeme.ofText rawBackslash body).take count)
  level : Lexeme.balance (Lexeme.ofText rawBackslash body) = 0
  whole : ∀ position, ¬PlainAt (Lexeme.ofText rawBackslash body) position Ascii.semicolon
  noSelect : ∀ start, ¬SpelledAt rawBackslash body "select" start
  noLastInsertId : ∀ start, ¬SpelledAt rawBackslash body "last_insert_id" start

-- What may follow them.
structure Behind (rawBackslash : Bool) (trail : Bytes) : Prop where
  ends : finalContext rawBackslash trail = .plain ∨ finalContext rawBackslash trail = .lineComment
  unmarked : ∀ position, ¬PlainAt (Lexeme.ofText rawBackslash trail) position Ascii.question
  last : ∀ first later, PlainAt (Lexeme.ofText rawBackslash trail) first Ascii.semicolon →
    first < later → ¬SignificantAt rawBackslash trail later
  noSelect : ∀ start, ¬SpelledAt rawBackslash trail "select" start
  noLastInsertId : ∀ start, ¬SpelledAt rawBackslash trail "last_insert_id" start

structure PlainInsert (rawBackslash : Bool) where
  head : Head
  body : Bytes
  trail : Bytes
  inside : Inside rawBackslash body
  behind : Behind rawBackslash trail

def PlainInsert.tuple (insert : PlainInsert rawBackslash) : Bytes :=
  Ascii.openParen :: (insert.body ++ [Ascii.closeParen])

def PlainInsert.text (insert : PlainInsert rawBackslash) : Bytes :=
  insert.head.text ++ insert.tuple ++ insert.trail

variable {rawBackslash : Bool} {keyword : Keyword} {spelling : String}

theorem unspelled_iff {text : Bytes} (named : keyword.names = [spelling]) :
    (∀ start, ¬SpelledAt rawBackslash text spelling start) ↔
      mentions keyword (Token.ofText rawBackslash text) = false := by
  rw [Bool.eq_false_iff, ne_eq, Classification.mentions_iff named, not_exists]

-- The same told by what a scan of the text counts.
theorem inside_iff (rawBackslash : Bool) (body : Bytes) : Inside rawBackslash body ↔
    finalContext rawBackslash body = .plain ∧
      (∀ count < (Lexeme.ofText rawBackslash body).length,
        0 ≤ Lexeme.balance ((Lexeme.ofText rawBackslash body).take count)) ∧
      Lexeme.balance (Lexeme.ofText rawBackslash body) = 0 ∧
      (Outline.ofText rawBackslash body).separates = false ∧
      mentions .select (Token.ofText rawBackslash body) = false ∧
      mentions .lastInsertId (Token.ofText rawBackslash body) = false := by
  have whole : (Outline.ofText rawBackslash body).separates = false ↔ _ :=
    Lexeme.unseparated_iff (Lexeme.ofText rawBackslash body)
  rw [whole, ← unspelled_iff rfl, ← unspelled_iff rfl]
  constructor
  · intro inside
    exact ⟨inside.ends, fun count _ => inside.nested count, inside.level, inside.whole,
      inside.noSelect, inside.noLastInsertId⟩
  · intro told
    obtain ⟨ends, nested, level, whole, noSelect, noLastInsertId⟩ := told
    refine ⟨ends, ?_, level, whole, noSelect, noLastInsertId⟩
    intro count
    rcases Nat.lt_or_ge count (Lexeme.ofText rawBackslash body).length with early | late
    · exact nested count early
    · rw [List.take_of_length_le late]
      exact Int.le_of_eq level.symm

theorem behind_iff (rawBackslash : Bool) (trail : Bytes) : Behind rawBackslash trail ↔
    (finalContext rawBackslash trail = .plain ∨
        finalContext rawBackslash trail = .lineComment) ∧
      Lexeme.placesOf Ascii.question (Lexeme.ofText rawBackslash trail) = [] ∧
      (Outline.ofText rawBackslash trail).continues = false ∧
      mentions .select (Token.ofText rawBackslash trail) = false ∧
      mentions .lastInsertId (Token.ofText rawBackslash trail) = false := by
  rw [← unspelled_iff rfl, ← unspelled_iff rfl, List.eq_nil_iff_forall_not_mem,
    ← Statement.hasSecondStatement_outline, Bool.eq_false_iff, ne_eq,
    Statement.hasSecondStatement_iff]
  simp only [Lexeme.mem_placesOf, not_exists, not_and]
  constructor
  · intro behind
    exact ⟨behind.ends, behind.unmarked, behind.last, behind.noSelect, behind.noLastInsertId⟩
  · intro told
    obtain ⟨ends, unmarked, last, noSelect, noLastInsertId⟩ := told
    exact ⟨ends, unmarked, last, noSelect, noLastInsertId⟩

instance (rawBackslash : Bool) (body : Bytes) : Decidable (Inside rawBackslash body) :=
  decidable_of_iff _ (inside_iff rawBackslash body).symm

instance (rawBackslash : Bool) (trail : Bytes) : Decidable (Behind rawBackslash trail) :=
  decidable_of_iff _ (behind_iff rawBackslash trail).symm

namespace PlainInsert
open Statement (analyze)
open Classification (Group Trails)

theorem body_run (insert : PlainInsert rawBackslash) (start : Nat) :
    Lexeme.ofTextFrom rawBackslash .plain start (insert.body ++ [Ascii.closeParen]) =
      Lexeme.ofTextFrom rawBackslash .plain start insert.body ++
        [⟨start + insert.body.length, .plain, .plain, [Ascii.closeParen]⟩] := by
  have inert : Lexer.Inert Ascii.closeParen := by decide
  have ends := insert.inside.ends
  rw [finalContext, Lexeme.ofText, ← Lexeme.endContext_start _ _ _ start] at ends
  rw [Lexeme.ofTextFrom_append ends (inert.seam_before _ _), Lexeme.ofTextFrom_inert inert,
    Lexeme.ofTextFrom_nil]

theorem tuple_run (insert : PlainInsert rawBackslash) (start : Nat) :
    Lexeme.ofTextFrom rawBackslash .plain start insert.tuple =
      ⟨start, .plain, .plain, [Ascii.openParen]⟩ ::
        (Lexeme.ofTextFrom rawBackslash .plain (start + 1) insert.body ++
          [⟨start + 1 + insert.body.length, .plain, .plain, [Ascii.closeParen]⟩]) := by
  rw [tuple, Lexeme.ofTextFrom_inert Classification.openParen_inert, insert.body_run]

theorem group (insert : PlainInsert rawBackslash) : Group rawBackslash insert.tuple := by
  refine ⟨_, rfl, ?_⟩
  apply Classification.closes_at 1
  rw [insert.body_run 0]
  apply Lexeme.closes_of_balance
  · rfl
  · intro count
    rw [Int.natCast_zero, Int.zero_add]
    exact insert.inside.nested count
  · rw [Int.natCast_zero, Int.zero_add]
    exact insert.inside.level

theorem trails (insert : PlainInsert rawBackslash) : Trails rawBackslash insert.trail := by
  obtain ⟨ends, unmarked, quiet, _⟩ := (behind_iff _ _).mp insert.behind
  refine ⟨unmarked, quiet, ?_⟩
  rcases ends with plain | comment
  · rw [plain]
    rfl
  · rw [comment]
    rfl

theorem whole (insert : PlainInsert rawBackslash) :
    (Outline.ofText rawBackslash insert.tuple).separates = false := by
  obtain ⟨_, _, _, inside, _⟩ := (inside_iff _ _).mp insert.inside
  have sign : ∀ start, Script.isSeparator ⟨start, .plain, .plain, [Ascii.openParen]⟩ = false ∧
      Script.isSeparator ⟨start, .plain, .plain, [Ascii.closeParen]⟩ = false := by
    intro start
    exact ⟨rfl, rfl⟩
  rw [Outline.ofText, Lexeme.ofText, insert.tuple_run, Outline.ofLexemes_cons,
    Outline.ofLexemes_append, Outline.ofText_start]
  simp [Outline.andThen, Outline.ofLexeme, Outline.ofLexemes_cons, Outline.nothing, inside, sign]

-- The words of the text are those of its parts.
theorem mentions_parts (insert : PlainInsert rawBackslash) (keyword : Keyword) :
    mentions keyword (Token.ofText rawBackslash insert.text) =
      (mentions keyword (Token.ofText rawBackslash insert.head.text) ||
        mentions keyword (Token.ofText rawBackslash insert.body) ||
        mentions keyword (Token.ofText rawBackslash insert.trail)) := by
  have ends := (insert.head.heads rawBackslash).leads.1
  have closeParen : ∀ start rest, Token.consLexeme
      ⟨start, .plain, .plain, [Ascii.closeParen]⟩ rest = .sign start Ascii.closeParen :: rest := by
    intro start rest
    exact Token.consLexeme_sign rfl (by decide) rest
  rw [Token.ofText, text, Classification.ofTextFrom_around ends insert.group, insert.tuple_run,
    List.cons_append, Token.ofLexemes_append (Classification.openParen_token _) rfl,
    List.append_assoc, List.singleton_append, Token.ofLexemes_append (closeParen _) rfl]
  have body := Classification.mentions_start keyword rawBackslash
    (insert.head.text.length + 1) insert.body
  have trail := Classification.mentions_start keyword rawBackslash
    (insert.head.text.length + insert.tuple.length) insert.trail
  unfold mentions at body trail ⊢
  rw [List.any_append, List.any_cons, List.any_append, List.any_cons, body, trail]
  simp [Token.ofText, Token.keyword?, Bool.or_assoc]

theorem unmentioned (insert : PlainInsert rawBackslash)
    (absent : keyword ∉ [Keyword.insert, Keyword.values]) :
    mentions keyword (Token.ofText rawBackslash insert.text) = false := by
  obtain ⟨_, _, _, _, bodySelect, bodyLastInsertId⟩ := (inside_iff _ _).mp insert.inside
  obtain ⟨_, _, _, trailSelect, trailLastInsertId⟩ := (behind_iff _ _).mp insert.behind
  rw [insert.mentions_parts,
    Classification.mentions_within (insert.head.within rawBackslash) absent]
  cases keyword with
  | select => rw [bodySelect, trailSelect]; rfl
  | lastInsertId => rw [bodyLastInsertId, trailLastInsertId]; rfl
  | insert | values => simp at absent

theorem marks_inside (insert : PlainInsert rawBackslash) :
    ∀ mark ∈ (analyze rawBackslash insert.text).marks, insert.head.text.length < mark ∧
      mark + 1 < insert.head.text.length + insert.tuple.length := by
  have heads := insert.head.heads rawBackslash
  have trail := insert.trails.unmarked
  rw [Lexeme.ofText] at trail
  have marks : (analyze rawBackslash insert.text).marks = Lexeme.placesOf Ascii.question
      (Lexeme.ofTextFrom rawBackslash .plain insert.head.text.length insert.tuple) := by
    rw [Statement.analyze_marks, text, Classification.ofTextFrom_around heads.leads.1 insert.group,
      Lexeme.placesOf_append, Lexeme.placesOf_append, heads.unmarked,
      Lexeme.placesOf_start _ _ _ _ insert.trail, trail]
    simp
  intro mark member
  rw [marks] at member
  exact Template.group_marks insert.group _ mark member

-- Every such INSERT can be merged, and its tuple is the one between these parentheses.
theorem accepted (insert : PlainInsert rawBackslash) :
    (analyze rawBackslash insert.text).isMergeable = true ∧
      (analyze rawBackslash insert.text).classification.tupleSpan? =
        some (insert.head.text.length, insert.head.text.length + insert.tuple.length) := by
  have heads := insert.head.heads rawBackslash
  have ends := heads.leads.1
  have closed := insert.group.ends 0
  have opens := insert.group.seam_before insert.head.text insert.trail
  have closes := insert.group.seam insert.trail
  have span := Classification.tupleSpan?_of_group heads.leads insert.group insert.trail
  obtain ⟨first, last⟩ := Statement.tupleSpan?_some span
  refine ⟨(Classification.isMergeable_iff _).mpr ⟨?_, ?_, ?_, ?_, ?_, ?_, ?_, ?_, ?_⟩, span⟩
  · exact (Statement.isInsert_around ends insert.group _).mpr heads.insert
  · rw [text, first]
    rfl
  · rw [text, last]
    rfl
  · rw [Statement.analyze_parameterBeforeTuple, List.any_eq_false]
    intro mark member
    have bounds := insert.marks_inside mark member
    rw [text, first, Option.all_some, decide_eq_true_eq]
    omega
  · rw [Statement.analyze_parameterAfterTuple, List.any_eq_false]
    intro mark member
    have bounds := insert.marks_inside mark member
    rw [text, last, Option.any_some, decide_eq_true_eq]
    omega
  · rw [Statement.hasSecondStatement_outline, text, List.append_assoc,
      Outline.continues_append ends opens heads.whole,
      Outline.continues_append closed closes insert.whole]
    exact insert.trails.quiet
  · exact insert.unmentioned (by simp)
  · exact insert.unmentioned (by simp)
  · rw [Statement.endsInsideLiteral_final, text, List.append_assoc, finalContext_append ends opens,
      finalContext_append closed closes]
    exact insert.trails.closed

theorem accepted_nested :
    let sql := Bytes.ofString ("/* a */-- b\n insert INTO `order``s` ( id,`n` )Value " ++
      "(?, ('(' ), 0)on duplicate key update n = values(n); -- done")
    ∃ insert : PlainInsert false, insert.text = sql ∧ (analyze false sql).isMergeable = true ∧
      (analyze false sql).classification.tupleSpan? = some (52, 66) := by
  intro sql
  let head : Head :=
    { padding := _
      insert := Bytes.ofString "insert"
      insertGap := [Ascii.space]
      into := Bytes.ofString "INTO"
      intoGap := [Ascii.space]
      table := _
      columns := _
      values := Bytes.ofString "Value"
      valuesGap := [Ascii.space]
      padded := .comment (@Comment.block (Bytes.ofString " a ") (by decide))
        (.comment (@Comment.dashes (Bytes.ofString " b") (by decide))
          (@Padding.blank Ascii.space [] (by decide) .done))
      insertWord := by decide
      insertBlanks := by decide +kernel
      insertApart := by decide
      intoWord := by decide
      intoBlanks := by decide +kernel
      intoApart := by decide
      tableName := .quoted (@Quoted.next (Bytes.ofString "order") _ (by decide)
        (@Quoted.last (Bytes.ofString "s") (by decide)))
      columnNames := @Columns.list [Ascii.space] _ [] (by decide +kernel)
        (.inr (@Names.next [Ascii.space] (Bytes.ofString "id") [] _ (by decide +kernel)
          (.word (by decide) (by decide +kernel) (by intro keyword; cases keyword <;> decide))
          (by decide +kernel)
          (@Names.last [] _ [Ascii.space] (by decide +kernel)
            (.quoted (@Quoted.last (Bytes.ofString "n") (by decide))) (by decide +kernel))))
        (by decide +kernel)
      valuesWord := by decide
      valuesBlanks := by decide +kernel }
  let insert : PlainInsert false :=
    { head
      body := Bytes.ofString "?, ('(' ), 0"
      trail := Bytes.ofString "on duplicate key update n = values(n); -- done"
      inside := by decide +kernel
      behind := by decide +kernel }
  have text : insert.text = sql := by rfl
  obtain ⟨mergeable, span⟩ := insert.accepted
  rw [text] at mergeable span
  exact ⟨insert, text, mergeable, span⟩

end PlainInsert
end Grammar
end InsertBatch
