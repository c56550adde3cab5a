import InsertBatch.Proofs.BoundValues
import InsertBatch.Proofs.ScriptPieces

namespace InsertBatch

namespace Lexeme
variable {rawBackslash : Bool} {context : Context} {start : Nat} {rest : Bytes}

-- A run that ends in a line comment opened one.
theorem opens_of_lineComment (outside : context ≠ .lineComment)
    (ends : endContext context (ofTextFrom rawBackslash context start rest) = .lineComment) :
    (ofTextFrom rawBackslash context start rest).any opensLineComment = true := by
  fun_induction ofTextFrom rawBackslash context start rest with
  | case1 => exact absurd ends outside
  | case2 context start rest present step ih =>
    rw [List.any_cons, Bool.or_eq_true]
    by_cases opened : step.after = .lineComment
    · have comment : (Lexer.step rawBackslash context rest).after.isComment = true :=
        congrArg Context.isComment opened
      have plain := (Lexer.comment_before comment).resolve_right fun same =>
        outside (same.trans opened)
      exact .inl (by simp [opensLineComment, opened, plain, Context.isPlain])
    · exact .inr (ih opened ends)

end Lexeme

namespace Script
variable {rawBackslash : Bool} {text : Bytes} {texts : List Bytes}

-- One statement that is over before a semicolon behind it.
structure Joins (rawBackslash : Bool) (text : Bytes) : Prop where
  ends : finalContext rawBackslash text = .plain
  whole : (Outline.ofText rawBackslash text).separates = false
  content : (Outline.ofText rawBackslash text).content = true

theorem Joins.group (joins : Joins rawBackslash text) (start : Nat) :
    (∀ lexeme ∈ Lexeme.ofTextFrom rawBackslash .plain start text, isSeparator lexeme = false) ∧
      (Lexeme.ofTextFrom rawBackslash .plain start text).any isContent = true ∧
      bodyOf (Lexeme.ofTextFrom rawBackslash .plain start text) =
        Text.trimEnd (Text.trimStart text) := by
  have outline := Outline.ofText_start rawBackslash start text
  refine ⟨unseparated ?_, ?_, ?_⟩
  · rw [outline]
    exact joins.whole
  · rw [← Outline.content_any, outline]
    exact joins.content
  · rw [bodyOf, Lexeme.flatMap_text]

theorem groups_join (text : Bytes) (texts : List Bytes)
    (joins : ∀ other ∈ text :: texts, Joins rawBackslash other) (start : Nat) :
    ((groups (Lexeme.ofTextFrom rawBackslash .plain start
        (text ++ texts.flatMap ([Ascii.semicolon] ++ ·)))).filter (·.any isContent)).map bodyOf =
      (text :: texts).map fun text => Text.trimEnd (Text.trimStart text) := by
  induction texts generalizing text start with
  | nil =>
    have first := joins text List.mem_cons_self
    obtain ⟨whole, content, body⟩ := first.group start
    rw [List.flatMap_nil, List.append_nil, groups_whole whole]
    simp [content, body]
  | cons next texts ih =>
    obtain ⟨first, joins⟩ := List.forall_mem_cons.mp joins
    obtain ⟨whole, content, body⟩ := first.group start
    have semicolon : Lexer.Inert Ascii.semicolon := by decide
    have ends : Lexeme.endContext .plain (Lexeme.ofTextFrom rawBackslash .plain start text) =
        .plain := by
      rw [Lexeme.endContext_start]
      exact first.ends
    rw [List.flatMap_cons, List.append_assoc, List.singleton_append,
      Lexeme.ofTextFrom_append ends (semicolon.seam_before _ _),
      Lexeme.ofTextFrom_inert semicolon, groups_first whole rfl, List.filter_cons,
      if_pos content, List.map_cons, body, ih next joins]
    rfl

-- Joined with semicolons, such texts are the statements of the script, in order.
theorem split_join (present : texts ≠ []) (joins : ∀ text ∈ texts, Joins rawBackslash text) :
    (split rawBackslash (Bytes.join [Ascii.semicolon] texts)).map Piece.text =
      texts.map fun text => Text.trimEnd (Text.trimStart text) := by
  cases texts with
  | nil => exact absurd rfl present
  | cons text texts =>
    rw [split_texts, Bytes.join_cons]
    exact groups_join text texts joins 0

end Script

namespace Statement
variable {rawBackslash : Bool} {sql : Bytes} {values : Row}

theorem joins_of_joinable
    (joinable : (analyze rawBackslash sql).classification.joinable = true)
    (present : Script.split rawBackslash sql ≠ []) : Script.Joins rawBackslash sql := by
  rw [joinable_outline, endsInsideLiteral_final] at joinable
  simp only [Bool.and_eq_true, Bool.not_eq_true', Bool.or_eq_false_iff] at joinable
  obtain ⟨⟨whole, uncommented⟩, unquoted, unclosed⟩ := joinable
  refine ⟨?_, whole, Script.content_of_split present⟩
  rw [Outline.ofText, Outline.comments_any] at uncommented
  cases final : finalContext rawBackslash sql with
  | plain => rfl
  | lineComment =>
    rw [Lexeme.ofText, Lexeme.opens_of_lineComment (by simp) final] at uncommented
    cases uncommented
  | blockComment => simp [final] at unclosed
  | string quote | identifier | escape quote => simp [final, Context.isQuoted] at unquoted

theorem fill_joins (joins : Script.Joins rawBackslash sql)
    (fits : values.length = (analyze rawBackslash sql).parameterCount)
    (literal : ∀ value ∈ values, SelfContained rawBackslash value) :
    Script.Joins rawBackslash (Segment.fill (analyze rawBackslash sql).segments values) := by
  obtain ⟨ends, _, outline⟩ := fill_outline fits literal
  refine ⟨?_, ?_, ?_⟩
  · rw [ends]
    exact joins.ends
  · rw [outline]
    exact joins.whole
  · rw [outline]
    exact joins.content

end Statement

namespace BatchPlan
variable {rawBackslash : Bool} {sql : Bytes} {rows : List Row} {options : BatchOptions}

theorem joinable_of_joined {statement : Statement}
    (chosen : Strategy.choose statement options = .joined) :
    statement.classification.joinable = true := by
  unfold Strategy.choose at chosen
  split at chosen
  · cases chosen
  · split at chosen
    · rename_i both
      exact (Bool.and_eq_true_iff.mp both).2
    · cases chosen

-- Joining loses nothing: cut at its semicolons, each text of the plan gives back the
-- executions of its rows.
theorem joined_split (rawBackslash : Bool) (sql : Bytes) (rows : List Row) (options : BatchOptions)
    (chosen : Strategy.choose (Statement.analyze rawBackslash sql) options = .joined)
    (present : Script.split rawBackslash sql ≠ [])
    (fits : ∀ row ∈ rows, row.length = (Statement.analyze rawBackslash sql).parameterCount)
    (literal : ∀ row ∈ rows, ∀ value ∈ row, SelfContained rawBackslash value) :
    ∃ plan lone, ofRows (Statement.analyze rawBackslash sql) rows options = .ok plan ∧
      rows.mapM (Statement.analyze rawBackslash sql).render = .ok lone ∧
      (plan.statements.flatMap (Script.split rawBackslash)).map Piece.text =
        lone.map fun text => Text.trimEnd (Text.trimStart text) := by
  have joins := Statement.joins_of_joinable (joinable_of_joined chosen) present
  have each : ∀ text ∈ texts (Statement.analyze rawBackslash sql) rows,
      Script.Joins rawBackslash text := by
    intro text member
    obtain ⟨row, inside, rfl⟩ := List.mem_map.mp member
    exact Statement.fill_joins joins (fits row inside) (literal row inside)
  have divides := Packing.pack_divides 0 options.maxPacket List.length
    (texts (Statement.analyze rawBackslash sql) rows)
  refine ⟨_, _, ofRows_ok fits, mapM_render fits, ?_⟩
  have split : ∀ group ∈ Packing.pack 0 options.maxPacket List.length
      (texts (Statement.analyze rawBackslash sql) rows),
      (Script.split rawBackslash (Bytes.join [Ascii.semicolon] group)).map Piece.text =
        group.map fun text => Text.trimEnd (Text.trimStart text) := by
    intro group member
    refine Script.split_join (divides.filled group member) ?_
    intro text inside
    exact each text (divides.mem member inside)
  rw [chosen, statementsFor, joinTexts, List.map_flatMap]
  dsimp only
  rw [List.flatMap_map, List.flatMap_def, List.map_congr_left split, ← List.map_flatten,
    divides.covers]

theorem joined_split_three :
    let sql := Bytes.ofString " UPDATE t SET a = ? /* ; */ WHERE b = '; ?' "
    let rows := [["1"], ["';'"], ["NULL"]].map (List.map Bytes.ofString)
    let options := { joinStatements := true, maxPacket := 96 }
    ∃ plan lone, ofRows (Statement.analyze false sql) rows options = .ok plan ∧
      rows.mapM (Statement.analyze false sql).render = .ok lone ∧
      (plan.statements.flatMap (Script.split false)).map Piece.text =
        lone.map fun text => Text.trimEnd (Text.trimStart text) :=
  joined_split _ _ _ _ (by decide +kernel) (by decide +kernel) (by decide +kernel)
    (by decide +kernel)

end BatchPlan
end InsertBatch
