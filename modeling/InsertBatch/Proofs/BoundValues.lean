import InsertBatch.Proofs.InsertedTuples
import InsertBatch.Proofs.Outline

namespace InsertBatch

theorem Context.isQuoted_of {context : Context} (inside : context ≠ .plain)
    (uncommented : context.isComment = false) : context.isQuoted = true := by
  cases context with
  | plain => exact absurd rfl inside
  | lineComment | blockComment => cases uncommented
  | string quote => rfl
  | identifier => rfl
  | escape quote => rfl

namespace Lexeme
variable {rawBackslash : Bool} {context : Context} {start : Nat} {rest : Bytes}

-- Without comments and without content there is no way out of plain blanks.
theorem blank_of_contentless (plain : context = .plain)
    (uncommented : ∀ lexeme ∈ ofTextFrom rawBackslash context start rest,
      lexeme.after.isComment = false)
    (contentless : ∀ lexeme ∈ ofTextFrom rawBackslash context start rest,
      Script.isContent lexeme = false) :
    ∀ byte ∈ rest, Ascii.isBlank byte = true := by
  fun_induction ofTextFrom rawBackslash context start rest with
  | case1 =>
    intro byte member
    cases member
  | case2 context start rest present step ih =>
    subst plain
    obtain ⟨byte, rest, rfl⟩ := List.exists_cons_of_ne_nil present
    obtain ⟨open_, uncommented⟩ := List.forall_mem_cons.mp uncommented
    obtain ⟨empty, contentless⟩ := List.forall_mem_cons.mp contentless
    have after : step.after = .plain := by
      by_cases same : step.after = .plain
      · exact same
      · have quoted := Context.isQuoted_of same open_
        simp [Script.isContent, plainByte?, same, opensQuoted, Context.isPlain, quoted] at empty
    have single : step.length = 1 := Lexer.plainStep_plain after
    have blank : Ascii.isBlank byte = true := by
      simpa [Script.isContent, plainByte?, after, single] using empty
    rw [single, List.drop_succ_cons, List.drop_zero] at ih uncommented contentless
    intro other member
    rcases List.mem_cons.mp member with rfl | later
    · exact blank
    · exact ih after uncommented contentless other later

end Lexeme

namespace SelfContained
variable {rawBackslash : Bool} {value : Bytes}

theorem outline (literal : SelfContained rawBackslash value) :
    Outline.ofText rawBackslash value = .item := by
  have whole : (Outline.ofText rawBackslash value).separates = false := by
    rw [Outline.ofText, Outline.separates_any, List.any_eq_false]
    intro lexeme member separates
    have unmarked := literal.unmarked lexeme member
    rw [eq_of_beq separates] at unmarked
    exact absurd unmarked (by decide)
  have uncommented : (Outline.ofText rawBackslash value).comments = false := by
    rw [Outline.ofText, Outline.comments_any, List.any_eq_false]
    intro lexeme member opens
    have outside := literal.uncommented lexeme member
    simp only [Lexeme.opensLineComment, Bool.and_eq_true, beq_iff_eq] at opens
    rw [opens.2] at outside
    cases outside
  have content : (Outline.ofText rawBackslash value).content = true := by
    rw [Outline.ofText, Outline.content_any]
    cases found : (Lexeme.ofText rawBackslash value).any Script.isContent with
    | true => rfl
    | false =>
      rw [List.any_eq_false] at found
      obtain ⟨byte, member, filled⟩ := literal.content
      have blank := Lexeme.blank_of_contentless rfl literal.uncommented
        (fun lexeme inside => Bool.eq_false_iff.mpr (found lexeme inside)) byte member
      rw [filled] at blank
      cases blank
  exact Outline.ext whole uncommented content (Outline.continues_of_unseparated whole)

theorem marks_nil (literal : SelfContained rawBackslash value) :
    Lexeme.placesOf Ascii.question (Lexeme.ofText rawBackslash value) = [] := by
  refine List.eq_nil_iff_forall_not_mem.mpr ?_
  intro mark member
  obtain ⟨lexeme, found, _, question⟩ := Lexeme.mem_placesOf.mp member
  have unmarked := literal.unmarked lexeme found
  rw [question] at unmarked
  exact absurd unmarked (by decide)

end SelfContained

namespace Segment
variable {rawBackslash : Bool} {context : Context} {bytes : Bytes} {segments : List Segment}
  {values : List Bytes}

-- The text with values in the places of its marks reads on in the same contexts, has no
-- mark left and the same outline.
theorem IsCut.fill_outline (cut : IsCut rawBackslash context bytes segments)
    (fits : values.length = parameterCount segments)
    (literal : ∀ value ∈ values, SelfContained rawBackslash value) :
    Lexeme.endContext context (Lexeme.ofTextFrom rawBackslash context 0 (fill segments values)) =
        Lexeme.endContext context (Lexeme.ofTextFrom rawBackslash context 0 bytes) ∧
      Lexeme.placesOf Ascii.question
        (Lexeme.ofTextFrom rawBackslash context 0 (fill segments values)) = [] ∧
      Outline.ofLexemes (Lexeme.ofTextFrom rawBackslash context 0 (fill segments values)) =
        Outline.ofLexemes (Lexeme.ofTextFrom rawBackslash context 0 bytes) := by
  induction cut generalizing values with
  | last unmarked =>
    rw [fill, fill, List.append_nil]
    exact ⟨rfl, unmarked, rfl⟩
  | mark unmarked ends rest ih =>
    rename_i context left right segments
    cases values with
    | nil => simp at fits
    | cons value values =>
      obtain ⟨first, literal⟩ := List.forall_mem_cons.mp literal
      obtain ⟨sameEnd, noMarks, sameOutline⟩ := ih (by simpa using fits) literal
      have question : Lexer.Inert Ascii.question := by decide
      rw [fill, fill, Lexeme.ofTextFrom_append ends (first.seam_before _ _),
        Lexeme.ofTextFrom_append (first.ends_at _) (first.seam_after _),
        Lexeme.ofTextFrom_append ends (question.seam_before _ _),
        Lexeme.ofTextFrom_inert question]
      refine ⟨?_, ?_, ?_⟩
      · rw [Lexeme.endContext_append, Lexeme.endContext_append, Lexeme.endContext_append, ends,
          Lexeme.endContext_cons, first.ends_at, Lexeme.endContext_start, sameEnd,
          Lexeme.endContext_start _ _ _ (0 + left.length + 1)]
      · rw [Lexeme.placesOf_append, Lexeme.placesOf_append, unmarked,
          Lexeme.placesOf_start _ _ _ _ value,
          Lexeme.placesOf_start _ _ _ _ (fill segments values), noMarks]
        have none := first.marks_nil
        rw [Lexeme.ofText] at none
        rw [none]
        rfl
      · have here : Outline.ofLexeme ⟨0 + left.length, .plain, .plain, [Ascii.question]⟩ = .item :=
          rfl
        rw [Outline.ofLexemes_append, Outline.ofLexemes_append, Outline.ofLexemes_append,
          Outline.ofLexemes_cons, here, Outline.ofText_start, first.outline, Outline.ofText_start,
          Outline.ofText_start]
        rw [Outline.ofText_start, Outline.ofText_start] at sameOutline
        rw [sameOutline]

end Segment

namespace Statement
variable {rawBackslash : Bool} {sql : Bytes} {values : Row}

theorem segments_isCut (rawBackslash : Bool) (sql : Bytes) :
    Segment.IsCut rawBackslash .plain sql (analyze rawBackslash sql).segments := by
  have cut := Segment.cutFrom_isCut rawBackslash .plain 0 sql []
  rw [List.append_nil, Nat.zero_add] at cut
  rw [analyze_segments, analyze_marks]
  exact cut

theorem segments_parameterCount (rawBackslash : Bool) (sql : Bytes) :
    Segment.parameterCount (analyze rawBackslash sql).segments =
      (analyze rawBackslash sql).parameterCount := Segment.cutFrom_parameterCount _ _ _ _

theorem fill_outline (fits : values.length = (analyze rawBackslash sql).parameterCount)
    (literal : ∀ value ∈ values, SelfContained rawBackslash value) :
    finalContext rawBackslash (Segment.fill (analyze rawBackslash sql).segments values) =
        finalContext rawBackslash sql ∧
      Lexeme.placesOf Ascii.question (Lexeme.ofText rawBackslash
        (Segment.fill (analyze rawBackslash sql).segments values)) = [] ∧
      Outline.ofText rawBackslash (Segment.fill (analyze rawBackslash sql).segments values) =
        Outline.ofText rawBackslash sql := by
  rw [← segments_parameterCount] at fits
  exact (segments_isCut rawBackslash sql).fill_outline fits literal

-- Values change nothing about where the text ends, how many statements it holds and
-- whether it may be joined with others; they leave no mark to bind.
theorem render_structure (rawBackslash : Bool) (sql : Bytes) (values : Row)
    (fits : values.length = (analyze rawBackslash sql).parameterCount)
    (literal : ∀ value ∈ values, SelfContained rawBackslash value) :
    ∃ text, (analyze rawBackslash sql).render values = .ok text ∧
      finalContext rawBackslash text = finalContext rawBackslash sql ∧
      (analyze rawBackslash text).parameterCount = 0 ∧
      (analyze rawBackslash text).classification.hasSecondStatement =
        (analyze rawBackslash sql).classification.hasSecondStatement ∧
      (analyze rawBackslash text).classification.endsInsideLiteral =
        (analyze rawBackslash sql).classification.endsInsideLiteral ∧
      (analyze rawBackslash text).classification.joinable =
        (analyze rawBackslash sql).classification.joinable := by
  obtain ⟨ends, unmarked, outline⟩ := fill_outline fits literal
  refine ⟨_, render_ok fits, ends, ?_, ?_, ?_, ?_⟩
  · rw [parameterCount, analyze_marks, unmarked]
    rfl
  · rw [hasSecondStatement_outline, hasSecondStatement_outline, outline]
  · rw [endsInsideLiteral_final, endsInsideLiteral_final, ends]
  · rw [joinable_outline, joinable_outline, outline, endsInsideLiteral_final,
      endsInsideLiteral_final, ends]

theorem render_structure_two :
    let sql := Bytes.ofString "INSERT INTO t VALUES (?/?, 'a\\'?'); /* ? */ SELECT ?"
    let values := ["'x;?--'", "n.`)`", "'it\\'s'"].map Bytes.ofString
    ∃ text, (analyze false sql).render values = .ok text ∧
      finalContext false text = finalContext false sql ∧
      (analyze false text).parameterCount = 0 ∧
      (analyze false text).classification.hasSecondStatement =
        (analyze false sql).classification.hasSecondStatement ∧
      (analyze false text).classification.endsInsideLiteral =
        (analyze false sql).classification.endsInsideLiteral ∧
      (analyze false text).classification.joinable =
        (analyze false sql).classification.joinable :=
  render_structure _ _ _ (by decide +kernel) (by decide +kernel)

end Statement
end InsertBatch
