import InsertBatch.Proofs.BoundValues
import InsertBatch.Proofs.ScriptPieces

namespace InsertBatch

namespace Token

-- The first significant token in front of a parenthesis settles what a statement is.
theorem first_significant (front back : List Token) (start : Nat) :
    ((front ++ .sign start Ascii.openParen :: back).find? isSignificant).bind keyword? =
        some .insert ↔
      (front.find? isSignificant).bind keyword? = some .insert := by
  have first : (Token.sign start Ascii.openParen :: back).find? isSignificant =
      some (.sign start Ascii.openParen) := rfl
  rw [List.find?_append, first]
  cases front.find? isSignificant with
  | none => simp [keyword?]
  | some token => simp

end Token

namespace Classification
variable {rawBackslash : Bool} {lead tuple trail front : Bytes} {tuples : List Bytes}

-- What precedes the tuple of a mergeable statement.
structure Heads (rawBackslash : Bool) (lead : Bytes) : Prop where
  leads : Leads rawBackslash lead
  unmarked : Lexeme.placesOf Ascii.question (Lexeme.ofText rawBackslash lead) = []
  whole : (Outline.ofText rawBackslash lead).separates = false
  insert : ((Token.ofText rawBackslash lead).find? Token.isSignificant).bind Token.keyword? =
    some .insert

-- A tuple with nothing to bind.
structure Settled (rawBackslash : Bool) (tuple : Bytes) : Prop where
  group : Group rawBackslash tuple
  unmarked : Lexeme.placesOf Ascii.question (Lexeme.ofText rawBackslash tuple) = []
  whole : (Outline.ofText rawBackslash tuple).separates = false

-- What may follow it.
structure Trails (rawBackslash : Bool) (trail : Bytes) : Prop where
  unmarked : Lexeme.placesOf Ascii.question (Lexeme.ofText rawBackslash trail) = []
  quiet : (Outline.ofText rawBackslash trail).continues = false
  closed : ((finalContext rawBackslash trail).isQuoted ||
    finalContext rawBackslash trail == .blockComment) = false

theorem Group.seam_before (group : Group rawBackslash tuple) (left right : Bytes) :
    Lexer.Seam left (tuple ++ right) := by
  obtain ⟨inner, rfl, _⟩ := group
  exact openParen_inert.seam_before _ _

theorem Group.content (group : Group rawBackslash tuple) :
    (Outline.ofText rawBackslash tuple).content = true := by
  obtain ⟨inner, rfl, _⟩ := group
  rw [Outline.ofText, Lexeme.ofText, Lexeme.ofTextFrom_inert openParen_inert]
  rfl

-- Behind a semicolon in the tuple its closing parenthesis would be content.
theorem Group.whole (group : Group rawBackslash tuple)
    (quiet : (Outline.ofText rawBackslash tuple).continues = false) :
    (Outline.ofText rawBackslash tuple).separates = false := by
  obtain ⟨inner, rfl, closes⟩ := group
  obtain ⟨front, closer, inside, close⟩ := closes.last
  have content : Script.isContent closer = true := by
    unfold Script.isContent
    rw [close]
    rfl
  have single : Script.isSeparator closer = false := by
    unfold Script.isSeparator
    rw [close]
    rfl
  rw [Outline.ofText, Lexeme.ofText, Lexeme.ofTextFrom_inert openParen_inert, inside,
    ← List.cons_append, Outline.ofLexemes_append] at quiet ⊢
  simp only [Outline.andThen, Outline.ofLexemes_cons, Outline.ofLexemes_nil, Outline.ofLexeme,
    Outline.nothing, content, single, Bool.or_false, Bool.and_true, Bool.or_eq_false_iff] at quiet ⊢
  exact quiet.1.2

-- Plain text without marks and semicolons may stand in front of it.
theorem Trails.append (trails : Trails rawBackslash trail)
    (ends : finalContext rawBackslash front = .plain) (seam : Lexer.Seam front trail)
    (unmarked : Lexeme.placesOf Ascii.question (Lexeme.ofText rawBackslash front) = [])
    (whole : (Outline.ofText rawBackslash front).separates = false) :
    Trails rawBackslash (front ++ trail) := by
  refine ⟨(Lexeme.unmarked_append ends seam).mpr ⟨unmarked, trails.unmarked⟩, ?_, ?_⟩
  · rw [Outline.continues_append ends seam whole]
    exact trails.quiet
  · rw [finalContext_append ends seam]
    exact trails.closed

theorem Trails.joined (trails : Trails rawBackslash trail)
    (settled : ∀ tuple ∈ tuples, Settled rawBackslash tuple) :
    Trails rawBackslash (tuples.flatMap ([Ascii.comma] ++ ·) ++ trail) := by
  have comma : Lexer.Inert Ascii.comma := by decide
  have run : Lexeme.ofText rawBackslash [Ascii.comma] = [⟨0, .plain, .plain, [Ascii.comma]⟩] := by
    rw [Lexeme.ofText, Lexeme.ofTextFrom_inert comma, Lexeme.ofTextFrom_nil]
  induction tuples with
  | nil => exact trails
  | cons tuple tuples ih =>
    obtain ⟨first, settled⟩ := List.forall_mem_cons.mp settled
    have later := (ih settled).append (first.group.ends 0) (first.group.seam _) first.unmarked
      first.whole
    rw [List.flatMap_cons, List.append_assoc, List.append_assoc]
    refine later.append ?_ (comma.seam_after [] _) ?_ ?_
    · rw [finalContext, run]
      rfl
    · rw [run]
      rfl
    · rw [Outline.ofText, run]
      rfl

end Classification

namespace Statement
open Classification (Heads Settled Trails Group)
variable {rawBackslash : Bool} {sql lead tuple trail : Bytes}

-- One INSERT with nothing to bind, its first tuple between these two offsets and nothing
-- significant behind it.
structure Delimited (rawBackslash : Bool) (text : Bytes) (start close : Nat) : Prop where
  insert : (analyze rawBackslash text).classification.isInsert = true
  opens : (analyze rawBackslash text).classification.tupleOpen = some start
  closes : (analyze rawBackslash text).classification.tupleClose = some close
  bound : (analyze rawBackslash text).parameterCount = 0
  single : (analyze rawBackslash text).classification.hasSecondStatement = false
  terminated : (analyze rawBackslash text).classification.endsInsideLiteral = false
  alone : (Script.split rawBackslash text).length = 1

theorem tupleSpan?_some {found : Classification}
    (span : found.tupleSpan? = some (start, stop)) :
    found.tupleOpen = some start ∧ found.tupleClose = some (stop - 1) := by
  unfold Classification.tupleSpan? at span
  split at span
  · rename_i first close opens closes
    cases span
    exact ⟨opens, closes⟩
  · cases span

theorem tokens_around (ends : finalContext rawBackslash lead = .plain)
    (group : Group rawBackslash tuple) (trail : Bytes) :
    ∃ later, Token.ofText rawBackslash (lead ++ tuple ++ trail) =
      Token.ofText rawBackslash lead ++ .sign lead.length Ascii.openParen :: later := by
  obtain ⟨inside, run, _⟩ := group.found lead.length
  rw [Token.ofText, Classification.ofTextFrom_around ends group, run, List.cons_append,
    Token.ofLexemes_append (Classification.openParen_token _) rfl]
  exact ⟨_, rfl⟩

theorem isInsert_around (ends : finalContext rawBackslash lead = .plain)
    (group : Group rawBackslash tuple) (trail : Bytes) :
    (analyze rawBackslash (lead ++ tuple ++ trail)).classification.isInsert = true ↔
      ((Token.ofText rawBackslash lead).find? Token.isSignificant).bind Token.keyword? =
        some .insert := by
  obtain ⟨later, tokens⟩ := tokens_around ends group trail
  rw [← Token.first_significant _ later lead.length, ← tokens]
  exact beq_iff_eq

theorem lone_around (heads : Heads rawBackslash lead) (settled : Settled rawBackslash tuple)
    (quiet : (Outline.ofText rawBackslash (lead ++ tuple ++ trail)).continues = false) :
    (Script.split rawBackslash (lead ++ tuple ++ trail)).length = 1 := by
  have ends := heads.leads.1
  have seam := settled.group.seam_before lead []
  rw [List.append_nil] at seam
  have outline := Outline.ofText_append ends seam
  refine Script.lone_piece ?_ ?_ ?_ ?_ quiet
  · rw [finalContext_append ends seam]
    exact settled.group.ends 0
  · obtain ⟨inner, shape⟩ := settled.group.last
    rw [shape, ← List.append_assoc]
    exact Lexer.Inert.seam_after (by decide) _ _
  · rw [outline]
    simp [Outline.andThen, heads.whole, settled.whole]
  · rw [outline]
    simp [Outline.andThen, settled.group.content]

theorem delimited (heads : Heads rawBackslash lead) (settled : Settled rawBackslash tuple)
    (trails : Trails rawBackslash trail) :
    Delimited rawBackslash (lead ++ tuple ++ trail) lead.length
      (lead.length + tuple.length - 1) := by
  obtain ⟨opens, closes⟩ := tupleSpan?_some
    (Classification.tupleSpan?_of_group heads.leads settled.group trail)
  have ends := heads.leads.1
  have closed := settled.group.ends 0
  have seam := settled.group.seam_before lead trail
  have all := (trails.append closed (settled.group.seam trail) settled.unmarked
    settled.whole).append ends seam heads.unmarked heads.whole
  rw [← List.append_assoc] at all
  refine ⟨(isInsert_around ends settled.group trail).mpr heads.insert, opens, closes, ?_, ?_, ?_, ?_⟩
  · rw [parameterCount, analyze_marks, all.unmarked]
    rfl
  · rw [hasSecondStatement_outline]
    exact all.quiet
  · rw [endsInsideLiteral_final]
    exact all.closed
  · exact lone_around heads settled all.quiet

-- A mergeable text comes apart into such a head, a tuple without semicolons and such a
-- trail.
theorem mergeable_shape (mergeable : (analyze rawBackslash sql).isMergeable = true)
    {template : Template} (found : (analyze rawBackslash sql).template? = some template) :
    Heads rawBackslash template.lead ∧ Trails rawBackslash template.trail ∧
      ∃ tuple, Group rawBackslash tuple ∧ (Outline.ofText rawBackslash tuple).separates = false ∧
        Segment.IsCut rawBackslash .plain tuple template.tuple := by
  obtain ⟨tuple, text, leads, group, marks, shape⟩ := template_parts found
  obtain ⟨insert, _, _, _, _, single, _, _, terminated⟩ :=
    (Classification.isMergeable_iff _).mp mergeable
  have ends := leads.1
  have closed := group.ends 0
  have seam := group.seam_before template.lead template.trail
  have run := Classification.ofTextFrom_around ends group template.trail
  rw [← text] at run
  have counts := congrArg List.length marks
  rw [analyze_marks, run, Lexeme.placesOf_append, Lexeme.placesOf_append, List.length_append,
    List.length_append] at counts
  rw [text, List.append_assoc] at single terminated
  rw [hasSecondStatement_outline, Outline.ofText_append ends seam,
    Outline.ofText_append closed (group.seam _)] at single
  simp only [Outline.andThen, group.content, Bool.true_or, Bool.and_true,
    Bool.or_eq_false_iff] at single
  obtain ⟨⟨_, first⟩, ⟨inside, _⟩, behind⟩ := single
  rw [endsInsideLiteral_final, finalContext_append ends seam,
    finalContext_append closed (group.seam _)] at terminated
  refine ⟨⟨leads, ?_, first, ?_⟩, ⟨?_, behind, terminated⟩, tuple, group, group.whole inside, ?_⟩
  · exact List.eq_nil_of_length_eq_zero (by omega)
  · rw [text, isInsert_around ends group] at insert
    exact insert
  · have none : Lexeme.placesOf Ascii.question (Lexeme.ofTextFrom rawBackslash .plain
        (template.lead.length + tuple.length) template.trail) = [] :=
      List.eq_nil_of_length_eq_zero (by omega)
    rw [Lexeme.placesOf_start, List.map_eq_nil_iff] at none
    exact none
  · rw [shape, marks]
    exact Segment.cutFrom_isCut _ _ _ _ _

end Statement

namespace Template
open Classification (Group Settled)
variable {rawBackslash : Bool} {sql : Bytes} {template : Template} {row : Row}

theorem fill_settled (mergeable : (Statement.analyze rawBackslash sql).isMergeable = true)
    (found : (Statement.analyze rawBackslash sql).template? = some template)
    (fits : row.length = (Statement.analyze rawBackslash sql).parameterCount)
    (literal : ∀ value ∈ row, SelfContained rawBackslash value) :
    Settled rawBackslash (Segment.fill template.tuple row) := by
  obtain ⟨_, _, tuple, group, whole, cut⟩ := Statement.mergeable_shape mergeable found
  have size : row.length = Segment.parameterCount template.tuple := by
    rw [fits, ← Statement.template_parameterCount found]
    rfl
  obtain ⟨_, unmarked, outline⟩ := cut.fill_outline size literal
  refine ⟨group.fill cut size literal, unmarked, ?_⟩
  rw [Outline.ofText, Lexeme.ofText, outline]
  exact whole

theorem render_ok {rows : List Row} (fits : ∀ row ∈ rows, row.length = template.parameterCount) :
    template.render rows 0 = .ok (template.fillRows rows) := by
  rw [render, (misfit?_none _ _).mpr fits]

-- Merged rows are one INSERT again. Its first tuple opens where that of the statement did
-- and is as long as the tuple of the first row.
theorem render_delimited (rawBackslash : Bool) (sql : Bytes) (first : Row) (rest : List Row)
    (mergeable : (Statement.analyze rawBackslash sql).isMergeable = true)
    (fits : ∀ row ∈ first :: rest,
      row.length = (Statement.analyze rawBackslash sql).parameterCount)
    (literal : ∀ row ∈ first :: rest, ∀ value ∈ row, SelfContained rawBackslash value) :
    ∃ template start text, (Statement.analyze rawBackslash sql).template? = some template ∧
      (Statement.analyze rawBackslash sql).classification.tupleOpen = some start ∧
      template.render (first :: rest) 0 = .ok text ∧
      Statement.Delimited rawBackslash text start (start + template.tupleLength first - 1) := by
  obtain ⟨template, found⟩ := Statement.template?_of_isMergeable mergeable
  obtain ⟨tuple, text, leads, group, _⟩ := Statement.template_parts found
  obtain ⟨heads, trails, _⟩ := Statement.mergeable_shape mergeable found
  have opens := (Statement.tupleSpan?_some
    (Classification.tupleSpan?_of_group leads group template.trail)).1
  rw [← text] at opens
  have settled : ∀ row ∈ first :: rest, Settled rawBackslash (Segment.fill template.tuple row) :=
    fun row member => fill_settled mergeable found (fits row member) (literal row member)
  obtain ⟨head, settled⟩ := List.forall_mem_cons.mp settled
  have tail : ∀ tuple ∈ rest.map (Segment.fill template.tuple), Settled rawBackslash tuple := by
    intro tuple member
    obtain ⟨row, inside, rfl⟩ := List.mem_map.mp member
    exact settled row inside
  have count := Statement.template_parameterCount found
  have length : (Segment.fill template.tuple first).length = template.tupleLength first := by
    refine Segment.fill_length ?_
    rw [fits first List.mem_cons_self, ← count]
    rfl
  have sized : ∀ row ∈ first :: rest, row.length = template.parameterCount := by
    intro row member
    rw [count]
    exact fits row member
  refine ⟨template, _, _, found, opens, render_ok sized, ?_⟩
  have result := Statement.delimited heads head (trails.joined tail)
  rw [length] at result
  rw [fillRows, List.map_cons, Bytes.join_cons, ← List.append_assoc, List.append_assoc
    (template.lead ++ _)]
  exact result

theorem render_delimited_two :
    let sql := Bytes.ofString "INSERT INTO t VALUES (?, f(?), ';') ON DUPLICATE KEY UPDATE n = 1; -- ?"
    let rows := [["1", "'a)?'"], ["NULL", "'; ('"]].map (List.map Bytes.ofString)
    ∃ template start text, (Statement.analyze false sql).template? = some template ∧
      (Statement.analyze false sql).classification.tupleOpen = some start ∧
      template.render rows 0 = .ok text ∧
      Statement.Delimited false text start
        (start + template.tupleLength (["1", "'a)?'"].map Bytes.ofString) - 1) :=
  render_delimited _ _ _ _ (by decide +kernel) (by decide +kernel) (by decide +kernel)

end Template
end InsertBatch
