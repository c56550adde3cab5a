import InsertBatch.Proofs.BatchPlans

namespace InsertBatch

-- A value that stays one wherever a parameter stands: none of its plain bytes marks a
-- parameter, ends a statement or nests, and it forms no comment with its neighbours.
structure SelfContained (rawBackslash : Bool) (value : Bytes) : Prop where
  ends : finalContext rawBackslash value = .plain
  uncommented : ∀ lexeme ∈ Lexeme.ofText rawBackslash value, lexeme.after.isComment = false
  unmarked : ∀ lexeme ∈ Lexeme.ofText rawBackslash value, lexeme.plainByte?.all
    (· ∉ [Ascii.question, Ascii.semicolon, Ascii.openParen, Ascii.closeParen])
  content : ∃ byte ∈ value, Ascii.isBlank byte = false
  head : value.head? ≠ some Ascii.dash ∧ value.head? ≠ some Ascii.star
  last : value.getLast? ≠ some Ascii.dash ∧ value.getLast? ≠ some Ascii.slash

namespace SelfContained
variable {rawBackslash : Bool} {value : Bytes}

instance : Decidable (SelfContained rawBackslash value) :=
  decidable_of_iff (_ ∧ _ ∧ _ ∧ _ ∧ _ ∧ _)
    ⟨fun ⟨ends, uncommented, unmarked, content, head, last⟩ =>
      ⟨ends, uncommented, unmarked, content, head, last⟩,
    fun ⟨ends, uncommented, unmarked, content, head, last⟩ =>
      ⟨ends, uncommented, unmarked, content, head, last⟩⟩

theorem present (literal : SelfContained rawBackslash value) : value ≠ [] := by
  obtain ⟨byte, member, _⟩ := literal.content
  exact List.ne_nil_of_mem member

theorem seam_before (literal : SelfContained rawBackslash value) (left right : Bytes) :
    Lexer.Seam left (value ++ right) := by
  obtain ⟨dash, star⟩ := literal.head
  obtain ⟨byte, rest, rfl⟩ := List.exists_cons_of_ne_nil literal.present
  exact ⟨fun meet => dash meet.2, fun meet => star meet.2⟩

theorem seam_after (literal : SelfContained rawBackslash value) (right : Bytes) :
    Lexer.Seam value right :=
  ⟨fun meet => literal.last.1 meet.1, fun meet => literal.last.2 meet.1⟩

theorem ends_at (literal : SelfContained rawBackslash value) (start : Nat) :
    Lexeme.endContext .plain (Lexeme.ofTextFrom rawBackslash .plain start value) = .plain := by
  rw [Lexeme.endContext_start]
  exact literal.ends

theorem neutral (literal : SelfContained rawBackslash value) (start : Nat) :
    ∀ lexeme ∈ Lexeme.ofTextFrom rawBackslash .plain start value,
      lexeme.plainByte? ≠ some Ascii.openParen ∧ lexeme.plainByte? ≠ some Ascii.closeParen := by
  have moved := Lexeme.ofTextFrom_shift rawBackslash .plain 0 start value
  rw [Nat.zero_add] at moved
  intro lexeme member
  rw [moved] at member
  obtain ⟨original, found, rfl⟩ := List.mem_map.mp member
  have unmarked := literal.unmarked original found
  have free : ∀ byte, original.plainByte? = some byte → byte ≠ Ascii.openParen ∧
      byte ≠ Ascii.closeParen := by
    intro byte plain
    rw [plain, Option.all_some, decide_eq_true_eq] at unmarked
    simp only [List.mem_cons, not_or] at unmarked
    exact ⟨unmarked.2.2.1, unmarked.2.2.2.1⟩
  exact ⟨fun opens => (free _ opens).1 rfl, fun closes => (free _ closes).2 rfl⟩

end SelfContained

namespace Segment
open Lexeme (Closes)
variable {rawBackslash : Bool} {context : Context} {depth : Nat} {bytes : Bytes}
  {segments : List Segment} {values : List Bytes}

-- Values nest nothing, so with them in place of the marks the text closes where it did.
theorem IsCut.fill_closes (cut : IsCut rawBackslash context bytes segments)
    (fits : values.length = parameterCount segments)
    (literal : ∀ value ∈ values, SelfContained rawBackslash value)
    (closes : Closes depth (Lexeme.ofTextFrom rawBackslash context 0 bytes)) :
    Closes depth (Lexeme.ofTextFrom rawBackslash context 0 (fill segments values)) := by
  induction cut generalizing depth values with
  | last => simpa only [fill, List.append_nil] using closes
  | mark unmarked ends rest ih =>
    cases values with
    | nil => simp at fits
    | cons value values =>
      obtain ⟨first, literal⟩ := List.forall_mem_cons.mp literal
      have question : Lexer.Inert Ascii.question := by decide
      rw [Lexeme.ofTextFrom_append ends (question.seam_before _ _),
        Lexeme.ofTextFrom_inert question] at closes
      rw [fill, fill, Lexeme.ofTextFrom_append ends (first.seam_before _ _),
        Lexeme.ofTextFrom_append (first.ends_at _) (first.seam_after _)]
      refine closes.extend fun depth behind => ?_
      obtain ⟨positive, behind⟩ := behind
      have filled := ih (by simpa using fits) literal (Classification.closes_at 0 behind)
      exact .insert positive (Classification.closes_at _ filled) (first.neutral _)

theorem IsCut.behind {inner : Bytes}
    (cut : IsCut rawBackslash .plain (Ascii.openParen :: inner) segments) :
    ∃ others, IsCut rawBackslash .plain inner others ∧
      parameterCount others = parameterCount segments ∧
      ∀ values, fill segments values = Ascii.openParen :: fill others values := by
  have run : ∀ bytes, Lexeme.ofTextFrom rawBackslash .plain 0 (Ascii.openParen :: bytes) =
      _ :: _ := Lexeme.ofTextFrom_inert Classification.openParen_inert 0
  have unmarked_behind : ∀ bytes, Lexeme.placesOf Ascii.question
      (Lexeme.ofTextFrom rawBackslash .plain 0 (Ascii.openParen :: bytes)) = [] →
        Lexeme.placesOf Ascii.question (Lexeme.ofTextFrom rawBackslash .plain 0 bytes) = [] := by
    intro bytes unmarked
    rw [run] at unmarked
    have behind : Lexeme.placesOf Ascii.question
        (Lexeme.ofTextFrom rawBackslash .plain 1 bytes) = [] := unmarked
    rwa [Lexeme.placesOf_start, List.map_eq_nil_iff] at behind
  generalize whole : Ascii.openParen :: inner = bytes at cut
  cases cut with
  | last unmarked =>
    rw [← whole] at unmarked
    refine ⟨[.text inner], .last (unmarked_behind _ unmarked), by simp, fun values => ?_⟩
    rw [← whole]
    rfl
  | mark unmarked ends rest =>
    rename_i left right segments
    cases left with
    | nil => exact absurd (List.cons.inj whole).1 (by decide)
    | cons byte left =>
      obtain ⟨rfl, rfl⟩ := List.cons.inj whole
      rw [run, Lexeme.endContext_cons, Lexeme.endContext_start] at ends
      exact ⟨_, .mark (unmarked_behind _ unmarked) ends rest, by simp, fun values => rfl⟩

end Segment

namespace Classification

-- A tuple keeps its shape when values take the places of its marks.
theorem Group.fill (group : Group rawBackslash bytes)
    (cut : Segment.IsCut rawBackslash .plain bytes segments)
    (fits : values.length = Segment.parameterCount segments)
    (literal : ∀ value ∈ values, SelfContained rawBackslash value) :
    Group rawBackslash (Segment.fill segments values) := by
  obtain ⟨inner, rfl, closes⟩ := group
  obtain ⟨others, cut, count, same⟩ := cut.behind
  rw [← count] at fits
  rw [same]
  exact ⟨_, rfl, closes_at 1 (cut.fill_closes fits literal (closes_at 0 closes))⟩

-- A group at the front of a text, and the text behind it.
def groupAt? (rawBackslash : Bool) (text : Bytes) : Option (Bytes × Bytes) :=
  match Lexeme.ofText rawBackslash text with
  | [] => none
  | opener :: inside =>
    if opener.plainByte? = some Ascii.openParen then
      (closeTuple? 1 (Token.ofLexemes inside)).map fun close =>
        (text.take (close + 1), text.drop (close + 1))
    else none

-- The group that a comma joins to the tuple before, across blanks only. Behind a
-- parenthesis the text is plain, and so are blanks, a comma and blanks.
def nextTuple? (rawBackslash : Bool) (rest : Bytes) : Option (Bytes × Bytes) :=
  match rest.dropWhile Ascii.isBlank with
  | [] => none
  | byte :: behind =>
    if byte = Ascii.comma then groupAt? rawBackslash (behind.dropWhile Ascii.isBlank) else none

theorem groupAt?_shorter (found : groupAt? rawBackslash text = some (tuple, behind)) :
    behind.length < text.length := by
  unfold groupAt? at found
  split at found
  · cases found
  · rename_i opener inside run
    split at found
    · obtain ⟨close, _, same⟩ := Option.map_eq_some_iff.mp found
      cases same
      have present : text ≠ [] := by
        rintro rfl
        simp [Lexeme.ofText] at run
      have positive := List.length_pos_iff.mpr present
      rw [List.length_drop]
      omega
    · cases found

theorem nextTuple?_shorter (found : nextTuple? rawBackslash rest = some (tuple, behind)) :
    behind.length < rest.length := by
  unfold nextTuple? at found
  have front := (List.dropWhile_suffix Ascii.isBlank (l := rest)).length_le
  split at found
  · cases found
  · rename_i byte after cut
    split at found
    · have shorter := groupAt?_shorter found
      have back := (List.dropWhile_suffix Ascii.isBlank (l := after)).length_le
      rw [cut, List.length_cons] at front
      omega
    · cases found

def furtherTuples (rawBackslash : Bool) (rest : Bytes) : List Bytes :=
  match _ : nextTuple? rawBackslash rest with
  | none => []
  | some (tuple, behind) => tuple :: furtherTuples rawBackslash behind
termination_by rest.length
decreasing_by
  rename_i found
  exact nextTuple?_shorter found

-- The tuples that a text inserts: the first of its VALUES clause and those that
-- commas join to it.
def valuesTuples (rawBackslash : Bool) (text : Bytes) : List Bytes :=
  match (Statement.analyze rawBackslash text).classification.tupleSpan? with
  | none => []
  | some (start, stop) =>
    text.slice start stop :: furtherTuples rawBackslash (text.drop stop)

theorem groupAt?_group (group : Group rawBackslash tuple) (rest : Bytes) :
    groupAt? rawBackslash (tuple ++ rest) = some (tuple, rest) := by
  obtain ⟨inside, run, closes⟩ := group.found 0
  have close : 0 + tuple.length - 1 + 1 = tuple.length := by
    obtain ⟨left, rfl⟩ := group.last
    simp only [List.length_append, List.length_cons]
    omega
  unfold groupAt?
  rw [Lexeme.ofText, Lexeme.ofTextFrom_append (group.ends 0) (group.seam rest), run,
    List.cons_append]
  have opens : Lexeme.plainByte? ⟨0, .plain, .plain, [Ascii.openParen]⟩ =
      some Ascii.openParen := rfl
  simp only [opens, if_true, closes, Option.map_some, close, List.take_left, List.drop_left]

theorem nextTuple?_group (group : Group rawBackslash tuple) (rest : Bytes) :
    nextTuple? rawBackslash (Ascii.comma :: (tuple ++ rest)) = some (tuple, rest) := by
  have comma : (Ascii.comma :: (tuple ++ rest)).dropWhile Ascii.isBlank =
      Ascii.comma :: (tuple ++ rest) := List.dropWhile_cons_of_neg (by decide)
  have opens : (tuple ++ rest).dropWhile Ascii.isBlank = tuple ++ rest := by
    obtain ⟨left, rfl⟩ := group.last
    exact List.dropWhile_cons_of_neg (by decide)
  unfold nextTuple?
  rw [comma]
  simp only [if_true, opens]
  exact groupAt?_group group rest

theorem furtherTuples_groups (trail : Bytes)
    (groups : ∀ tuple ∈ tuples, Group rawBackslash tuple) :
    furtherTuples rawBackslash (tuples.flatMap ([Ascii.comma] ++ ·) ++ trail) =
      tuples ++ furtherTuples rawBackslash trail := by
  induction tuples with
  | nil => rfl
  | cons tuple tuples ih =>
    obtain ⟨group, groups⟩ := List.forall_mem_cons.mp groups
    have next := nextTuple?_group group (tuples.flatMap ([Ascii.comma] ++ ·) ++ trail)
    rw [List.flatMap_cons, List.append_assoc, List.append_assoc, List.singleton_append,
      furtherTuples]
    split
    · rename_i none
      rw [none] at next
      cases next
    · rename_i found
      rw [found] at next
      cases next
      rw [ih groups, List.cons_append]

theorem valuesTuples_group (leads : Leads rawBackslash lead) (group : Group rawBackslash tuple)
    (rest : Bytes) : valuesTuples rawBackslash (lead ++ tuple ++ rest) =
      tuple :: furtherTuples rawBackslash rest := by
  have span := tupleSpan?_of_group leads group rest
  have slice : (lead ++ tuple ++ rest).slice lead.length (lead.length + tuple.length) = tuple := by
    rw [Bytes.slice, ← List.length_append, List.take_left, List.drop_left]
  have behind : (lead ++ tuple ++ rest).drop (lead.length + tuple.length) = rest := by
    rw [← List.length_append, List.drop_left]
  rw [valuesTuples, span]
  simp only [slice, behind]

-- Joined with commas, tuples are inserted one after the other, and behind them what
-- the rest of the text inserts.
theorem valuesTuples_groups (leads : Leads rawBackslash lead) (present : tuples ≠ [])
    (groups : ∀ tuple ∈ tuples, Group rawBackslash tuple) (trail : Bytes) :
    valuesTuples rawBackslash (lead ++ Bytes.join [Ascii.comma] tuples ++ trail) =
      tuples ++ furtherTuples rawBackslash trail := by
  cases tuples with
  | nil => exact absurd rfl present
  | cons tuple tuples =>
    obtain ⟨group, groups⟩ := List.forall_mem_cons.mp groups
    rw [Bytes.join_cons, ← List.append_assoc, List.append_assoc (lead ++ tuple),
      valuesTuples_group leads group, furtherTuples_groups trail groups, List.cons_append]

example : valuesTuples false
    (Bytes.ofString "INSERT INTO t VALUES (1, ')'),(f(2)) , (3), 4 ON DUPLICATE KEY UPDATE n = (5)") =
      ["(1, ')')", "(f(2))", "(3)"].map Bytes.ofString := by decide +kernel

end Classification

namespace BatchPlan
open Classification (valuesTuples furtherTuples Group)
variable {rawBackslash : Bool} {sql : Bytes} {template : Template} {row : Row} {rows : List Row}

theorem fill_group (found : (Statement.analyze rawBackslash sql).template? = some template)
    (fits : row.length = (Statement.analyze rawBackslash sql).parameterCount)
    (literal : ∀ value ∈ row, SelfContained rawBackslash value) :
    Group rawBackslash (Segment.fill template.tuple row) := by
  obtain ⟨tuple, _, _, group, marks, shape⟩ := Statement.template_parts found
  have cut : Segment.IsCut rawBackslash .plain tuple template.tuple := by
    rw [shape, marks]
    exact Segment.cutFrom_isCut _ _ _ _ _
  refine group.fill cut ?_ literal
  rw [fits, ← Statement.template_parameterCount found]
  rfl

theorem sql_tuples (found : (Statement.analyze rawBackslash sql).template? = some template) :
    (valuesTuples rawBackslash sql).tail = furtherTuples rawBackslash template.trail := by
  obtain ⟨tuple, text, leads, group, _⟩ := Statement.template_parts found
  rw [text, Classification.valuesTuples_group leads group, List.tail_cons]

-- A generated statement inserts the tuple of each of its rows, and behind them the
-- literal tuples that the rest of the text holds.
theorem fillRows_tuples (found : (Statement.analyze rawBackslash sql).template? = some template)
    (present : rows ≠ [])
    (fits : ∀ row ∈ rows, row.length = (Statement.analyze rawBackslash sql).parameterCount)
    (literal : ∀ row ∈ rows, ∀ value ∈ row, SelfContained rawBackslash value) :
    valuesTuples rawBackslash (template.fillRows rows) =
      rows.map (Segment.fill template.tuple) ++ furtherTuples rawBackslash template.trail := by
  obtain ⟨_, _, leads, _⟩ := Statement.template_parts found
  refine Classification.valuesTuples_groups leads ?_ ?_ _
  · simpa using present
  · intro tuple member
    obtain ⟨row, inside, rfl⟩ := List.mem_map.mp member
    exact fill_group found (fits row inside) (literal row inside)

-- Merging sends every tuple of the rows once. The tuples that stand behind the first in
-- the text of the statement are sent once with each statement of the plan, where one
-- execution for each row would send them every time.
theorem merged_tuples (rawBackslash : Bool) (sql : Bytes) (rows : List Row)
    (options : BatchOptions)
    (chosen : Strategy.choose (Statement.analyze rawBackslash sql) options = .merged)
    (fits : ∀ row ∈ rows, row.length = (Statement.analyze rawBackslash sql).parameterCount)
    (literal : ∀ row ∈ rows, ∀ value ∈ row, SelfContained rawBackslash value) :
    ∃ plan lone, ofRows (Statement.analyze rawBackslash sql) rows options = .ok plan ∧
      rows.mapM (Statement.analyze rawBackslash sql).render = .ok lone ∧
      (lone.flatMap (valuesTuples rawBackslash)).Perm
        (plan.statements.flatMap (valuesTuples rawBackslash) ++
          (List.replicate (rows.length - plan.statements.length)
            (valuesTuples rawBackslash sql).tail).flatten) ∧
      ((lone.flatMap (valuesTuples rawBackslash)).Perm
          (plan.statements.flatMap (valuesTuples rawBackslash)) ↔
        (valuesTuples rawBackslash sql).tail = [] ∨ plan.statements.length = rows.length) := by
  obtain ⟨template, found⟩ := Statement.template?_of_isMergeable (Strategy.choose_merged chosen)
  have divides := Packing.pack_divides template.fixedLength options.maxPacket
    template.tupleLength rows
  have alone : ∀ row ∈ rows, valuesTuples rawBackslash (template.fillRows [row]) =
      [Segment.fill template.tuple row] ++ furtherTuples rawBackslash template.trail := by
    intro row member
    refine fillRows_tuples found (List.cons_ne_nil _ _) ?_ ?_
    · rw [List.forall_mem_singleton]
      exact fits row member
    · rw [List.forall_mem_singleton]
      exact literal row member
  have together : ∀ group ∈ Packing.pack template.fixedLength options.maxPacket
      template.tupleLength rows, valuesTuples rawBackslash (template.fillRows group) =
        group.map (Segment.fill template.tuple) ++ furtherTuples rawBackslash template.trail := by
    intro group member
    refine fillRows_tuples found (divides.filled group member) ?_ ?_
    · exact fun row inside => fits row (divides.mem member inside)
    · exact fun row inside => literal row (divides.mem member inside)
  have perm := divides.flatMap_perm (Segment.fill template.tuple)
    (furtherTuples rawBackslash template.trail)
  rw [← Packing.flatMap_map_congr alone, ← Packing.flatMap_map_congr together, ← sql_tuples found,
    ← List.length_map template.fillRows] at perm
  refine ⟨_, _, ofRows_ok fits, mapM_ok fun row member =>
    Statement.render_fillRows found (fits row member), ?_, ?_⟩
  all_goals rw [chosen, statementsFor, found]
  · exact perm
  · have fewer := divides.length_le
    rw [← List.length_map template.fillRows] at fewer
    refine (Packing.perm_append_iff perm).trans ((Packing.copies_nil _ _).trans ?_)
    refine or_congr_right ?_
    simp only [mergeRows]
    omega

theorem merged_tuples_two :
    let sql := Bytes.ofString "INSERT INTO t VALUES (?, ?), (0, ';')"
    let rows := [["1", "'a)?'"], ["2", "NULL"]].map (List.map Bytes.ofString)
    ∃ plan lone, ofRows (Statement.analyze false sql) rows {} = .ok plan ∧
      rows.mapM (Statement.analyze false sql).render = .ok lone ∧
      (lone.flatMap (valuesTuples false)).Perm
        (plan.statements.flatMap (valuesTuples false) ++
          (List.replicate (rows.length - plan.statements.length)
            (valuesTuples false sql).tail).flatten) ∧
      ((lone.flatMap (valuesTuples false)).Perm
          (plan.statements.flatMap (valuesTuples false)) ↔
        (valuesTuples false sql).tail = [] ∨ plan.statements.length = rows.length) :=
  merged_tuples _ _ _ _ (by decide +kernel) (by decide +kernel) (by decide +kernel)

-- Two rows merged: the literal tuple is sent once, and by executions of their own twice.
theorem merged_tuples_fewer :
    let sql := Bytes.ofString "INSERT INTO t VALUES (?),(2)"
    let rows := [[Bytes.ofString "1"], [Bytes.ofString "3"]]
    Strategy.choose (Statement.analyze false sql) {} = .merged ∧
      (∀ row ∈ rows, row.length = (Statement.analyze false sql).parameterCount) ∧
      (∀ row ∈ rows, ∀ value ∈ row, SelfContained false value) ∧
      ∃ plan lone, ofRows (Statement.analyze false sql) rows {} = .ok plan ∧
        rows.mapM (Statement.analyze false sql).render = .ok lone ∧
        ¬(lone.flatMap (valuesTuples false)).Perm
          (plan.statements.flatMap (valuesTuples false)) := by
  intro sql rows
  have fits : ∀ row ∈ rows, row.length = (Statement.analyze false sql).parameterCount := by
    decide +kernel
  refine ⟨by decide +kernel, fits, by decide +kernel, _, _, ofRows_ok fits, mapM_render fits,
    fun same => ?_⟩
  exact absurd same.length_eq (by decide +kernel)

end BatchPlan
end InsertBatch
