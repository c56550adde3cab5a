import InsertBatch.Proofs.Cutting
import InsertBatch.Proofs.TupleShape

namespace InsertBatch.Classification

theorem guard_isNone (blocks : Bool) (reason : Blocker) (rest : Option Blocker) :
    (if blocks then some reason else rest).isNone = (!blocks && rest.isNone) := by
  cases blocks <;> rfl

-- A classification blocks merging unless all nine conditions hold.
theorem isMergeable_iff (found : Classification) :
    found.isMergeable = true ↔ found.isInsert = true ∧ found.tupleOpen.isSome = true ∧
      found.tupleClose.isSome = true ∧ found.parameterBeforeTuple = false ∧
      found.parameterAfterTuple = false ∧ found.hasSecondStatement = false ∧
      found.mentionsSelect = false ∧ found.mentionsLastInsertId = false ∧
      found.endsInsideLiteral = false := by
  unfold isMergeable blocker?
  simp only [guard_isNone]
  simp only [Bool.not_not, Bool.and_eq_true, Bool.not_eq_true', Option.isNone_eq_false_iff,
    Option.isNone_none, and_true]

theorem tupleSpan?_of_isMergeable {found : Classification} (mergeable : found.isMergeable = true) :
    ∃ start close, found.tupleOpen = some start ∧ found.tupleClose = some close ∧
      found.tupleSpan? = some (start, close + 1) := by
  obtain ⟨_, opens, closes, _⟩ := found.isMergeable_iff.mp mergeable
  obtain ⟨start, opened⟩ := Option.isSome_iff_exists.mp opens
  obtain ⟨close, closed⟩ := Option.isSome_iff_exists.mp closes
  exact ⟨start, close, opened, closed, by simp [tupleSpan?, opened, closed]⟩

end InsertBatch.Classification

namespace InsertBatch.Statement
open Classification (Group Leads)
variable {rawBackslash : Bool} {sql : Bytes} {start stop : Nat}

theorem analyze_marks (rawBackslash : Bool) (sql : Bytes) :
    (analyze rawBackslash sql).marks =
      Lexeme.placesOf Ascii.question (Lexeme.ofText rawBackslash sql) :=
  Token.marks_ofLexemes _

theorem analyze_parameterBeforeTuple (rawBackslash : Bool) (sql : Bytes) :
    (analyze rawBackslash sql).classification.parameterBeforeTuple =
      (analyze rawBackslash sql).marks.any fun mark =>
        (analyze rawBackslash sql).classification.tupleOpen.all (mark < ·) := rfl

theorem analyze_parameterAfterTuple (rawBackslash : Bool) (sql : Bytes) :
    (analyze rawBackslash sql).classification.parameterAfterTuple =
      (analyze rawBackslash sql).marks.any fun mark =>
        (analyze rawBackslash sql).classification.tupleClose.any (· < mark) := rfl

-- Marks outside the tuple block merging.
theorem marks_within (mergeable : (analyze rawBackslash sql).isMergeable = true)
    (span : (analyze rawBackslash sql).classification.tupleSpan? = some (start, stop)) :
    ∀ mark ∈ (analyze rawBackslash sql).marks, start ≤ mark ∧ mark < stop := by
  intro mark member
  obtain ⟨first, close, opened, closed, found⟩ :=
    Classification.tupleSpan?_of_isMergeable mergeable
  rw [found, Option.some.injEq, Prod.mk.injEq] at span
  obtain ⟨rfl, rfl⟩ := span
  obtain ⟨_, _, _, before, after, _⟩ := (Classification.isMergeable_iff _).mp mergeable
  rw [analyze_parameterBeforeTuple, opened, List.any_eq_false] at before
  rw [analyze_parameterAfterTuple, closed, List.any_eq_false] at after
  have lower := before mark member
  have upper := after mark member
  simp only [Option.all_some, Option.any_some, decide_eq_true_eq] at lower upper
  omega

-- A mergeable text is plain text that leads to a group, the group with all marks of
-- the text, and a rest. Its template is cut just there.
theorem mergeable_parts (mergeable : (analyze rawBackslash sql).isMergeable = true) :
    ∃ lead tuple trail, sql = lead ++ tuple ++ trail ∧ Leads rawBackslash lead ∧
      Group rawBackslash tuple ∧
      (analyze rawBackslash sql).marks =
        Lexeme.placesOf Ascii.question (Lexeme.ofTextFrom rawBackslash .plain lead.length tuple) ∧
      (analyze rawBackslash sql).template? = some
        { lead, trail
          tuple := Segment.cutFrom lead.length (tuple ++ trail) (lead.length + tuple.length)
            (analyze rawBackslash sql).marks } := by
  obtain ⟨_, _, _, _, span⟩ := Classification.tupleSpan?_of_isMergeable mergeable
  obtain ⟨lead, tuple, trail, rfl, rfl, stop, leads, group⟩ := Classification.tupleSpan?_split span
  have within := marks_within mergeable span
  have marks := analyze_marks rawBackslash (lead ++ tuple ++ trail)
  rw [Classification.ofTextFrom_around leads.1 group, Lexeme.placesOf_append,
    Lexeme.placesOf_append] at marks
  have front : Lexeme.placesOf Ascii.question (Lexeme.ofText rawBackslash lead) = [] := by
    refine List.eq_nil_iff_forall_not_mem.mpr fun mark member => ?_
    have inside := within mark (by rw [marks]; exact List.mem_append_left _ member)
    have bounds := Lexeme.placesOf_bounds member
    omega
  have back : Lexeme.placesOf Ascii.question (Lexeme.ofTextFrom rawBackslash .plain
      (lead.length + tuple.length) trail) = [] := by
    refine List.eq_nil_iff_forall_not_mem.mpr fun mark member => ?_
    have inside := within mark (by
      rw [marks]
      exact List.mem_append_right _ (List.mem_append_right _ member))
    have bounds := Lexeme.placesOf_bounds member
    omega
  refine ⟨lead, tuple, trail, rfl, leads, group, by rw [marks, front, back]; simp, ?_⟩
  have rest : (lead ++ tuple ++ trail).drop lead.length = tuple ++ trail := by
    rw [List.append_assoc, List.drop_left]
  have ends : (lead ++ tuple ++ trail).drop (lead.length + tuple.length) = trail := by
    rw [← List.length_append, List.drop_left]
  have begins : (lead ++ tuple ++ trail).take lead.length = lead := by
    rw [List.append_assoc, List.take_left]
  have text : (analyze rawBackslash (lead ++ tuple ++ trail)).sql = lead ++ tuple ++ trail := rfl
  rw [template?, if_pos mergeable, span, stop]
  simp only [Option.map_some, Bytes.slice, Segment.cut, List.drop_zero, text, List.take_length,
    begins, rest, ends]

theorem template?_isMergeable {statement : Statement} {template : Template}
    (found : statement.template? = some template) : statement.isMergeable = true := by
  unfold template? at found
  split at found
  · assumption
  · cases found

-- The same parts, named by the template that is cut from them.
theorem template_parts {template : Template}
    (found : (analyze rawBackslash sql).template? = some template) :
    ∃ tuple, sql = template.lead ++ tuple ++ template.trail ∧ Leads rawBackslash template.lead ∧
      Group rawBackslash tuple ∧
      (analyze rawBackslash sql).marks =
        Lexeme.placesOf Ascii.question
          (Lexeme.ofTextFrom rawBackslash .plain template.lead.length tuple) ∧
      template.tuple = Segment.cutFrom template.lead.length (tuple ++ template.trail)
        (template.lead.length + tuple.length) (analyze rawBackslash sql).marks := by
  obtain ⟨lead, tuple, trail, rfl, leads, group, marks, cut⟩ :=
    mergeable_parts (template?_isMergeable found)
  rw [cut, Option.some.injEq] at found
  subst found
  exact ⟨tuple, rfl, leads, group, marks, rfl⟩

theorem template?_of_isMergeable (mergeable : (analyze rawBackslash sql).isMergeable = true) :
    ∃ template, (analyze rawBackslash sql).template? = some template := by
  obtain ⟨_, _, _, _, _, _, _, found⟩ := mergeable_parts mergeable
  exact ⟨_, found⟩

theorem template_parameterCount {template : Template}
    (found : (analyze rawBackslash sql).template? = some template) :
    template.parameterCount = (analyze rawBackslash sql).parameterCount := by
  obtain ⟨_, _, _, _, _, shape⟩ := template_parts found
  rw [Template.parameterCount, shape]
  exact Segment.cutFrom_parameterCount _ _ _ _

end InsertBatch.Statement

namespace InsertBatch.Lexeme
variable {depth : Nat} {lexemes front back : List Lexeme}

-- Plain parentheses opened less those closed.
def balance (lexemes : List Lexeme) : Int :=
  lexemes.countP (·.plainByte? == some Ascii.openParen) -
    lexemes.countP (·.plainByte? == some Ascii.closeParen)

theorem balance_append (front back : List Lexeme) :
    balance (front ++ back) = balance front + balance back := by
  simp only [balance, List.countP_append]
  omega

theorem nest_balance (positive : 0 < depth) (lexeme : Lexeme) :
    (nest depth lexeme : Int) = depth + balance [lexeme] := by
  unfold nest balance
  by_cases opens : lexeme.plainByte? = some Ascii.openParen
  · simp +decide [opens]
  · by_cases closes : lexeme.plainByte? = some Ascii.closeParen
    · simp +decide [closes]
      omega
    · simp [opens, closes]

-- Until its last lexeme a closing run keeps some parenthesis open; behind it all
-- are closed.
theorem Closes.balance (closes : Closes depth lexemes) :
    (∀ front back, lexemes = front ++ back → back ≠ [] → 0 < depth + Lexeme.balance front) ∧
      depth + Lexeme.balance lexemes = 0 := by
  induction lexemes generalizing depth with
  | nil =>
    obtain rfl : depth = 0 := closes
    refine ⟨fun front back empty more => ?_, rfl⟩
    exact absurd (List.append_eq_nil_iff.mp empty.symm).2 more
  | cons first rest ih =>
    obtain ⟨positive, closes⟩ := closes
    obtain ⟨proper, all⟩ := ih closes
    have nested := nest_balance positive first
    have head := fun (others : List Lexeme) => balance_append [first] others
    refine ⟨fun front back split more => ?_, ?_⟩
    · cases front with
      | nil => simpa [Lexeme.balance] using positive
      | cons _ front =>
        obtain ⟨rfl, tail⟩ := List.cons.inj split
        have inside := proper front back tail more
        have sum := head front
        simp only [List.singleton_append] at sum
        omega
    · have sum := head rest
      simp only [List.singleton_append] at sum
      omega

-- Lexemes stand in the order of their places, so those before a place come first.
theorem filter_start (increase : lexemes.Pairwise (·.start < ·.start)) (stop : Nat) :
    ∃ back, lexemes = lexemes.filter (·.start < stop) ++ back := by
  induction lexemes with
  | nil => exact ⟨[], rfl⟩
  | cons first rest ih =>
    obtain ⟨later, increase⟩ := List.pairwise_cons.mp increase
    by_cases before : first.start < stop
    · obtain ⟨back, split⟩ := ih increase
      refine ⟨back, ?_⟩
      rw [List.filter_cons_of_pos (by simpa using before), List.cons_append, ← split]
    · have none : rest.filter (·.start < stop) = [] := by
        refine List.filter_eq_nil_iff.mpr fun lexeme member => ?_
        have beyond := later lexeme member
        simp only [decide_eq_true_eq]
        omega
      refine ⟨first :: rest, ?_⟩
      rw [List.filter_cons_of_neg (by simpa using before), none, List.nil_append]

end InsertBatch.Lexeme

namespace InsertBatch.Template
open Classification (Group)
variable {rawBackslash : Bool} {sql bytes : Bytes} {template : Template}

-- How many parentheses are open before `stop` in a text that starts plain. Those in
-- strings, identifiers and comments do not count.
def parenDepth (rawBackslash : Bool) (bytes : Bytes) (stop : Nat) : Int :=
  Lexeme.balance ((Lexeme.ofText rawBackslash bytes).filter (·.start < stop))

theorem group_depth (group : Group rawBackslash bytes) :
    (∀ stop, 0 < stop → stop < bytes.length → 0 < parenDepth rawBackslash bytes stop) ∧
      parenDepth rawBackslash bytes bytes.length = 0 := by
  obtain ⟨inner, rfl, closes⟩ := group
  have run : Lexeme.ofText rawBackslash (Ascii.openParen :: inner) = _ :: _ :=
    Lexeme.ofTextFrom_inert Classification.openParen_inert 0 inner
  obtain ⟨proper, all⟩ := closes.balance
  have increase := Lexeme.starts_increase rawBackslash .plain 1 inner
  obtain ⟨front, closer, inside, close⟩ := closes.last
  obtain ⟨left, cut, last⟩ := Lexeme.last_plain inside close
  have opener := fun (others : List Lexeme) =>
    Lexeme.balance_append [⟨0, .plain, .plain, [Ascii.openParen]⟩] others
  have one : Lexeme.balance [⟨0, .plain, .plain, [Ascii.openParen]⟩] = 1 := by decide
  simp only [List.singleton_append, one] at opener
  refine ⟨fun stop positive before => ?_, ?_⟩
  · obtain ⟨back, split⟩ := Lexeme.filter_start increase stop
    have more : back ≠ [] := by
      rintro rfl
      rw [List.append_nil] at split
      have member : closer ∈ Lexeme.ofTextFrom rawBackslash .plain 1 inner := by simp [inside]
      rw [split] at member
      have early := (List.mem_filter.mp member).2
      simp only [decide_eq_true_eq, last, cut, List.length_cons, List.length_append,
        List.length_nil] at early before
      omega
    have open_ := proper _ _ split more
    rw [parenDepth, run, List.filter_cons_of_pos (by simpa using positive), opener]
    exact open_
  · have every : (Lexeme.ofTextFrom rawBackslash .plain 1 inner).filter
        (·.start < (Ascii.openParen :: inner).length) =
          Lexeme.ofTextFrom rawBackslash .plain 1 inner := by
      refine List.filter_eq_self.mpr fun lexeme member => ?_
      have bounds := Lexeme.start_bounds member
      simp only [List.length_cons, decide_eq_true_eq]
      omega
    rw [parenDepth, run, List.filter_cons_of_pos (by simp), opener, every]
    exact all

-- The tuple as it stands in the text of the statement.
def tupleText (template : Template) : Bytes :=
  Segment.reassemble [Ascii.question] template.tuple

-- What makes a template one of its statement: it loses no byte, keeps every parameter
-- strictly between the parentheses of its tuple, and its parts can be read apart.
structure Sound (statement : Statement) (template : Template) : Prop where
  whole : template.lead ++ template.tupleText ++ template.trail = statement.sql
  alternates : Segment.Alternating template.tuple
  parameters : template.parameterCount = statement.parameterCount
  between : ∀ mark ∈ statement.marks, template.lead.length < mark ∧
    mark + 1 < template.lead.length + template.tupleText.length
  opens : template.tupleText.head? = some Ascii.openParen
  closes : template.tupleText.getLast? = some Ascii.closeParen
  ends : finalContext statement.rawBackslash template.tupleText = .plain
  inside : ∀ stop, 0 < stop → stop < template.tupleText.length →
    0 < parenDepth statement.rawBackslash template.tupleText stop
  balanced : parenDepth statement.rawBackslash template.tupleText template.tupleText.length = 0
  leads : finalContext statement.rawBackslash template.lead = .plain

-- The opening and the closing parenthesis of a group are no marks.
theorem group_marks (group : Group rawBackslash bytes) (start : Nat) :
    ∀ mark ∈ Lexeme.placesOf Ascii.question (Lexeme.ofTextFrom rawBackslash .plain start bytes),
      start < mark ∧ mark + 1 < start + bytes.length := by
  obtain ⟨inner, rfl, closes⟩ := group
  intro mark member
  rw [Lexeme.ofTextFrom_inert Classification.openParen_inert] at member
  have behind : mark ∈ Lexeme.placesOf Ascii.question
      (Lexeme.ofTextFrom rawBackslash .plain (start + 1) inner) :=
    member
  have bounds := Lexeme.placesOf_bounds behind
  obtain ⟨front, closer, inside, close⟩ := (Classification.closes_at (start + 1) closes).last
  obtain ⟨left, cut, last⟩ := Lexeme.last_plain inside close
  have increase := Lexeme.starts_increase rawBackslash .plain (start + 1) inner
  obtain ⟨lexeme, found, rfl, plain⟩ := Lexeme.mem_placesOf.mp behind
  rw [inside] at found increase
  rcases List.mem_append.mp found with earlier | same
  · have before := (List.pairwise_append.mp increase).2.2 lexeme earlier closer (by simp)
    simp only [cut, List.length_cons, List.length_append, List.length_nil]
    omega
  · rw [List.mem_singleton.mp same, close] at plain
    exact absurd plain (by decide)

theorem sound (found : (Statement.analyze rawBackslash sql).template? = some template) :
    Sound (Statement.analyze rawBackslash sql) template := by
  obtain ⟨tuple, text, leads, group, marks, shape⟩ := Statement.template_parts found
  have same : template.tupleText = tuple := by
    rw [tupleText, shape, marks]
    exact (Segment.cutFrom_isCut _ _ _ _ _).reassemble
  obtain ⟨proper, all⟩ := group_depth group
  obtain ⟨left, closed⟩ := group.last
  refine
    { whole := ?_, alternates := ?_, parameters := Statement.template_parameterCount found
      between := ?_, opens := ?_, closes := ?_, ends := ?_, inside := ?_, balanced := ?_
      leads := leads.1 }
  · rw [same]
    exact text.symm
  · rw [shape]
    exact Segment.cutFrom_alternating _ _ _ _
  · rw [same, marks]
    exact group_marks group _
  · rw [same, closed]
    rfl
  · rw [same, closed]
    exact List.getLast?_concat
  · rw [same]
    exact group.ends 0
  · rw [same]
    exact proper
  · rw [same]
    exact all

-- A text has a template exactly when it is mergeable, and its template is sound.
theorem template?_sound (rawBackslash : Bool) (sql : Bytes) :
    ((Statement.analyze rawBackslash sql).template?.isSome =
        (Statement.analyze rawBackslash sql).isMergeable) ∧
      ∀ template, (Statement.analyze rawBackslash sql).template? = some template →
        Sound (Statement.analyze rawBackslash sql) template := by
  refine ⟨?_, fun template found => sound found⟩
  rw [Bool.eq_iff_iff, Option.isSome_iff_exists]
  constructor
  · rintro ⟨template, found⟩
    exact Statement.template?_isMergeable found
  · intro mergeable
    exact Statement.template?_of_isMergeable mergeable

end InsertBatch.Template
