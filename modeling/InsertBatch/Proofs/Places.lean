import InsertBatch.Proofs.BoundValues

namespace InsertBatch

namespace Lexeme
variable {rawBackslash : Bool} {context : Context} {start position : Nat}
  {rest left right sql : Bytes} {lexeme : Lexeme} {lexemes earlier later : List Lexeme} {byte : UInt8}

-- A step begins here in plain text, whatever it does.
def ReachedPlain (lexemes : List Lexeme) (position : Nat) : Prop :=
  ∃ lexeme ∈ lexemes, lexeme.start = position ∧ lexeme.before = .plain

theorem plainAt_append : PlainAt (earlier ++ later) position byte ↔
    PlainAt earlier position byte ∨ PlainAt later position byte := by
  simp only [PlainAt, List.mem_append, or_and_right, exists_or]

-- Where a lexeme of a run stands, and the step that made it.
theorem split_step (run : ofTextFrom rawBackslash context start rest = earlier ++ lexeme :: later) :
    ∃ left right, rest = left ++ right ∧ right ≠ [] ∧
      earlier = ofTextFrom rawBackslash context start left ∧
      lexeme = ⟨start + left.length, endContext context earlier,
        (Lexer.step rawBackslash (endContext context earlier) right).after,
        right.take (Lexer.step rawBackslash (endContext context earlier) right).length⟩ ∧
      lexeme :: later =
        ofTextFrom rawBackslash (endContext context earlier) (start + left.length) right := by
  obtain ⟨left, right, rfl, front, back⟩ := ofTextFrom_split run
  have present : right ≠ [] := by
    rintro rfl
    simp at back
  have first := back
  rw [ofTextFrom_step present, List.cons.injEq] at first
  exact ⟨left, right, rfl, present, front, first.1, back⟩

-- The last lexeme takes all that is left.
theorem split_last (run : ofTextFrom rawBackslash context start rest = earlier ++ [lexeme]) :
    ∃ left right, rest = left ++ right ∧ right ≠ [] ∧
      lexeme = ⟨start + left.length, endContext context earlier,
        (Lexer.step rawBackslash (endContext context earlier) right).after, right⟩ ∧
      right.take (Lexer.step rawBackslash (endContext context earlier) right).length = right := by
  obtain ⟨left, right, rfl, present, _, made, alone⟩ := split_step run
  have whole : lexeme.text = right := by
    rw [← flatMap_text rawBackslash (endContext context earlier) (start + left.length) right,
      ← alone, List.flatMap_singleton]
  rw [made] at whole
  simp only at whole
  exact ⟨left, right, rfl, present, by rw [made, whole], whole⟩

theorem mem_parts (member : lexeme ∈ ofTextFrom rawBackslash context start rest) :
    ∃ left right, rest = left ++ right ∧ right ≠ [] ∧ lexeme.start = start + left.length ∧
      lexeme.after = (Lexer.step rawBackslash lexeme.before right).after ∧
      lexeme.text = right.take (Lexer.step rawBackslash lexeme.before right).length := by
  obtain ⟨earlier, later, run⟩ := List.append_of_mem member
  obtain ⟨left, right, rfl, present, _, rfl, _⟩ := split_step run
  exact ⟨left, right, rfl, present, rfl, rfl, rfl⟩

-- A run may be cut wherever plain text is reached.
theorem ReachedPlain.split (reached : ReachedPlain (ofText rawBackslash sql) position) :
    ∃ left right, sql = left ++ right ∧ left.length = position ∧
      finalContext rawBackslash left = .plain ∧
      ofText rawBackslash sql =
        ofText rawBackslash left ++ ofTextFrom rawBackslash .plain position right := by
  obtain ⟨lexeme, member, rfl, plain⟩ := reached
  obtain ⟨earlier, later, run⟩ := List.append_of_mem member
  obtain ⟨left, right, rfl, _, rfl, made, back⟩ := split_step run
  have here : lexeme.start = left.length := by rw [made, Nat.zero_add]
  have ends : finalContext rawBackslash left = .plain := by
    rw [made] at plain
    exact plain
  refine ⟨left, right, rfl, here.symm, ends, ?_⟩
  rw [finalContext] at ends
  rw [run, back, here, Nat.zero_add]
  exact congrArg (fun context => _ ++ ofTextFrom rawBackslash context left.length right) ends

theorem PlainAt.byte_at (plain : PlainAt (ofText rawBackslash sql) position byte) :
    sql[position]? = some byte := by
  obtain ⟨lexeme, member, rfl, plain⟩ := plain
  obtain ⟨earlier, later, split⟩ := List.append_of_mem member
  obtain ⟨left, right, rfl, _, _, rfl, _⟩ := split_plain split plain
  simp

theorem PlainAt.reached (plain : PlainAt lexemes position byte) :
    ReachedPlain lexemes position := by
  obtain ⟨lexeme, member, here, plain⟩ := plain
  refine ⟨lexeme, member, here, ?_⟩
  unfold plainByte? at plain
  split at plain
  · rename_i both
    exact both.1
  · cases plain

-- A byte that opens nothing is plain wherever plain text reaches it.
theorem ReachedPlain.plainAt (reached : ReachedPlain (ofText rawBackslash sql) position)
    (found : sql[position]? = some byte) (inert : Lexer.Inert byte) :
    PlainAt (ofText rawBackslash sql) position byte := by
  obtain ⟨lexeme, member, rfl, plain⟩ := reached
  refine ⟨lexeme, member, rfl, ?_⟩
  obtain ⟨left, right, rfl, present, here, after, text⟩ := mem_parts member
  obtain ⟨first, right, rfl⟩ := List.exists_cons_of_ne_nil present
  rw [here, Nat.zero_add, List.getElem?_append_right (Nat.le_refl _), Nat.sub_self,
    List.getElem?_cons_zero, Option.some.injEq] at found
  subst found
  rw [plain, Lexer.step, inert.plainStep] at after text
  rw [plainByte?, if_pos ⟨plain, after⟩, text]
  rfl

variable {other : Lexeme} {front back : List Lexeme}

theorem mem_behind (increase : (front ++ lexeme :: back).Pairwise (·.start < ·.start))
    (member : other ∈ front ++ lexeme :: back) (less : lexeme.start < other.start) :
    other ∈ back := by
  rcases List.mem_append.mp member with ahead | later
  · have order := (List.pairwise_append.mp increase).2.2 other ahead lexeme (by simp)
    omega
  · rcases List.mem_cons.mp later with rfl | behind
    · exact absurd less (Nat.lt_irrefl _)
    · exact behind

theorem mem_ahead (increase : (front ++ lexeme :: back).Pairwise (·.start < ·.start))
    (member : other ∈ front ++ lexeme :: back) (less : other.start < lexeme.start) :
    other ∈ front := by
  rcases List.mem_append.mp member with ahead | later
  · exact ahead
  · rcases List.mem_cons.mp later with rfl | behind
    · exact absurd less (Nat.lt_irrefl _)
    · have order := (List.pairwise_cons.mp (List.pairwise_append.mp increase).2.1).1 other behind
      omega

theorem unseparated_iff (lexemes : List Lexeme) : (Outline.ofLexemes lexemes).separates = false ↔
    ∀ position, ¬PlainAt lexemes position Ascii.semicolon := by
  rw [Outline.separates_any, List.any_eq_false]
  constructor
  · intro none position found
    obtain ⟨lexeme, member, _, plain⟩ := found
    exact none lexeme member (beq_iff_eq.mpr plain)
  · intro none lexeme member separates
    exact none lexeme.start ⟨lexeme, member, rfl, beq_iff_eq.mp separates⟩

end Lexeme

namespace Segment

theorem Alternating.length (alternates : Alternating segments) :
    segments.length = 2 * parameterCount segments + 1 := by
  induction alternates with
  | last => rfl
  | mark alternates ih =>
    rw [parameterCount_text, parameterCount_parameter, List.length_cons, List.length_cons, ih]
    omega

end Segment

namespace Statement

-- An analysis loses no byte of its text, and its marks are the question marks that plain
-- text reaches.
theorem analyze_decomposes (rawBackslash : Bool) (sql : Bytes) :
    Segment.Alternating (analyze rawBackslash sql).segments ∧
      (analyze rawBackslash sql).segments.length =
        2 * (analyze rawBackslash sql).parameterCount + 1 ∧
      Segment.reassemble [Ascii.question] (analyze rawBackslash sql).segments = sql ∧
      (analyze rawBackslash sql).marks.Pairwise (· < ·) ∧
      ∀ position, position ∈ (analyze rawBackslash sql).marks ↔
        Lexeme.ReachedPlain (Lexeme.ofText rawBackslash sql) position ∧
          sql[position]? = some Ascii.question := by
  have alternates : Segment.Alternating (analyze rawBackslash sql).segments :=
    Segment.cutFrom_alternating _ _ _ _
  refine ⟨alternates, ?_, (segments_isCut rawBackslash sql).reassemble, ?_, fun position => ?_⟩
  · rw [alternates.length, segments_parameterCount]
  · rw [analyze_marks]
    exact Lexeme.placesOf_increase _ _ _ _ _
  · rw [analyze_marks, Lexeme.mem_placesOf]
    constructor
    · intro plain
      exact ⟨plain.reached, plain.byte_at⟩
    · rintro ⟨reached, found⟩
      exact reached.plainAt found (by decide)

end Statement
end InsertBatch
