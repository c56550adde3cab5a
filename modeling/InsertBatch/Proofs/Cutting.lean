import InsertBatch.Segment
import InsertBatch.Proofs.LexemeRuns

namespace InsertBatch.Segment
-- Text and parameters take turns, with text at both ends.
inductive Alternating : List Segment → Prop where
  | last : Alternating [.text bytes]
  | mark : Alternating segments → Alternating (.text bytes :: .parameter :: segments)

-- A text read from a context, and its pieces between its parameter marks. Text in
-- front of a mark returns to plain text; the last piece may end anywhere.
inductive IsCut (rawBackslash : Bool) : Context → Bytes → List Segment → Prop where
  | last (unmarked : Lexeme.placesOf Ascii.question
      (Lexeme.ofTextFrom rawBackslash context 0 bytes) = []) :
      IsCut rawBackslash context bytes [.text bytes]
  | mark (unmarked : Lexeme.placesOf Ascii.question
        (Lexeme.ofTextFrom rawBackslash context 0 left) = [])
      (ends : Lexeme.endContext context (Lexeme.ofTextFrom rawBackslash context 0 left) = .plain)
      (rest : IsCut rawBackslash .plain right segments) :
      IsCut rawBackslash context (left ++ Ascii.question :: right)
        (.text left :: .parameter :: segments)

variable {rawBackslash : Bool} {context : Context} {stop offset : Nat} {marks : List Nat}
  {bytes : Bytes} {segments : List Segment} {values : List Bytes}

theorem cutFrom_alternating (offset : Nat) (rest : Bytes) (stop : Nat) (marks : List Nat) :
    Alternating (cutFrom offset rest stop marks) := by
  induction marks generalizing offset rest with
  | nil => exact .last
  | cons mark marks ih => exact .mark (ih _ _)

@[simp] theorem parameterCount_text (bytes : Bytes) (segments : List Segment) :
    parameterCount (.text bytes :: segments) = parameterCount segments :=
  List.countP_cons_of_neg (by simp [isParameter])

@[simp] theorem parameterCount_parameter (segments : List Segment) :
    parameterCount (.parameter :: segments) = parameterCount segments + 1 :=
  List.countP_cons_of_pos rfl

theorem cutFrom_parameterCount (offset : Nat) (rest : Bytes) (stop : Nat) (marks : List Nat) :
    parameterCount (cutFrom offset rest stop marks) = marks.length := by
  induction marks generalizing offset rest with
  | nil => rfl
  | cons mark marks ih =>
    rw [cutFrom, parameterCount_text, parameterCount_parameter, ih, List.length_cons]

-- Cutting at the marks that the lexer finds is such a cut, whatever follows the text.
theorem cutFrom_isCut (rawBackslash : Bool) (context : Context) (start : Nat)
    (bytes more : Bytes) :
    IsCut rawBackslash context bytes
      (cutFrom start (bytes ++ more) (start + bytes.length)
        (Lexeme.placesOf Ascii.question (Lexeme.ofTextFrom rawBackslash context start bytes))) := by
  induction found : Lexeme.placesOf Ascii.question
      (Lexeme.ofTextFrom rawBackslash context start bytes)
    generalizing context start bytes with
  | nil =>
    rw [Lexeme.placesOf_start, List.map_eq_nil_iff] at found
    have whole : (bytes ++ more).take (start + bytes.length - start) = bytes := by
      rw [Nat.add_sub_cancel_left, List.take_left]
    rw [cutFrom, whole]
    exact .last found
  | cons mark marks ih =>
    obtain ⟨front, lexeme, back, run, none, plain, here, later⟩ := Lexeme.placesOf_split found
    obtain ⟨left, right, rfl, rfl, ends, rfl, rfl⟩ := Lexeme.split_plain run plain
    obtain rfl : start + left.length = mark := here
    rw [Lexeme.placesOf_start, List.map_eq_nil_iff] at none
    rw [Lexeme.endContext_start] at ends
    have piece : (left ++ Ascii.question :: right ++ more).take (start + left.length - start) =
        left := by
      rw [Nat.add_sub_cancel_left, List.append_assoc, List.take_left]
    have rest : (left ++ Ascii.question :: right ++ more).drop
        (start + left.length + 1 - start) = right ++ more := by
      have count : start + left.length + 1 - start = (left ++ [Ascii.question]).length := by
        simp only [List.length_append, List.length_singleton]
        omega
      have whole : left ++ Ascii.question :: right ++ more =
          (left ++ [Ascii.question]) ++ (right ++ more) := by simp
      rw [count, whole, List.drop_left]
    have reach : start + (left ++ Ascii.question :: right).length =
        start + left.length + 1 + right.length := by
      simp only [List.length_append, List.length_cons]
      omega
    rw [cutFrom, piece, rest, reach]
    exact .mark none ends (ih _ _ _ later)

theorem IsCut.reassemble (cut : IsCut rawBackslash context bytes segments) :
    Segment.reassemble [Ascii.question] segments = bytes := by
  induction cut with
  | last => simp [Segment.reassemble, textOr]
  | mark _ _ _ ih =>
    simp only [Segment.reassemble, List.flatMap_cons, textOr] at ih ⊢
    rw [ih]
    rfl

-- Text in front of all marks, and text behind them, is the same for all values.
theorem fill_cutFrom_lead (lead rest : Bytes) (reaches : offset + lead.length ≤ stop)
    (behind : ∀ mark ∈ marks, offset + lead.length ≤ mark) (values : List Bytes) :
    fill (cutFrom offset (lead ++ rest) stop marks) values =
      lead ++ fill (cutFrom (offset + lead.length) rest stop marks) values := by
  cases marks with
  | nil =>
    have count : stop - offset = lead.length + (stop - (offset + lead.length)) := by omega
    simp only [cutFrom, fill, List.append_nil]
    rw [count, List.take_length_add_append]
  | cons mark marks =>
    have bound := behind mark List.mem_cons_self
    have count : mark - offset = lead.length + (mark - (offset + lead.length)) := by omega
    have next : mark + 1 - offset = lead.length + (mark + 1 - (offset + lead.length)) := by omega
    simp only [cutFrom, fill]
    rw [count, next, List.take_length_add_append, List.drop_length_add_append, List.append_assoc]

theorem fill_cutFrom_trail (trail : Bytes) (increase : marks.Pairwise (· < ·))
    (within : ∀ mark ∈ marks, offset ≤ mark ∧ mark < offset + bytes.length)
    (values : List Bytes) :
    fill (cutFrom offset (bytes ++ trail) (offset + bytes.length + trail.length) marks) values =
      fill (cutFrom offset (bytes ++ trail) (offset + bytes.length) marks) values ++ trail := by
  induction marks generalizing offset bytes values with
  | nil =>
    have whole : offset + bytes.length + trail.length - offset = (bytes ++ trail).length := by
      rw [List.length_append]
      omega
    simp only [cutFrom, fill, List.append_nil, whole, List.take_length, Nat.add_sub_cancel_left,
      List.take_left]
  | cons mark marks ih =>
    obtain ⟨lower, upper⟩ := within mark List.mem_cons_self
    obtain ⟨first, increase⟩ := List.pairwise_cons.mp increase
    have rest : (bytes ++ trail).drop (mark + 1 - offset) =
        bytes.drop (mark + 1 - offset) ++ trail := List.drop_append_of_le_length (by omega)
    have reach : offset + bytes.length = mark + 1 + (bytes.drop (mark + 1 - offset)).length := by
      rw [List.length_drop]
      omega
    have later : ∀ next ∈ marks, mark + 1 ≤ next ∧
        next < mark + 1 + (bytes.drop (mark + 1 - offset)).length := by
      intro next member
      have bounds := within next (List.mem_cons_of_mem _ member)
      have beyond := first next member
      omega
    have carried := fun values => ih increase later values
    rw [← reach] at carried
    simp only [cutFrom, rest]
    cases values with
    | nil => simp only [fill, carried, List.append_assoc]
    | cons value values => simp only [fill, carried, List.append_assoc]

-- The length that is announced for a row of the right size is the length it has.
theorem fill_length (fits : values.length = parameterCount segments) :
    (fill segments values).length = filledLength segments values := by
  induction segments generalizing values with
  | nil =>
    have none : values = [] := List.eq_nil_of_length_eq_zero fits
    rw [none]
    rfl
  | cons segment segments ih =>
    cases segment with
    | text bytes =>
      have later : (fill segments values).length = filledLength segments values :=
        ih (by simpa using fits)
      simp only [fill, filledLength, reassemble, List.flatMap_cons, textOr, List.length_append]
        at later ⊢
      omega
    | parameter =>
      cases values with
      | nil => simp at fits
      | cons value values =>
        have later : (fill segments values).length = filledLength segments values :=
          ih (by simpa using fits)
        simp only [fill, filledLength, reassemble, List.flatMap_cons, textOr, List.length_append,
          List.flatten_cons, List.nil_append] at later ⊢
        omega

end InsertBatch.Segment
