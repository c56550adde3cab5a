import InsertBatch.Lexeme
import InsertBatch.Proofs.Lexing

namespace InsertBatch.Lexeme
variable {rawBackslash : Bool} {context : Context} {start : Nat} {rest left right : Bytes}
  {earlier later : List Lexeme}

def shift (offset : Nat) (lexeme : Lexeme) : Lexeme :=
  { lexeme with start := lexeme.start + offset }

@[simp] theorem shift_plainByte? (offset : Nat) (lexeme : Lexeme) :
    (lexeme.shift offset).plainByte? = lexeme.plainByte? := rfl

@[simp] theorem endContext_nil (context : Context) : endContext context [] = context := rfl

@[simp] theorem endContext_cons (context : Context) (lexeme : Lexeme) (rest : List Lexeme) :
    endContext context (lexeme :: rest) = endContext lexeme.after rest := rfl

theorem endContext_append (context : Context) (earlier later : List Lexeme) :
    endContext context (earlier ++ later) = endContext (endContext context earlier) later :=
  List.foldl_append

@[simp] theorem ofTextFrom_nil : ofTextFrom rawBackslash context start [] = [] := by
  rw [ofTextFrom]; simp

theorem ofTextFrom_step (present : rest ≠ []) :
    ofTextFrom rawBackslash context start rest =
      ⟨start, context, (Lexer.step rawBackslash context rest).after,
        rest.take (Lexer.step rawBackslash context rest).length⟩ ::
      ofTextFrom rawBackslash (Lexer.step rawBackslash context rest).after
        (start + (Lexer.step rawBackslash context rest).length)
        (rest.drop (Lexer.step rawBackslash context rest).length) := by
  rw [ofTextFrom, if_neg present]

-- The bytes that the first step takes, and the rest.
theorem step_cut (rawBackslash : Bool) (context : Context) (present : rest ≠ []) :
    ∃ first more, rest = first ++ more ∧ first ≠ [] ∧
      (Lexer.step rawBackslash context rest).length = first.length := by
  have positive := Lexer.step_length_pos rawBackslash context present
  have bound := Lexer.step_length_le rawBackslash context present
  have taken := List.length_take_of_le bound
  refine ⟨_, _, (List.take_append_drop _ rest).symm, ?_, taken.symm⟩
  rw [← List.length_pos_iff, taken]
  exact positive

theorem ofTextFrom_first (present : left ≠ [])
    (taken : (Lexer.step rawBackslash context (left ++ right)).length = left.length) :
    ofTextFrom rawBackslash context start (left ++ right) =
      ⟨start, context, (Lexer.step rawBackslash context (left ++ right)).after, left⟩ ::
      ofTextFrom rawBackslash (Lexer.step rawBackslash context (left ++ right)).after
        (start + left.length) right := by
  rw [ofTextFrom_step (by simp [present]), taken, List.take_left, List.drop_left]

-- The lexemes of a text lose none of its bytes.
theorem flatMap_text (rawBackslash : Bool) (context : Context) (start : Nat) (rest : Bytes) :
    (ofTextFrom rawBackslash context start rest).flatMap text = rest := by
  fun_induction ofTextFrom rawBackslash context start rest with
  | case1 => rfl
  | case2 context start rest present step ih =>
    rw [List.flatMap_cons, ih]
    exact List.take_append_drop _ _

theorem ofTextFrom_shift (rawBackslash : Bool) (context : Context) (start offset : Nat)
    (rest : Bytes) : ofTextFrom rawBackslash context (start + offset) rest =
      (ofTextFrom rawBackslash context start rest).map (shift offset) := by
  fun_induction ofTextFrom rawBackslash context start rest with
  | case1 => simp
  | case2 context start rest present step ih =>
    rw [ofTextFrom_step present, List.map_cons, ← ih, Nat.add_right_comm]
    rfl

theorem endContext_shift (context : Context) (offset : Nat) (lexemes : List Lexeme) :
    endContext context (lexemes.map (shift offset)) = endContext context lexemes := by
  induction lexemes generalizing context with
  | nil => rfl
  | cons lexeme rest ih => exact ih lexeme.after

-- The context at the end of a text does not depend on where the text stands.
theorem endContext_start (rawBackslash : Bool) (context other : Context) (start : Nat)
    (rest : Bytes) : endContext other (ofTextFrom rawBackslash context start rest) =
      endContext other (ofTextFrom rawBackslash context 0 rest) := by
  have moved := ofTextFrom_shift rawBackslash context 0 start rest
  rw [Nat.zero_add] at moved
  rw [moved, endContext_shift]

theorem map_plainByte?_start (rawBackslash : Bool) (context : Context) (start : Nat)
    (rest : Bytes) : (ofTextFrom rawBackslash context start rest).map plainByte? =
      (ofTextFrom rawBackslash context 0 rest).map plainByte? := by
  have moved := ofTextFrom_shift rawBackslash context 0 start rest
  rw [Nat.zero_add] at moved
  rw [moved, List.map_map]
  rfl

-- Two texts lex one after the other when the first returns to plain text and no
-- comment opener forms where they meet.
theorem ofTextFrom_append
    (ends : endContext context (ofTextFrom rawBackslash context start left) = .plain)
    (seam : Lexer.Seam left right) :
    ofTextFrom rawBackslash context start (left ++ right) =
      ofTextFrom rawBackslash context start left ++
        ofTextFrom rawBackslash .plain (start + left.length) right := by
  fun_induction ofTextFrom rawBackslash context start left with
  | case1 context start =>
    have plain : context = .plain := by simpa using ends
    rw [plain]
    rfl
  | case2 context start left present step ih =>
    have leaves : context = .plain ∨ step.after ≠ context := by
      by_cases inside : context = .plain
      · exact .inl inside
      · refine .inr fun same => inside ?_
        have all := Lexer.step_open inside same
        rw [endContext_cons, all, List.drop_length, ofTextFrom_nil, endContext_nil, same] at ends
        exact ends
    have bound : step.length ≤ left.length := Lexer.step_length_le rawBackslash context present
    have reached : start + step.length + (left.length - step.length) = start + left.length := by
      omega
    rw [ofTextFrom_step (by simp [present]), Lexer.step_append present seam leaves,
      List.take_append_of_le_length bound, List.drop_append_of_le_length bound,
      ih ends (seam.drop _), List.cons_append, List.length_drop, reached]

-- A run may be cut between any two of its lexemes: each part is the run of its text.
theorem ofTextFrom_split (run : ofTextFrom rawBackslash context start rest = earlier ++ later) :
    ∃ left right, rest = left ++ right ∧ earlier = ofTextFrom rawBackslash context start left ∧
      later = ofTextFrom rawBackslash (endContext context earlier) (start + left.length) right := by
  induction earlier generalizing context start rest with
  | nil => exact ⟨[], rest, rfl, by simp, by simpa using run.symm⟩
  | cons lexeme earlier ih =>
    have nonempty : rest ≠ [] := by
      rintro rfl
      simp at run
    obtain ⟨first, more, rfl, present, taken⟩ := step_cut rawBackslash context nonempty
    rw [ofTextFrom_first present taken, List.cons_append, List.cons.injEq] at run
    obtain ⟨rfl, run⟩ := run
    obtain ⟨left, right, rfl, front, back⟩ := ih run
    have same : Lexer.step rawBackslash context (first ++ left) =
        Lexer.step rawBackslash context (first ++ (left ++ right)) := by
      rw [← List.append_assoc]
      refine Lexer.step_of_append (by simp [present]) ?_
      rw [List.append_assoc, taken, List.length_append]
      exact Nat.le_add_right _ _
    refine ⟨first ++ left, right, (List.append_assoc _ _ _).symm, ?_, ?_⟩
    · rw [ofTextFrom_first present (same ▸ taken), same, ← front]
    · rw [endContext_cons, back, List.length_append, Nat.add_assoc]

theorem first_plain (run : ofTextFrom rawBackslash context start rest = lexeme :: later)
    (plain : lexeme.plainByte? = some byte) :
    context = .plain ∧ ∃ right, rest = byte :: right ∧ lexeme = ⟨start, .plain, .plain, [byte]⟩ ∧
      later = ofTextFrom rawBackslash .plain (start + 1) right := by
  cases rest with
  | nil => simp at run
  | cons b right =>
    rw [ofTextFrom_step (by simp), List.cons.injEq] at run
    obtain ⟨rfl, run⟩ := run
    simp only [plainByte?] at plain
    split at plain
    · rename_i both
      obtain ⟨rfl, after⟩ := both
      have single : (Lexer.step rawBackslash .plain (b :: right)).length = 1 :=
        Lexer.plainStep_plain after
      simp only [single, after, List.take_succ_cons, List.take_zero, List.head?_cons,
        Option.some.injEq] at plain run ⊢
      subst plain
      exact ⟨trivial, right, rfl, rfl, run.symm⟩
    · cases plain

-- A run around one of its plain bytes.
theorem split_plain (run : ofTextFrom rawBackslash context start rest = earlier ++ lexeme :: later)
    (plain : lexeme.plainByte? = some byte) :
    ∃ left right, rest = left ++ byte :: right ∧
      earlier = ofTextFrom rawBackslash context start left ∧
      endContext context earlier = .plain ∧
      lexeme = ⟨start + left.length, .plain, .plain, [byte]⟩ ∧
      later = ofTextFrom rawBackslash .plain (start + left.length + 1) right := by
  obtain ⟨left, right, rfl, front, back⟩ := ofTextFrom_split run
  obtain ⟨ends, right, rfl, here, behind⟩ := first_plain back.symm plain
  exact ⟨left, right, rfl, front, ends, here, behind⟩

-- A run that ends with a plain byte ends with the last byte of its text.
theorem last_plain (run : ofTextFrom rawBackslash context start rest = earlier ++ [lexeme])
    (plain : lexeme.plainByte? = some byte) :
    ∃ left, rest = left ++ [byte] ∧ lexeme.start = start + left.length := by
  obtain ⟨left, right, rfl, _, _, rfl, behind⟩ := split_plain run plain
  have empty := flatMap_text rawBackslash .plain (start + left.length + 1) right
  rw [← behind, List.flatMap_nil] at empty
  exact ⟨left, by rw [← empty], rfl⟩

theorem ofTextFrom_inert (inert : Lexer.Inert byte) (start : Nat) (rest : Bytes) :
    ofTextFrom rawBackslash .plain start (byte :: rest) =
      ⟨start, .plain, .plain, [byte]⟩ :: ofTextFrom rawBackslash .plain (start + 1) rest := by
  rw [ofTextFrom_step (by simp)]
  simp [Lexer.step, inert.plainStep]

theorem start_bounds (member : lexeme ∈ ofTextFrom rawBackslash context start rest) :
    start ≤ lexeme.start ∧ lexeme.start < start + rest.length := by
  fun_induction ofTextFrom rawBackslash context start rest with
  | case1 => cases member
  | case2 context start rest present step ih =>
    have positive : 0 < step.length := Lexer.step_length_pos rawBackslash context present
    have nonempty := List.length_pos_iff.mpr present
    rcases List.mem_cons.mp member with rfl | behind
    · simp only
      omega
    · have bounds := ih behind
      rw [List.length_drop] at bounds
      omega

theorem starts_increase (rawBackslash : Bool) (context : Context) (start : Nat) (rest : Bytes) :
    (ofTextFrom rawBackslash context start rest).Pairwise (·.start < ·.start) := by
  fun_induction ofTextFrom rawBackslash context start rest with
  | case1 => exact .nil
  | case2 context start rest present step ih =>
    refine .cons ?_ ih
    intro lexeme behind
    have positive : 0 < step.length := Lexer.step_length_pos rawBackslash context present
    have bounds := start_bounds behind
    simp only
    omega

-- Where this byte is taken as plain text. The parameter marks of a text are the places of
-- the question mark.
def place? (byte : UInt8) (lexeme : Lexeme) : Option Nat :=
  if lexeme.plainByte? = some byte then some lexeme.start else none

def placesOf (byte : UInt8) (lexemes : List Lexeme) : List Nat := lexemes.filterMap (place? byte)

theorem placesOf_append (byte : UInt8) (earlier later : List Lexeme) :
    placesOf byte (earlier ++ later) = placesOf byte earlier ++ placesOf byte later :=
  List.filterMap_append

theorem place?_iff : place? byte lexeme = some position ↔
    lexeme.start = position ∧ lexeme.plainByte? = some byte := by
  unfold place?
  split
  · rename_i plain
    rw [Option.some.injEq, and_iff_left plain]
  · rename_i other
    constructor
    · intro found
      cases found
    · intro place
      exact absurd place.2 other

-- This byte is taken here by a step that starts and ends in plain text.
def PlainAt (lexemes : List Lexeme) (position : Nat) (byte : UInt8) : Prop :=
  ∃ lexeme ∈ lexemes, lexeme.start = position ∧ lexeme.plainByte? = some byte

theorem mem_placesOf : position ∈ placesOf byte lexemes ↔ PlainAt lexemes position byte := by
  simp only [placesOf, List.mem_filterMap, place?_iff, PlainAt]

-- A lexeme that takes no such byte has no place of it.
theorem placesOf_quiet (byte : UInt8) (other : lexeme.plainByte? ≠ some byte)
    (later : List Lexeme) : placesOf byte (lexeme :: later) = placesOf byte later :=
  List.filterMap_cons_none (if_neg other)

theorem place?_shift (byte : UInt8) (offset : Nat) (lexeme : Lexeme) :
    place? byte (shift offset lexeme) = (place? byte lexeme).map (· + offset) := by
  change (if lexeme.plainByte? = some byte then some (lexeme.start + offset) else none) = _
  unfold place?
  split <;> rfl

theorem placesOf_start (byte : UInt8) (rawBackslash : Bool) (context : Context) (start : Nat)
    (rest : Bytes) : placesOf byte (ofTextFrom rawBackslash context start rest) =
      (placesOf byte (ofTextFrom rawBackslash context 0 rest)).map (· + start) := by
  have moved := ofTextFrom_shift rawBackslash context 0 start rest
  rw [Nat.zero_add] at moved
  rw [moved, placesOf, placesOf, List.filterMap_map, List.map_filterMap]
  exact congrArg (List.filterMap · _) (funext (place?_shift byte start))

theorem placesOf_increase (byte : UInt8) (rawBackslash : Bool) (context : Context) (start : Nat)
    (rest : Bytes) :
    (placesOf byte (ofTextFrom rawBackslash context start rest)).Pairwise (· < ·) := by
  refine List.pairwise_filterMap.mpr ((starts_increase rawBackslash context start rest).imp ?_)
  intro first second increase position here other there
  rw [← (place?_iff.mp here).1, ← (place?_iff.mp there).1]
  exact increase

-- The lexemes around the first place.
theorem placesOf_split (found : placesOf byte later = position :: positions) :
    ∃ front lexeme back, later = front ++ lexeme :: back ∧ placesOf byte front = [] ∧
      lexeme.plainByte? = some byte ∧ lexeme.start = position ∧
      placesOf byte back = positions := by
  obtain ⟨front, lexeme, back, rfl, none, here, rest⟩ := List.filterMap_eq_cons_iff.mp found
  obtain ⟨spot, plain⟩ := place?_iff.mp here
  exact ⟨front, lexeme, back, rfl, List.filterMap_eq_nil_iff.mpr none, plain, spot, rest⟩

theorem placesOf_bounds
    (member : position ∈ placesOf byte (ofTextFrom rawBackslash context start rest)) :
    start ≤ position ∧ position < start + rest.length := by
  obtain ⟨lexeme, found, rfl, _⟩ := mem_placesOf.mp member
  exact start_bounds found

end InsertBatch.Lexeme
