import InsertBatch.Proofs.CharacterReading

namespace InsertBatch

namespace Lexer
variable {rawBackslash : Bool} {context : Context} {quote : Quote} {front back : Bytes}
  {found later behind : Option Nat}

-- Two texts that meet without forming two bytes that open or close a comment.
structure Apart (front back : Bytes) : Prop where
  opens : Seam front back
  closes : ¬(front.getLast? = some Ascii.star ∧ back.head? = some Ascii.slash)

theorem Apart.drop (apart : Apart front back) (count : Nat) : Apart (front.drop count) back := by
  refine ⟨apart.opens.drop count, ?_⟩
  by_cases past : front.length ≤ count
  · simp [List.drop_eq_nil_of_le past]
  · rw [List.getLast?_drop, if_neg past]
    exact apart.closes

def Step.delay (count : Nat) (step : Step) : Step := { step with length := count + step.length }

theorem close_resume (inside : context ≠ .plain)
    (goesOn : (close context front found).after = context)
    (shifted : found = none → later = behind.map (· + front.length)) :
    close context (front ++ back) later = (close context back behind).delay front.length := by
  cases found with
  | some length => exact absurd goesOn.symm inside
  | none =>
    rw [shifted rfl]
    cases behind with
    | none => simp [close, Step.delay]
    | some length => simp [close, Step.delay, Nat.add_comm]

theorem past?_resume (stop : UInt8) (missing : past? stop front = none) :
    past? stop (front ++ back) = (past? stop back).map (· + front.length) := by
  rw [past?_append, missing, Option.none_or]

-- No star at the end of the first text meets its slash in the second.
theorem pastBlockEnd?_resume
    (parted : ¬(front.getLast? = some Ascii.star ∧ back.head? = some Ascii.slash))
    (missing : pastBlockEnd? front = none) :
    pastBlockEnd? (front ++ back) = (pastBlockEnd? back).map (· + front.length) := by
  induction front with
  | nil => simp
  | cons b front ih =>
    simp only [pastBlockEnd?, List.cons_append] at missing ⊢
    split at missing
    · cases missing
    · rename_i other
      have goesOn : ¬(b = Ascii.star ∧ (front ++ back).head? = some Ascii.slash) := by
        cases front with
        | nil => simpa using parted
        | cons next front => simpa using other
      have rest : ¬(front.getLast? = some Ascii.star ∧ back.head? = some Ascii.slash) := by
        cases front with
        | nil => simp
        | cons next front => simpa using parted
      rw [if_neg goesOn, ih rest (Option.map_eq_none_iff.mp missing), Option.map_map]
      rfl

theorem stringStep_resume
    (goesOn : (stringStep rawBackslash quote front).after = .string quote) :
    stringStep rawBackslash quote (front ++ back) =
      (stringStep rawBackslash quote back).delay front.length := by
  induction front with
  | nil => simp [Step.delay]
  | cons b front ih =>
    simp only [stringStep, List.cons_append] at goesOn ⊢
    split at goesOn
    · cases goesOn
    · split at goesOn
      · cases goesOn
      · rename_i ends escapes
        rw [if_neg ends, if_neg escapes, ih goesOn]
        simp [Step.advance, Step.delay, Nat.add_right_comm]

-- A body that goes on at the end of a text is searched in what follows as if it began there.
theorem step_resume (inside : context ≠ .plain)
    (goesOn : (step rawBackslash context front).after = context) (apart : Apart front back) :
    step rawBackslash context (front ++ back) =
      (step rawBackslash context back).delay front.length := by
  cases context with
  | plain => exact absurd rfl inside
  | string quote => exact stringStep_resume goesOn
  | escape quote => cases goesOn
  | identifier => exact close_resume inside goesOn (past?_resume Ascii.backtick)
  | lineComment => exact close_resume inside goesOn (past?_resume Ascii.newline)
  | blockComment => exact close_resume inside goesOn (pastBlockEnd?_resume apart.closes)

end Lexer

namespace Reading
open Lexer (Apart)
variable {rawBackslash : Bool} {context next : Context} {front back rest : Bytes}

-- Two readings, the second of what follows the first.
def andThen (first second : Reading) : Reading := ⟨first.plain ++ second.plain, second.final⟩

theorem after_andThen (first second : Reading) (context next : Context) (offset length : Nat) :
    (first.andThen second).after context next offset length =
      (first.after context next offset length).andThen second := by
  simp only [after, andThen, Reading.mk.injEq, and_true]
  split
  · rw [List.append_assoc]
  · rfl

theorem after_final (reading : Reading) (context next : Context) (offset length : Nat) :
    (reading.after context next offset length).final = reading.final := rfl

theorem ofSteps_nil (offset : Nat) : ofSteps rawBackslash context offset [] = ⟨[], context⟩ := by
  simp [ofSteps, Lexeme.plainOffsets]

theorem ofSteps_step (present : rest ≠ []) (offset : Nat) :
    ofSteps rawBackslash context offset rest =
      (ofSteps rawBackslash (Lexer.step rawBackslash context rest).after
        (offset + (Lexer.step rawBackslash context rest).length)
        (rest.drop (Lexer.step rawBackslash context rest).length)).after context
          (Lexer.step rawBackslash context rest).after offset
          (Lexer.step rawBackslash context rest).length := by
  obtain ⟨first, more, rfl, filled, taken⟩ := Lexeme.step_cut rawBackslash context present
  rw [ofSteps_first first more filled taken, taken, List.drop_left]

-- A body that goes on at the end of a text adds nothing to the reading of what follows.
theorem ofSteps_resume (inside : context ≠ .plain)
    (goesOn : (Lexer.step rawBackslash context front).after = context) (apart : Apart front back)
    (offset : Nat) : ofSteps rawBackslash context offset (front ++ back) =
      ofSteps rawBackslash context (offset + front.length) back := by
  by_cases last : back = []
  · by_cases none : front = []
    · simp [none]
    · have all := Lexer.step_open inside goesOn
      rw [last, List.append_nil, ofSteps_step none, after_inside inside, goesOn, all,
        List.drop_length]
  · rw [ofSteps_step (by simp [last]), Lexer.step_resume inside goesOn apart,
      ofSteps_step last (offset + front.length), after_inside inside, after_inside inside]
    simp only [Lexer.Step.delay, List.drop_length_add_append, Nat.add_assoc]

-- The induction is on the steps through the first text. Its last step may stop short where
-- the same step through both texts goes on.
theorem ofSteps_append (apart : Apart front back) (context : Context) (offset : Nat) :
    ofSteps rawBackslash context offset (front ++ back) =
      (ofSteps rawBackslash context offset front).andThen
        (ofSteps rawBackslash (ofSteps rawBackslash context offset front).final
          (offset + front.length) back) := by
  fun_induction Lexeme.ofTextFrom rawBackslash context offset front with
  | case1 context offset =>
    rw [ofSteps_nil]
    rfl
  | case2 context offset front present step ih =>
    have bound : step.length ≤ front.length := Lexer.step_length_le rawBackslash context present
    have first : ofSteps rawBackslash context offset front =
        (ofSteps rawBackslash step.after (offset + step.length)
          (front.drop step.length)).after context step.after offset step.length :=
      ofSteps_step present offset
    by_cases leaves : context = .plain ∨ step.after ≠ context
    · have same : Lexer.step rawBackslash context (front ++ back) = step :=
        Lexer.step_append present apart.opens leaves
      have reached : offset + step.length + (front.length - step.length) =
          offset + front.length := by
        omega
      rw [ofSteps_step (by simp [present]), same, List.drop_append_of_le_length bound,
        ih (apart.drop _), List.length_drop, reached, after_andThen, first, after_final]
    · obtain ⟨inside, same⟩ := not_or.mp leaves
      have goesOn : step.after = context := Classical.not_not.mp same
      have all : step.length = front.length := Lexer.step_open inside goesOn
      have idle : ofSteps rawBackslash context offset front = ⟨[], context⟩ := by
        rw [first, after_inside inside, goesOn, all, List.drop_length, ofSteps_nil]
      rw [idle, ofSteps_resume inside goesOn apart]
      rfl

end Reading

namespace Lexeme
variable {rawBackslash : Bool} {context : Context} {start position : Nat} {rest : Bytes}

theorem ownOffsets_shift (offset : Nat) (lexeme : Lexeme) :
    (lexeme.shift offset).ownOffsets = lexeme.ownOffsets.map (offset + ·) := by
  change (if lexeme.before = .plain ∧ lexeme.after = .plain then
    List.range' (lexeme.start + offset) lexeme.text.length else []) = _
  unfold ownOffsets
  split
  · rw [List.map_add_range', Nat.add_comm offset]
  · rfl

theorem ownOffsets_bounds {lexeme : Lexeme} (member : position ∈ lexeme.ownOffsets) :
    lexeme.start ≤ position ∧ position < lexeme.start + lexeme.text.length := by
  unfold ownOffsets at member
  split at member
  · exact List.mem_range'_1.mp member
  · cases member

theorem mem_plainOffsets_start (rawBackslash : Bool) (context : Context) (start : Nat)
    (rest : Bytes) (position : Nat) :
    start + position ∈ plainOffsets (ofTextFrom rawBackslash context start rest) ↔
      position ∈ plainOffsets (ofTextFrom rawBackslash context 0 rest) := by
  have moved := ofTextFrom_shift rawBackslash context 0 start rest
  rw [Nat.zero_add] at moved
  have shifted : plainOffsets (ofTextFrom rawBackslash context start rest) =
      (plainOffsets (ofTextFrom rawBackslash context 0 rest)).map (start + ·) := by
    rw [moved, plainOffsets, plainOffsets, List.flatMap_map, List.map_flatMap]
    exact congrArg (List.flatMap · _) (funext (ownOffsets_shift start))
  simp [shifted]

theorem plainOffsets_bounds
    (member : position ∈ plainOffsets (ofTextFrom rawBackslash context start rest)) :
    start ≤ position ∧ position < start + rest.length := by
  fun_induction ofTextFrom rawBackslash context start rest with
  | case1 => cases member
  | case2 context start rest present step ih =>
    have bound : step.length ≤ rest.length := Lexer.step_length_le rawBackslash context present
    rcases List.mem_append.mp member with here | behind
    · have inside := ownOffsets_bounds here
      rw [List.length_take_of_le bound] at inside
      simp only at inside
      omega
    · have inside := ih behind
      rw [List.length_drop] at inside
      omega

end Lexeme

-- Where no two bytes that open or close a comment meet, a text in two parts is read as the
-- first part and then, from the context at its end, as the second.
theorem reading_resumes (rawBackslash : Bool) (context : Context) {front back : Bytes}
    (apart : Lexer.Apart front back) :
    let first := Lexeme.ofTextFrom rawBackslash context 0 front
    let middle := Lexeme.endContext context first
    let second := Lexeme.ofTextFrom rawBackslash middle 0 back
    let whole := Lexeme.ofTextFrom rawBackslash context 0 (front ++ back)
    Lexeme.endContext context whole = Lexeme.endContext middle second ∧
      (∀ position, position < front.length →
        (position ∈ Lexeme.plainOffsets whole ↔ position ∈ Lexeme.plainOffsets first)) ∧
      ∀ position, front.length + position ∈ Lexeme.plainOffsets whole ↔
        position ∈ Lexeme.plainOffsets second := by
  intro first middle second whole
  have parts : Reading.ofSteps rawBackslash context 0 (front ++ back) =
      (Reading.ofSteps rawBackslash context 0 front).andThen
        (Reading.ofSteps rawBackslash middle (0 + front.length) back) :=
    Reading.ofSteps_append apart context 0
  rw [Nat.zero_add] at parts
  have ends : Lexeme.endContext context whole =
      Lexeme.endContext middle (Lexeme.ofTextFrom rawBackslash middle front.length back) :=
    congrArg Reading.final parts
  have plain : Lexeme.plainOffsets whole = Lexeme.plainOffsets first ++
      Lexeme.plainOffsets (Lexeme.ofTextFrom rawBackslash middle front.length back) :=
    congrArg Reading.plain parts
  refine ⟨?_, ?_, ?_⟩
  · rw [ends, Lexeme.endContext_start]
  · intro position inside
    rw [plain, List.mem_append, or_iff_left]
    intro later
    have bounds := Lexeme.plainOffsets_bounds later
    omega
  · intro position
    rw [plain, List.mem_append, or_iff_right, Lexeme.mem_plainOffsets_start]
    intro earlier
    have bounds := Lexeme.plainOffsets_bounds earlier
    omega

-- The first part ends behind a backslash in a string, so that the quote after it is not the
-- one that closes the string.
theorem reading_resumes_escaped :
    let front := Bytes.ofString "a 'b\\"
    let back := Bytes.ofString "'' c -- '"
    let second := Lexeme.ofTextFrom false (.escape .single) 0 back
    let whole := Lexeme.ofTextFrom false .plain 0 (front ++ back)
    Lexer.Apart front back ∧ Lexeme.plainOffsets second = [2, 3, 4] ∧
      Lexeme.endContext .plain whole = Lexeme.endContext (.escape .single) second ∧
      ∀ position, front.length + position ∈ Lexeme.plainOffsets whole ↔
        position ∈ Lexeme.plainOffsets second := by
  intro front back second whole
  have apart : Lexer.Apart front back := ⟨by unfold Lexer.Seam; decide +kernel, by decide +kernel⟩
  have middle : Lexeme.endContext .plain (Lexeme.ofTextFrom false .plain 0 front) =
      .escape .single := by
    decide +kernel
  have resumed := reading_resumes false .plain apart
  simp only [middle] at resumed
  exact ⟨apart, by decide +kernel, resumed.1, resumed.2.2⟩

end InsertBatch
