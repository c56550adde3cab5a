import InsertBatch.Proofs.FlagMeanings
import InsertBatch.Proofs.Trimming

namespace InsertBatch

namespace Lexeme
variable {rawBackslash : Bool} {start position : Nat}
  {text lead trail : Bytes} {lexeme : Lexeme} {lexemes : List Lexeme}

theorem ofTextFrom_lead (inert : ∀ byte ∈ lead, Lexer.Inert byte) (start : Nat) (rest : Bytes) :
    ofTextFrom rawBackslash .plain start (lead ++ rest) =
      ofTextFrom rawBackslash .plain start lead ++
        ofTextFrom rawBackslash .plain (start + lead.length) rest := by
  induction lead generalizing start with
  | nil => rw [ofTextFrom_nil]; rfl
  | cons byte lead ih =>
    obtain ⟨first, inert⟩ := List.forall_mem_cons.mp inert
    rw [List.cons_append, ofTextFrom_inert first, ofTextFrom_inert first, ih inert,
      List.length_cons, Nat.add_assoc, Nat.add_comm 1]
    rfl

theorem any_isContent_start (rawBackslash : Bool) (start : Nat) (text : Bytes) :
    (ofTextFrom rawBackslash .plain start text).any Script.isContent = true ↔
      ∃ position, position < text.length ∧ SignificantAt rawBackslash text position := by
  rw [← Outline.content_any, Outline.ofText_start, Outline.ofText, Outline.content_any,
    List.any_eq_true]
  constructor
  · intro found
    obtain ⟨lexeme, member, content⟩ := found
    have bounds := start_bounds member
    refine ⟨lexeme.start, by omega, significantAt_iff.mpr ⟨lexeme, member, content, rfl⟩⟩
  · intro found
    obtain ⟨position, _, significant⟩ := found
    obtain ⟨lexeme, member, content, _⟩ := significantAt_iff.mp significant
    exact ⟨lexeme, member, content⟩

theorem isPlain_of_isContent (content : Script.isContent lexeme = true) :
    lexeme.before.isPlain = true := by
  unfold Script.isContent at content
  split at content
  · rename_i byte plain
    rw [(plainByte?_contexts plain).1]
    rfl
  · exact (Bool.and_eq_true_iff.mp content).1

theorem mem_plainSteps (content : Script.isContent lexeme = true) :
    lexeme ∈ plainSteps lexemes ↔ lexeme ∈ lexemes := by
  rw [plainSteps, List.mem_filter, and_iff_left (isPlain_of_isContent content)]

-- A byte of a text is significant no matter which harmless bytes follow the text.
theorem significantAt_trail (inert : ∀ byte ∈ trail, Lexer.Inert byte)
    (inside : position < text.length) :
    SignificantAt rawBackslash (text ++ trail) position ↔
      SignificantAt rawBackslash text position := by
  obtain ⟨later, same, behind⟩ := plainSteps_trail rawBackslash .plain 0 text inert
  rw [significantAt_iff, significantAt_iff]
  constructor
  · intro found
    obtain ⟨lexeme, member, content, rfl⟩ := found
    rw [← mem_plainSteps content, ofText, same, List.mem_append] at member
    rcases member with early | late
    · exact ⟨lexeme, (mem_plainSteps content).mp early, content, rfl⟩
    · have bound := behind lexeme late
      omega
  · intro found
    obtain ⟨lexeme, member, content, rfl⟩ := found
    rw [← mem_plainSteps content] at member
    refine ⟨lexeme, ?_, content, rfl⟩
    rw [← mem_plainSteps content, ofText, same]
    exact List.mem_append_left _ member

end Lexeme

namespace Script
open Lexeme (SignificantAt ReachedPlain)

-- A part of a script that is read from plain text, whatever stands around it.
structure Stretch (rawBackslash : Bool) (script : Bytes) (start : Nat) (part : Bytes) : Prop where
  placed : ∃ front behind, script = front ++ (part ++ behind) ∧ front.length = start
  run : ∃ earlier later, Lexeme.ofText rawBackslash script =
      earlier ++ (Lexeme.ofTextFrom rawBackslash .plain start part ++ later) ∧
    (∀ lexeme ∈ earlier, lexeme.start < start) ∧
    ∀ lexeme ∈ later, start + part.length ≤ lexeme.start

-- What is left of a script from a place that is reached in plain text.
structure Remainder (rawBackslash : Bool) (script : Bytes) (start : Nat) (text : Bytes) : Prop where
  placed : ∃ front, script = front ++ text ∧ front.length = start
  run : ∃ earlier, Lexeme.ofText rawBackslash script =
      earlier ++ Lexeme.ofTextFrom rawBackslash .plain start text ∧
    ∀ lexeme ∈ earlier, lexeme.start < start

-- The statement that stands between two places of a script: its text is what stands there
-- without the blank characters around it.
structure IsStatement (rawBackslash : Bool) (script : Bytes) (start stop : Nat) (piece : Piece) :
    Prop where
  trimmed : ∃ chars, script.slice start stop = Bytes.ofChars chars ∧
    piece.text = Bytes.ofChars (Text.trim chars) ∧
    piece.offset = start + (Bytes.ofChars (chars.takeWhile Text.isBlank)).length
  inPlace : script.slice piece.offset (piece.offset + piece.text.length) = piece.text
  line : piece.line = 1 + (script.take piece.offset).count Ascii.newline
  alike : ∀ position, position < piece.text.length →
    (SignificantAt rawBackslash script (piece.offset + position) ↔
      SignificantAt rawBackslash piece.text position)

-- The statements of a script between these places, in order: one for each two places with a
-- significant byte between them.
inductive Lists (rawBackslash : Bool) (script : Bytes) : List (Nat × Nat) → List Piece → Prop where
  | done : Lists rawBackslash script [] []
  | keep (present : ∃ position, start ≤ position ∧ position < stop ∧
        SignificantAt rawBackslash script position)
      (made : IsStatement rawBackslash script start stop piece)
      (rest : Lists rawBackslash script spans pieces) :
      Lists rawBackslash script ((start, stop) :: spans) (piece :: pieces)
  | drop (none : ∀ position, start ≤ position → position < stop →
        ¬SignificantAt rawBackslash script position)
      (rest : Lists rawBackslash script spans pieces) :
      Lists rawBackslash script ((start, stop) :: spans) pieces

-- From `start` to `stop`, without the bytes at these places.
def spansFrom (start : Nat) (places : List Nat) (stop : Nat) : List (Nat × Nat) :=
  match places with
  | [] => [(start, stop)]
  | place :: places => (start, place) :: spansFrom (place + 1) places stop

variable {rawBackslash : Bool} {script part lead body text left right : Bytes} {start position : Nat}
  {spans : List (Nat × Nat)} {pieces : List Piece} {piece : Piece} {chars : List Char}
  {found : List (List Lexeme)}

theorem Stretch.significantAt (stretch : Stretch rawBackslash script start part)
    (inside : position < part.length) :
    SignificantAt rawBackslash script (start + position) ↔
      SignificantAt rawBackslash part position := by
  obtain ⟨earlier, later, run, ahead, behind⟩ := stretch.run
  have moved := Lexeme.ofTextFrom_shift rawBackslash .plain 0 start part
  rw [Nat.zero_add] at moved
  rw [moved] at run
  rw [Lexeme.significantAt_iff, Lexeme.significantAt_iff, run]
  constructor
  · intro found
    obtain ⟨lexeme, member, content, here⟩ := found
    rcases List.mem_append.mp member with before | member
    · have bound := ahead lexeme before
      omega
    · rcases List.mem_append.mp member with within | after
      · obtain ⟨alone, listed, rfl⟩ := List.mem_map.mp within
        have place : alone.start + start = start + position := here
        exact ⟨alone, listed, content, by omega⟩
      · have bound := behind lexeme after
        omega
  · intro found
    obtain ⟨lexeme, member, content, rfl⟩ := found
    refine ⟨lexeme.shift start, ?_, content, Nat.add_comm _ _⟩
    apply List.mem_append_right
    apply List.mem_append_left
    exact List.mem_map_of_mem member

theorem Stretch.present (stretch : Stretch rawBackslash script start part) :
    (Lexeme.ofTextFrom rawBackslash .plain start part).any isContent = true ↔
      ∃ position, start ≤ position ∧ position < start + part.length ∧
        SignificantAt rawBackslash script position := by
  rw [Lexeme.any_isContent_start]
  constructor
  · intro found
    obtain ⟨position, inside, significant⟩ := found
    exact ⟨start + position, by omega, by omega, (stretch.significantAt inside).mpr significant⟩
  · intro found
    obtain ⟨position, lower, upper, significant⟩ := found
    obtain ⟨index, rfl⟩ := Nat.exists_eq_add_of_le lower
    have inside : index < part.length := by omega
    exact ⟨index, inside, (stretch.significantAt inside).mp significant⟩

theorem Stretch.drop (stretch : Stretch rawBackslash script start (lead ++ body))
    (inert : ∀ byte ∈ lead, Lexer.Inert byte) :
    Stretch rawBackslash script (start + lead.length) body := by
  obtain ⟨⟨front, behind, rfl, rfl⟩, earlier, later, run, ahead, after⟩ := stretch
  refine ⟨⟨front ++ lead, behind, by simp, by simp⟩,
    earlier ++ Lexeme.ofTextFrom rawBackslash .plain front.length lead, later, ?_, ?_, ?_⟩
  · rw [run, Lexeme.ofTextFrom_lead inert]
    simp
  · intro lexeme member
    rcases List.mem_append.mp member with before | within
    · exact Nat.lt_add_right _ (ahead lexeme before)
    · exact (Lexeme.start_bounds within).2
  · intro lexeme member
    have bound := after lexeme member
    rw [List.length_append] at bound
    omega

theorem Lists.mem_span (lists : Lists rawBackslash script spans pieces) (member : piece ∈ pieces) :
    ∃ span ∈ spans, IsStatement rawBackslash script span.1 span.2 piece := by
  induction lists with
  | done => cases member
  | keep _ made _ ih =>
    rcases List.mem_cons.mp member with rfl | later
    · exact ⟨_, List.mem_cons_self, made⟩
    · obtain ⟨span, listed, statement⟩ := ih later
      exact ⟨span, List.mem_cons_of_mem _ listed, statement⟩
  | drop _ _ ih =>
    obtain ⟨span, listed, statement⟩ := ih member
    exact ⟨span, List.mem_cons_of_mem _ listed, statement⟩

theorem Lists.mem (lists : Lists rawBackslash script spans pieces) (member : piece ∈ pieces) :
    ∃ start stop, IsStatement rawBackslash script start stop piece := by
  obtain ⟨span, _, statement⟩ := lists.mem_span member
  exact ⟨span.1, span.2, statement⟩

theorem pieceOf?_isStatement (stretch : Stretch rawBackslash script start part)
    (encoded : part = Bytes.ofChars chars)
    (content : (Lexeme.ofTextFrom rawBackslash .plain start part).any isContent = true) :
    ∃ piece, pieceOf? start (1 + (script.take start).count Ascii.newline)
        (Lexeme.ofTextFrom rawBackslash .plain start part) = some piece ∧
      IsStatement rawBackslash script start (start + part.length) piece := by
  rw [pieceOf?, if_pos content, Lexeme.flatMap_text]
  refine ⟨_, rfl, ?_⟩
  obtain ⟨lead, whole, blank⟩ := Text.trimStart_parts part
  obtain ⟨trail, inner, behind⟩ := Text.trimEnd_parts (Text.trimStart part)
  have skipped : part.length - (Text.trimStart part).length = lead.length := by
    have lengths := congrArg List.length whole
    rw [List.length_append] at lengths
    omega
  obtain ⟨front, rest, split, here⟩ := stretch.placed
  constructor
  · refine ⟨chars, ?_, ?_, ?_⟩
    · rw [split, ← here, Bytes.slice_middle, encoded]
    · simp only [encoded, Text.trim_ofChars]
    · simp only [encoded, Text.lead_ofChars]
  · have cut : script =
        (front ++ lead) ++ (Text.trimEnd (Text.trimStart part) ++ (trail ++ rest)) := by
      rw [split]
      conv => lhs; rw [whole, inner]
      simp
    have place : start + lead.length = (front ++ lead).length := by
      rw [List.length_append, here]
    simp only [skipped, place]
    rw [cut, Bytes.slice_middle]
  · have counted : script.take (start + lead.length) = front ++ lead := by
      rw [split, whole, ← here, List.take_length_add_append, List.append_assoc, List.take_left]
    have ahead : script.take start = front := by
      rw [split, ← here, List.take_left]
    have begun : part.take lead.length = lead := by
      rw [whole, List.take_left]
    simp only [skipped, counted, ahead, begun, List.count_append]
    omega
  · intro position inside
    have inertLead : ∀ byte ∈ lead, Lexer.Inert byte := by
      intro byte member
      exact (Text.trimmed_inert byte (blank byte member)).1
    have inertTrail : ∀ byte ∈ trail, Lexer.Inert byte := by
      intro byte member
      exact (Text.trimmed_inert byte (behind byte member)).1
    rw [whole] at stretch
    have body := stretch.drop inertLead
    rw [inner] at body
    have reach : position < (Text.trimEnd (Text.trimStart part) ++ trail).length := by
      rw [List.length_append]
      exact Nat.lt_add_right _ inside
    simp only [skipped]
    rw [body.significantAt reach, Lexeme.significantAt_trail inertTrail inside]

theorem Lists.cons (stretch : Stretch rawBackslash script start part)
    (encoded : part = Bytes.ofChars chars) (rest : Lists rawBackslash script spans pieces) :
    Lists rawBackslash script ((start, start + part.length) :: spans)
      ((pieceOf? start (1 + (script.take start).count Ascii.newline)
        (Lexeme.ofTextFrom rawBackslash .plain start part)).toList ++ pieces) := by
  cases content : (Lexeme.ofTextFrom rawBackslash .plain start part).any isContent with
  | true =>
    obtain ⟨piece, made, statement⟩ := pieceOf?_isStatement stretch encoded content
    rw [made]
    exact .keep (stretch.present.mp content) statement rest
  | false =>
    rw [pieceOf?, if_neg (by simp [content])]
    apply Lists.drop
    · intro position lower upper significant
      rw [stretch.present.mpr ⟨position, lower, upper, significant⟩] at content
      cases content
    · exact rest

theorem Remainder.whole (rawBackslash : Bool) (script : Bytes) :
    Remainder rawBackslash script 0 script :=
  ⟨⟨[], rfl, rfl⟩, [], rfl, by simp⟩

theorem Remainder.stretch (remainder : Remainder rawBackslash script start text) :
    Stretch rawBackslash script start text := by
  obtain ⟨⟨front, split, here⟩, earlier, run, ahead⟩ := remainder
  exact ⟨⟨front, [], by simpa using split, here⟩, earlier, [], by simpa using run, ahead, by simp⟩

theorem Remainder.first
    (remainder : Remainder rawBackslash script start (left ++ Ascii.semicolon :: right))
    (ends : Lexeme.endContext .plain (Lexeme.ofTextFrom rawBackslash .plain start left) = .plain) :
    Stretch rawBackslash script start left := by
  obtain ⟨⟨front, split, here⟩, earlier, run, ahead⟩ := remainder
  rw [semicolon_run ends] at run
  refine ⟨⟨front, Ascii.semicolon :: right, split, here⟩, earlier, _, run, ahead, ?_⟩
  intro lexeme member
  rcases List.mem_cons.mp member with rfl | after
  · exact Nat.le_refl _
  · have bounds := Lexeme.start_bounds after
    omega

theorem Remainder.later
    (remainder : Remainder rawBackslash script start (left ++ Ascii.semicolon :: right))
    (ends : Lexeme.endContext .plain (Lexeme.ofTextFrom rawBackslash .plain start left) = .plain) :
    Remainder rawBackslash script (start + left.length + 1) right := by
  obtain ⟨⟨front, split, here⟩, earlier, run, ahead⟩ := remainder
  rw [semicolon_run ends] at run
  refine ⟨⟨front ++ (left ++ [Ascii.semicolon]), ?_, ?_⟩,
    earlier ++ (Lexeme.ofTextFrom rawBackslash .plain start left ++
      [⟨start + left.length, .plain, .plain, [Ascii.semicolon]⟩]), ?_, ?_⟩
  · simp [split]
  · simp only [List.length_append, List.length_singleton, here]
    omega
  · simp [run]
  · intro lexeme member
    rcases List.mem_append.mp member with before | member
    · have bound := ahead lexeme before
      omega
    · rcases List.mem_append.mp member with within | separator
      · have bounds := Lexeme.start_bounds within
        omega
      · rw [List.mem_singleton.mp separator]
        exact Nat.lt_succ_self _

-- The newlines before the next stretch are those before this one and those in it.
theorem Remainder.lines
    (remainder : Remainder rawBackslash script start (left ++ Ascii.semicolon :: right)) :
    (script.take (start + left.length + 1)).count Ascii.newline =
      (script.take start).count Ascii.newline + left.count Ascii.newline := by
  obtain ⟨front, rfl, rfl⟩ := remainder.placed
  rw [Nat.add_assoc, List.take_length_add_append, List.take_length_add_append, List.take_left,
    List.take_succ_cons, List.take_zero, List.count_append, List.count_append,
    List.count_singleton, if_neg (by decide), Nat.add_zero]

theorem Cuts.lists (cuts : Cuts rawBackslash start text found)
    (remainder : Remainder rawBackslash script start text) (encoded : text = Bytes.ofChars chars) :
    Lists rawBackslash script
      (spansFrom start (Lexeme.placesOf Ascii.semicolon
        (Lexeme.ofTextFrom rawBackslash .plain start text)) script.length)
      (piecesFrom start (1 + (script.take start).count Ascii.newline) found) := by
  induction cuts generalizing chars with
  | @last start text quiet =>
    have stop : script.length = start + text.length := by
      obtain ⟨front, split, here⟩ := remainder.placed
      rw [split, List.length_append, here]
    rw [placesOf_whole quiet, spansFrom, stop, piecesFrom_cons]
    exact .cons remainder.stretch encoded .done
  | @next start left right later quiet ends behind ih =>
    obtain ⟨before, after, first, second⟩ := Bytes.ofChars_cut (by decide) encoded.symm
    have place : ∀ rest, Lexeme.placesOf Ascii.semicolon
        (⟨start + left.length, .plain, .plain, [Ascii.semicolon]⟩ :: rest) =
          (start + left.length) :: Lexeme.placesOf Ascii.semicolon rest := by
      intro rest
      exact List.filterMap_cons_some rfl
    rw [semicolon_run ends, Lexeme.placesOf_append, placesOf_whole quiet, place,
      List.nil_append, spansFrom, piecesFrom_cons, Lexeme.flatMap_text, Nat.add_assoc 1,
      ← remainder.lines]
    exact .cons (remainder.first ends) first (ih (remainder.later ends) second)

theorem split_lists (rawBackslash : Bool) (script : String) :
    Lists rawBackslash (Bytes.ofString script)
      (spansFrom 0 (Lexeme.placesOf Ascii.semicolon
        (Lexeme.ofText rawBackslash (Bytes.ofString script))) (Bytes.ofString script).length)
      (split rawBackslash (Bytes.ofString script)) :=
  (groups_cuts rawBackslash 0 _).lists (.whole _ _) (Bytes.ofString_chars script)

-- A script is cut at its plain semicolons, and each stretch between two of them that has a
-- significant byte gives one statement.
theorem split_exact (rawBackslash : Bool) (script : String) :
    ∃ cuts : List Nat, cuts.Pairwise (· < ·) ∧
      (∀ position, position ∈ cuts ↔
        ReachedPlain (Lexeme.ofText rawBackslash (Bytes.ofString script)) position ∧
          (Bytes.ofString script)[position]? = some Ascii.semicolon) ∧
      Lists rawBackslash (Bytes.ofString script)
        (spansFrom 0 cuts (Bytes.ofString script).length)
        (split rawBackslash (Bytes.ofString script)) := by
  refine ⟨_, Lexeme.placesOf_increase Ascii.semicolon rawBackslash .plain 0 _, ?_,
    split_lists rawBackslash script⟩
  intro position
  rw [Lexeme.mem_placesOf]
  constructor
  · intro plain
    exact ⟨plain.reached, plain.byte_at⟩
  · intro place
    obtain ⟨reached, found⟩ := place
    exact reached.plainAt found (by decide)

-- A trimmed text without a separator is its own only statement, if it has any content.
theorem split_trimmed
    (whole : Lexeme.placesOf Ascii.semicolon (Lexeme.ofText rawBackslash text) = [])
    (front : Text.trimStart text = text) (back : Text.trimEnd text = text) :
    split rawBackslash text =
      if (Lexeme.ofText rawBackslash text).any isContent then [⟨text, 0, 1⟩] else [] := by
  have quiet : (Outline.ofLexemes (Lexeme.ofText rawBackslash text)).separates = false := by
    apply (Lexeme.unseparated_iff _).mpr
    intro position plain
    rw [← Lexeme.mem_placesOf, whole] at plain
    cases plain
  have bytes : (Lexeme.ofText rawBackslash text).flatMap Lexeme.text = text :=
    Lexeme.flatMap_text rawBackslash .plain 0 text
  rw [split, groups_whole (unseparated quiet), piecesFrom_cons, piecesFrom, List.append_nil,
    pieceOf?]
  split
  · simp only [bytes, front, back, Nat.sub_self, List.take_zero, List.count_nil, Nat.add_zero,
      Option.toList_some]
  · rfl

-- A statement is split again into itself, unless all that is significant in its stretch are
-- blank characters beyond ASCII: trimming takes them away and leaves nothing to list.
theorem split_again (rawBackslash : Bool) (script : String)
    (member : piece ∈ split rawBackslash (Bytes.ofString script)) :
    ((∃ position, piece.offset ≤ position ∧ position < piece.offset + piece.text.length ∧
        SignificantAt rawBackslash (Bytes.ofString script) position) →
      split rawBackslash piece.text = [⟨piece.text, 0, 1⟩]) ∧
    ((∀ position, piece.offset ≤ position → position < piece.offset + piece.text.length →
        ¬SignificantAt rawBackslash (Bytes.ofString script) position) →
      split rawBackslash piece.text = []) := by
  obtain ⟨start, stop, statement⟩ := (split_lists rawBackslash script).mem member
  obtain ⟨chars, _, trimmed, _⟩ := statement.trimmed
  rw [← Text.trim_ofChars] at trimmed
  have front : Text.trimStart piece.text = piece.text := by
    rw [trimmed, Text.trimStart_trim]
  have back : Text.trimEnd piece.text = piece.text := by
    rw [trimmed, Text.trimEnd_trim]
  have again := split_trimmed (mem_split_whole member) front back
  have present : (Lexeme.ofText rawBackslash piece.text).any isContent = true ↔
      ∃ position, position < piece.text.length ∧
        SignificantAt rawBackslash piece.text position :=
    Lexeme.any_isContent_start rawBackslash 0 piece.text
  constructor
  · intro found
    obtain ⟨position, lower, upper, significant⟩ := found
    obtain ⟨index, rfl⟩ := Nat.exists_eq_add_of_le lower
    have inside : index < piece.text.length := by omega
    have within := (statement.alike index inside).mp significant
    rw [again, if_pos (present.mpr ⟨index, inside, within⟩)]
  · intro none
    rw [again, if_neg]
    intro content
    obtain ⟨index, inside, within⟩ := present.mp content
    have significant := (statement.alike index inside).mpr within
    exact none (piece.offset + index) (by omega) (by omega) significant

theorem split_again_quoted :
    let piece : Piece := ⟨Bytes.ofString "'a'", 3, 2⟩
    piece ∈ split false (Bytes.ofString "; \n'a' \u00a0; -- b") ∧
      split false piece.text = [⟨piece.text, 0, 1⟩] :=
  ⟨by decide +kernel,
    (split_again false "; \n'a' \u00a0; -- b" (by decide +kernel)).1
      ⟨3, by decide, by decide, Lexeme.significantAt_iff.mpr (by decide +kernel)⟩⟩

-- A no-break space is significant to the scan and blank to the trimming.
theorem split_not_again :
    split false (Bytes.ofString "\u00a0") = [⟨[], 2, 1⟩] ∧ split false [] = [] := by
  decide +kernel

end Script
end InsertBatch
