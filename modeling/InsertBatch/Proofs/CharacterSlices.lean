import Mathlib.Data.List.DropRight
import InsertBatch.Proofs.Scanning
import InsertBatch.Proofs.ScriptStatements
import InsertBatch.Proofs.TupleBounds

namespace InsertBatch

namespace Bytes
variable {bytes : Bytes} {start middle stop : Nat}

theorem slice_front (ordered : middle ≤ stop) :
    bytes.slice start middle = (bytes.slice start stop).take (middle - start) := by
  simp only [slice, List.drop_take, List.take_take]
  congr 1
  omega

theorem slice_extract (text : String) (start stop : Nat) :
    (ofString text).slice start stop = (text.toByteArray.extract start stop).data.toList := by
  rw [slice, ofString, String.toUTF8_eq_toByteArray]
  simp [List.extract_eq_take_drop, List.drop_take]

theorem ofString_ofList (chars : List Char) : ofString (String.ofList chars) = ofChars chars := by
  rw [ofString_chars, String.toList_ofList, ofChars]

-- The bytes at a span, from its start up to its end.
def taken (bytes : Bytes) (span : Nat × Nat) : Bytes := bytes.slice span.1 span.2

end Bytes

theorem Text.trim_parts (chars : List Char) : ∃ trail,
    chars = chars.takeWhile isBlank ++ (trim chars ++ trail) := by
  have front : trim chars <+: chars.dropWhile isBlank := List.rdropWhile_prefix _ _
  obtain ⟨trail, split⟩ := front
  refine ⟨trail, ?_⟩
  rw [split, List.takeWhile_append_dropWhile]

-- A span that may be taken out of these bytes.
structure ByteSlice (bytes : Bytes) (span : Nat × Nat) : Prop where
  ordered : span.1 ≤ span.2
  within : span.2 ≤ bytes.length

-- No character of the text has bytes on both sides of this position.
def Boundary (text : String) (position : Nat) : Prop := String.Pos.Raw.IsValid text ⟨position⟩

-- A span that may be taken out of this text: it splits no character, and what it takes is a
-- text again.
structure TextSlice (text : String) (span : Nat × Nat) : Prop where
  bounds : ByteSlice (Bytes.ofString text) span
  opens : Boundary text span.1
  closes : Boundary text span.2
  encoded : ∃ part, (Bytes.ofString text).taken span = Bytes.ofString part

namespace Boundary
variable {text : String} {start stop place : Nat} {byte : UInt8} {chars : List Char}

-- Bytes between two positions of a text are a text when no character is split at either.
theorem encoded_iff (ordered : start ≤ stop) (within : stop ≤ (Bytes.ofString text).length) :
    (∃ part, (Bytes.ofString text).slice start stop = Bytes.ofString part) ↔
      start = stop ∨ Boundary text start ∧ Boundary text stop := by
  have valid := @String.Pos.Raw.isValidUTF8_extract_iff text ⟨start⟩ ⟨stop⟩ ordered within
  rw [String.Pos.Raw.mk.injEq] at valid
  rw [Boundary, Boundary, ← valid, Bytes.slice_extract]
  constructor
  · intro found
    obtain ⟨part, same⟩ := found
    have equal : text.toByteArray.extract start stop = part.toByteArray :=
      ByteArray.ext (Array.toList_inj.mp same)
    rw [equal]
    exact part.isValidUTF8
  · intro encoded
    exact ⟨.ofByteArray _ encoded, rfl⟩

theorem first (text : String) : Boundary text 0 := String.Pos.Raw.isValid_zero

theorem last (text : String) : Boundary text (Bytes.ofString text).length :=
  String.Pos.Raw.isValid_rawEndPos

theorem within (boundary : Boundary text place) : place ≤ (Bytes.ofString text).length :=
  String.Pos.Raw.IsValid.le_rawEndPos boundary

theorem forward (opens : Boundary text start) (ordered : start ≤ stop)
    (within : stop ≤ (Bytes.ofString text).length)
    (encoded : (Bytes.ofString text).slice start stop = Bytes.ofChars chars) :
    Boundary text stop := by
  rw [← Bytes.ofString_ofList] at encoded
  rcases (encoded_iff ordered within).mp ⟨_, encoded⟩ with rfl | both
  · exact opens
  · exact both.2

theorem backward (closes : Boundary text stop) (ordered : start ≤ stop)
    (encoded : (Bytes.ofString text).slice start stop = Bytes.ofChars chars) :
    Boundary text start := by
  rw [← Bytes.ofString_ofList] at encoded
  rcases (encoded_iff ordered closes.within).mp ⟨_, encoded⟩ with rfl | both
  · exact closes
  · exact both.1

theorem slice (opens : Boundary text start) (closes : Boundary text stop) (ordered : start ≤ stop) :
    TextSlice text (start, stop) where
  bounds := ⟨ordered, closes.within⟩
  opens := opens
  closes := closes
  encoded := (encoded_iff ordered closes.within).mpr (.inr ⟨opens, closes⟩)

-- A text may be cut on both sides of an ASCII character.
structure Around (text : String) (place : Nat) : Prop where
  before : Boundary text place
  behind : Boundary text (place + 1)

theorem around_ascii (found : (Bytes.ofString text)[place]? = some byte) (ascii : byte < 0x80) :
    Around text place := by
  obtain ⟨inside, here⟩ := List.getElem?_eq_some_iff.mp found
  have split : Bytes.ofChars text.toList =
      (Bytes.ofString text).take place ++ byte :: (Bytes.ofString text).drop (place + 1) := by
    rw [← here, List.getElem_cons_drop, List.take_append_drop, Bytes.ofString_chars, Bytes.ofChars]
  obtain ⟨before, after, left, right⟩ := Bytes.ofChars_cut ascii split
  constructor
  · apply (first text).forward (Nat.zero_le _) (Nat.le_of_lt inside)
    rw [Bytes.slice, List.drop_zero, left]
  · apply (last text).backward inside
    rw [Bytes.slice, List.take_length, right]

end Boundary

namespace Script
open Boundary (Around)
variable {rawBackslash : Bool} {text : String} {start stop : Nat} {places : List Nat}
  {spans : List (Nat × Nat)} {piece : Piece} {byte : UInt8}

-- Places of ASCII characters, each behind the one before it, between two positions.
structure Marked (text : String) (start : Nat) (places : List Nat) (stop : Nat) : Prop where
  opens : Boundary text start
  closes : Boundary text stop
  ordered : start ≤ stop
  increase : places.Pairwise (· < ·)
  inside : ∀ place ∈ places, start ≤ place ∧ place < stop
  around : ∀ place ∈ places, Around text place

theorem Marked.rest (marked : Marked text start (place :: places) stop) :
    Marked text (place + 1) places stop := by
  obtain ⟨later, increase⟩ := List.pairwise_cons.mp marked.increase
  obtain ⟨here, inside⟩ := List.forall_mem_cons.mp marked.inside
  obtain ⟨around, others⟩ := List.forall_mem_cons.mp marked.around
  refine ⟨around.behind, marked.closes, here.2, increase, ?_, others⟩
  intro other member
  exact ⟨later other member, (inside other member).2⟩

-- The spans between such places split no character.
theorem Marked.slices (marked : Marked text start places stop) :
    ∀ span ∈ spansFrom start places stop, TextSlice text span := by
  induction places generalizing start with
  | nil =>
    intro span member
    rw [List.mem_singleton.mp member]
    exact marked.opens.slice marked.closes marked.ordered
  | cons place places ih =>
    intro span member
    rcases List.mem_cons.mp member with rfl | later
    · exact marked.opens.slice (marked.around place List.mem_cons_self).before
        (marked.inside place List.mem_cons_self).1
    · exact ih marked.rest span later

-- Wherever plain text has an ASCII character, the text may be cut.
theorem placesOf_marked (ascii : byte < 0x80) (rawBackslash : Bool) (text : String) :
    Marked text 0 (Lexeme.placesOf byte (Lexeme.ofText rawBackslash (Bytes.ofString text)))
      (Bytes.ofString text).length where
  opens := .first text
  closes := .last text
  ordered := Nat.zero_le _
  increase := Lexeme.placesOf_increase byte rawBackslash .plain 0 _
  inside place member := by
    have found := (Lexeme.mem_placesOf.mp member).byte_at
    exact ⟨Nat.zero_le _, (List.getElem?_eq_some_iff.mp found).1⟩
  around place member :=
    Boundary.around_ascii (Lexeme.mem_placesOf.mp member).byte_at ascii

-- What stands between the semicolons of a script.
def stretches (rawBackslash : Bool) (script : Bytes) : List (Nat × Nat) :=
  spansFrom 0 (Lexeme.placesOf Ascii.semicolon (Lexeme.ofText rawBackslash script)) script.length

-- A statement of a script stands in one of the spans between semicolons, and trimming has
-- split no character.
structure CutsPiece (text : String) (spans : List (Nat × Nat)) (piece : Piece) : Prop where
  inside : ∃ span ∈ spans, span.1 ≤ piece.offset ∧ piece.offset + piece.text.length ≤ span.2
  slice : TextSlice text (piece.offset, piece.offset + piece.text.length)
  taken : piece.text = (Bytes.ofString text).taken (piece.offset, piece.offset + piece.text.length)

theorem IsStatement.cuts {span : Nat × Nat} (listed : span ∈ spans)
    (whole : TextSlice text span)
    (statement : IsStatement rawBackslash (Bytes.ofString text) span.1 span.2 piece) :
    CutsPiece text spans piece := by
  obtain ⟨chars, encoded, trimmed, offset⟩ := statement.trimmed
  obtain ⟨trail, split⟩ := Text.trim_parts chars
  obtain ⟨ordered, within⟩ := whole.bounds
  have parts : (Bytes.ofString text).slice span.1 span.2 =
      Bytes.ofChars (chars.takeWhile Text.isBlank) ++ (piece.text ++ Bytes.ofChars trail) := by
    rw [encoded, trimmed]
    conv => lhs; rw [split]
    simp only [Bytes.ofChars, List.flatMap_append]
  have size := congrArg List.length parts
  simp only [Bytes.slice, List.length_drop, List.length_take, List.length_append] at size
  have reach : piece.offset + piece.text.length ≤ span.2 := by
    rw [offset]
    omega
  have lead : (Bytes.ofString text).slice span.1 piece.offset =
      Bytes.ofChars (chars.takeWhile Text.isBlank) := by
    rw [Bytes.slice_front (Nat.le_of_add_right_le reach), parts, offset, Nat.add_sub_cancel_left,
      List.take_left]
  have begins : Boundary text piece.offset :=
    whole.opens.forward (by omega) (by omega) lead
  have ends : Boundary text (piece.offset + piece.text.length) :=
    begins.forward (Nat.le_add_right _ _) (by omega) (statement.inPlace.trans trimmed)
  exact ⟨⟨span, listed, by omega, reach⟩, begins.slice ends (Nat.le_add_right _ _),
    statement.inPlace.symm⟩

-- What a counter reads that goes on from each place to the next.
def countedFrom (start : Nat) (places : List Nat) : List (Nat × Nat) := (start :: places).zip places

theorem countedFrom_slices {bytes : Bytes} (increase : places.Pairwise (· ≤ ·))
    (inside : ∀ place ∈ places, start ≤ place ∧ place ≤ bytes.length) :
    ∀ span ∈ countedFrom start places, ByteSlice bytes span := by
  induction places generalizing start with
  | nil =>
    intro span member
    cases member
  | cons place places ih =>
    obtain ⟨later, increase⟩ := List.pairwise_cons.mp increase
    obtain ⟨here, inside⟩ := List.forall_mem_cons.mp inside
    intro span member
    rcases List.mem_cons.mp member with rfl | behind
    · exact ⟨here.1, here.2⟩
    · apply ih increase _ span behind
      intro other listed
      exact ⟨later other listed, (inside other listed).2⟩

-- The cuts that make the statements of a script.
structure CutsScript (rawBackslash : Bool) (text : String) : Prop where
  between : ∀ span ∈ stretches rawBackslash (Bytes.ofString text), TextSlice text span
  pieces : ∀ piece ∈ split rawBackslash (Bytes.ofString text),
    CutsPiece text (stretches rawBackslash (Bytes.ofString text)) piece
  lines : ∀ span ∈ countedFrom 0 ((split rawBackslash (Bytes.ofString text)).map Piece.offset),
    ByteSlice (Bytes.ofString text) span

theorem stretches_slices (rawBackslash : Bool) (text : String) :
    ∀ span ∈ stretches rawBackslash (Bytes.ofString text), TextSlice text span :=
  (placesOf_marked (by decide) rawBackslash text).slices

theorem cuts (rawBackslash : Bool) (text : String) : CutsScript rawBackslash text where
  between := stretches_slices rawBackslash text
  pieces piece member := by
    obtain ⟨span, listed, statement⟩ := (split_lists rawBackslash text).mem_span member
    exact statement.cuts listed (stretches_slices rawBackslash text span listed)
  lines := by
    obtain ⟨within, ordered⟩ := split_spread rawBackslash (Bytes.ofString text)
    apply countedFrom_slices
    · apply List.pairwise_map.mpr
      exact ordered.imp fun order => Nat.le_of_add_right_le order
    · intro place listed
      obtain ⟨piece, member, rfl⟩ := List.mem_map.mp listed
      have bounds := within piece member
      exact ⟨Nat.zero_le _, Nat.le_of_add_right_le bounds.2⟩

end Script

namespace Segment
variable {text : String} {start stop : Nat} {marks : List Nat}

def texts : List Segment → List Bytes
  | [] => []
  | .text bytes :: rest => bytes :: texts rest
  | .parameter :: rest => texts rest

-- The text pieces of a cut are what stands between its marks.
theorem texts_cut (marked : Script.Marked text start marks stop) :
    texts (cut (Bytes.ofString text) start marks stop) =
      (Script.spansFrom start marks stop).map (Bytes.ofString text).taken := by
  rw [cut]
  induction marks generalizing start with
  | nil => simp only [cutFrom, texts, Script.spansFrom, List.map_cons, List.map_nil, Bytes.taken,
      Bytes.slice, List.drop_take]
  | cons mark marks ih =>
    have behind := ih marked.rest
    have first := (marked.inside mark List.mem_cons_self).1
    have rest : start + (mark + 1 - start) = mark + 1 := by omega
    simp only [cutFrom, texts, Script.spansFrom, List.map_cons, List.drop_drop, rest, behind,
      Bytes.taken, Bytes.slice, List.drop_take]

end Segment

namespace Statement
open Script (spansFrom Marked)
variable {rawBackslash : Bool} {text : String} {template : Template}

-- The cuts that make a template of a statement.
structure CutsTemplate (text : String) (marks : List Nat) (start stop : Nat) (template : Template) :
    Prop where
  slices : ∀ span ∈ (0, start) :: (stop, (Bytes.ofString text).length) ::
    spansFrom start marks stop, TextSlice text span
  lead : template.lead = (Bytes.ofString text).taken (0, start)
  trail : template.trail = (Bytes.ofString text).taken (stop, (Bytes.ofString text).length)
  tuple : Segment.texts template.tuple =
    (spansFrom start marks stop).map (Bytes.ofString text).taken

-- What stands between the parameters of a statement.
def flushes (statement : Statement) : List (Nat × Nat) :=
  spansFrom 0 statement.marks statement.sql.length

-- The cuts that make the segments of a statement, and its template.
structure CutsText (text : String) (statement : Statement) : Prop where
  flushes : ∀ span ∈ statement.flushes, TextSlice text span
  segments : Segment.texts statement.segments = statement.flushes.map (Bytes.ofString text).taken
  template : ∀ template, statement.template? = some template → ∃ start stop,
    statement.classification.tupleSpan? = some (start, stop) ∧
      CutsTemplate text statement.marks start stop template

theorem analyze_marked (rawBackslash : Bool) (text : String) :
    Marked text 0 (analyze rawBackslash (Bytes.ofString text)).marks
      (Bytes.ofString text).length := by
  rw [analyze_marks]
  exact Script.placesOf_marked (by decide : Ascii.question < 0x80) rawBackslash text

theorem template_cuts
    (found : (analyze rawBackslash (Bytes.ofString text)).template? = some template) :
    ∃ start stop,
      (analyze rawBackslash (Bytes.ofString text)).classification.tupleSpan? = some (start, stop) ∧
      CutsTemplate text (analyze rawBackslash (Bytes.ofString text)).marks start stop template := by
  have mergeable := template?_isMergeable found
  obtain ⟨start, close, _, _, span⟩ := Classification.tupleSpan?_of_isMergeable mergeable
  have within := marks_within mergeable span
  obtain ⟨lead, tuple, trail, whole, here, there, _, group⟩ := Classification.tupleSpan?_split span
  obtain ⟨inner, rfl⟩ := group.last
  refine ⟨start, close + 1, span, ?_⟩
  have places := analyze_marked rawBackslash text
  have opens : Boundary text start := by
    refine (Boundary.around_ascii ?_ (by decide : Ascii.openParen < 0x80)).before
    rw [whole, here]
    simp
  have closes : Boundary text (close + 1) := by
    refine (Boundary.around_ascii ?_ (by decide : Ascii.closeParen < 0x80)).behind
    have place : close = (lead ++ Ascii.openParen :: inner).length := by
      simp only [List.length_append, List.length_cons, List.length_nil] at there ⊢
      omega
    rw [whole, place]
    simp
  have ordered : start ≤ close + 1 := by
    rw [here, there]
    exact Nat.le_add_right _ _
  have marked : Marked text start (analyze rawBackslash (Bytes.ofString text)).marks (close + 1) :=
    ⟨opens, closes, ordered, places.increase, within, places.around⟩
  rw [template?, if_pos mergeable, span, Option.map_some, Option.some.injEq] at found
  subst found
  refine ⟨?_, rfl, rfl, Segment.texts_cut marked⟩
  intro cut member
  rcases List.mem_cons.mp member with rfl | member
  · exact (Boundary.first text).slice opens (Nat.zero_le _)
  · rcases List.mem_cons.mp member with rfl | member
    · exact closes.slice (Boundary.last text) closes.within
    · exact marked.slices cut member

theorem cuts (rawBackslash : Bool) (text : String) :
    CutsText text (analyze rawBackslash (Bytes.ofString text)) where
  flushes := (analyze_marked rawBackslash text).slices
  segments := Segment.texts_cut (analyze_marked rawBackslash text)
  template _ found := template_cuts found

end Statement

namespace Lexeme
variable {rawBackslash : Bool} {bytes : Bytes} {lexeme : Lexeme}

-- What a step looks at, and what it takes of that.
structure Scans (bytes : Bytes) (lexeme : Lexeme) : Prop where
  rest : ByteSlice bytes (lexeme.start, bytes.length)
  slice : ByteSlice bytes (lexeme.start, lexeme.start + lexeme.text.length)
  taken : lexeme.text = bytes.taken (lexeme.start, lexeme.start + lexeme.text.length)

theorem scans (member : lexeme ∈ ofText rawBackslash bytes) : Scans bytes lexeme := by
  obtain ⟨left, right, rfl, _, here, _, text⟩ := mem_parts member
  rw [Nat.zero_add] at here
  generalize (Lexer.step rawBackslash lexeme.before right).length = length at text
  have taken := Bytes.slice_middle left (right.take length) (right.drop length)
  have bound := List.length_take_le' length right
  rw [List.take_append_drop] at taken
  rw [← text] at taken bound
  rw [← here] at taken
  refine ⟨⟨?_, Nat.le_refl _⟩, ⟨Nat.le_add_right _ _, ?_⟩, taken.symm⟩
  · simp only [List.length_append, here]
    exact Nat.le_add_right _ _
  · simp only [List.length_append, here]
    omega

end Lexeme

namespace Token
variable {rawBackslash : Bool} {bytes word : Bytes} {start : Nat}

-- The scan of a word, and the scan of the blanks behind it.
structure ScansWord (bytes : Bytes) (start : Nat) (word : Bytes) : Prop where
  scanned : Bytes.wordLength (bytes.drop start) = word.length
  slice : ByteSlice bytes (start, start + word.length)
  taken : word = bytes.taken (start, start + word.length)
  blanks : ByteSlice bytes (start + word.length,
    start + word.length + Bytes.blankLength (bytes.drop (start + word.length)))

theorem scansWord (member : .word start word ∈ ofText rawBackslash bytes) :
    ScansWord bytes start word := by
  obtain ⟨before, behind, made⟩ := List.append_of_mem member
  obtain ⟨left, right, rfl, rfl, between, _, _⟩ := between_of_word made
  have stops : right.takeWhile Ascii.isWord = [] := by
    have closes := between.closes
    cases right with
    | nil => rfl
    | cons byte right => exact List.takeWhile_cons_of_neg (by simpa using closes)
  have rest : (left ++ (word ++ right)).drop (left.length + word.length) = right := by
    rw [← List.append_assoc, ← List.length_append, List.drop_left]
  constructor
  · rw [List.drop_left, Bytes.wordLength, List.takeWhile_append_of_pos between.words, stops,
      List.append_nil]
  · refine ⟨Nat.le_add_right _ _, ?_⟩
    simp only [List.length_append]
    omega
  · exact (Bytes.slice_middle left word right).symm
  · have blanks : Bytes.blankLength right ≤ right.length := (List.takeWhile_prefix _).length_le
    rw [rest]
    refine ⟨Nat.le_add_right _ _, ?_⟩
    simp only [List.length_append]
    omega

end Token

-- Whatever the text, all that is taken out of it lies in it and splits no character: by the
-- scans of an analysis, around the parameters and the tuple of a statement, and for the
-- statements of a script.
structure CutsCleanly (rawBackslash : Bool) (text : String) : Prop where
  steps : ∀ lexeme ∈ Lexeme.ofText rawBackslash (Bytes.ofString text),
    Lexeme.Scans (Bytes.ofString text) lexeme
  words : ∀ start word, .word start word ∈ Token.ofText rawBackslash (Bytes.ofString text) →
    Token.ScansWord (Bytes.ofString text) start word
  statement : Statement.CutsText text (Statement.analyze rawBackslash (Bytes.ofString text))
  script : Script.CutsScript rawBackslash text

theorem cuts_cleanly (rawBackslash : Bool) (text : String) : CutsCleanly rawBackslash text where
  steps _ := Lexeme.scans
  words _ _ := Token.scansWord
  statement := Statement.cuts rawBackslash text
  script := Script.cuts rawBackslash text

-- The escape takes one byte of its character, and no cut is made behind it.
example : (Statement.analyze false (Bytes.ofString "'\\é' ?é")).flushes = [(0, 6), (7, 9)] := by
  decide +kernel

end InsertBatch
