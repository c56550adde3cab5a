import InsertBatch.Proofs.BatchPlans
import InsertBatch.Proofs.ScriptAgreement
import InsertBatch.Proofs.TokenReading

namespace InsertBatch

namespace Lexer
variable {rawBackslash : Bool} {context : Context} {body rest text : Bytes} {stop place : Nat}

-- A star that a slash follows.
def ClosedAt (body : Bytes) (place : Nat) : Prop :=
  body[place]? = some Ascii.star ∧ body[place + 1]? = some Ascii.slash

theorem closedAt_zero (byte : UInt8) (rest : Bytes) :
    ClosedAt (byte :: rest) 0 ↔ byte = Ascii.star ∧ rest.head? = some Ascii.slash := by
  simp [ClosedAt, List.head?_eq_getElem?]

theorem closedAt_succ (byte : UInt8) (rest : Bytes) (place : Nat) :
    ClosedAt (byte :: rest) (place + 1) ↔ ClosedAt rest place := by
  simp [ClosedAt]

theorem pastBlockEnd?_eq_none : pastBlockEnd? body = none ↔ ∀ place, ¬ClosedAt body place := by
  induction body with
  | nil => simp [pastBlockEnd?, ClosedAt]
  | cons byte rest ih =>
    rw [pastBlockEnd?]
    split
    · rename_i closes
      simp only [reduceCtorEq, false_iff, Classical.not_forall, Classical.not_not]
      exact ⟨0, (closedAt_zero byte rest).mpr closes⟩
    · rename_i other
      rw [Option.map_eq_none_iff, ih]
      constructor
      · intro none place
        cases place with
        | zero => rwa [closedAt_zero]
        | succ place =>
          rw [closedAt_succ]
          exact none place
      · intro none place
        rw [← closedAt_succ byte]
        exact none (place + 1)

-- The first star that a slash follows.
structure FirstClosed (body : Bytes) (place : Nat) : Prop where
  closed : ClosedAt body place
  first : ∀ earlier, earlier < place → ¬ClosedAt body earlier

theorem pastBlockEnd?_closed (found : pastBlockEnd? body = some stop) :
    ∃ place, stop = place + 2 ∧ FirstClosed body place := by
  induction body generalizing stop with
  | nil => cases found
  | cons byte rest ih =>
    rw [pastBlockEnd?] at found
    split at found
    · rename_i closes
      cases found
      exact ⟨0, rfl, (closedAt_zero byte rest).mpr closes, by simp⟩
    · rename_i other
      obtain ⟨shorter, inside, rfl⟩ := Option.map_eq_some_iff.mp found
      obtain ⟨place, rfl, closed, first⟩ := ih inside
      refine ⟨place + 1, rfl, (closedAt_succ byte rest place).mpr closed, ?_⟩
      intro earlier before
      cases earlier with
      | zero => rwa [closedAt_zero]
      | succ earlier =>
        rw [closedAt_succ]
        exact first earlier (Nat.lt_of_succ_lt_succ before)

theorem FirstClosed.unique {other : Nat} (one : FirstClosed body place)
    (two : FirstClosed body other) : place = other := by
  apply Nat.le_antisymm
  · exact Nat.le_of_not_lt fun less => one.first other less two.closed
  · exact Nat.le_of_not_lt fun less => two.first place less one.closed

-- The end of a block comment is just past the first star that a slash follows.
theorem pastBlockEnd?_eq_some :
    pastBlockEnd? body = some stop ↔ ∃ place, stop = place + 2 ∧ FirstClosed body place := by
  refine ⟨pastBlockEnd?_closed, ?_⟩
  intro closed
  obtain ⟨place, rfl, first⟩ := closed
  cases found : pastBlockEnd? body with
  | none => exact absurd first.closed (pastBlockEnd?_eq_none.mp found place)
  | some stop =>
    obtain ⟨other, rfl, same⟩ := pastBlockEnd?_closed found
    rw [same.unique first]

-- Where a loop over a text stands, and in which context.
structure Cursor where
  context : Context
  position : Nat
deriving DecidableEq, Repr

-- How much of the rest of a text one turn of a loop takes.
abbrev Pace := Context → Bytes → Step

def Cursor.next (pace : Pace) (text : Bytes) (cursor : Cursor) : Cursor :=
  let step := pace cursor.context (text.drop cursor.position)
  ⟨step.after, cursor.position + step.length⟩

-- A run of a loop that goes on while it stands before the end of the text: where each of
-- its turns began, and where it ended.
inductive Scan (pace : Pace) (text : Bytes) : Cursor → List Cursor → Cursor → Prop where
  | stop (done : ¬cursor.position < text.length) : Scan pace text cursor [] cursor
  | turn (inside : cursor.position < text.length)
      (rest : Scan pace text (cursor.next pace text) passed last) :
      Scan pace text cursor (cursor :: passed) last

-- Each turn takes something, and no more than there is.
def Keeps (pace : Pace) : Prop :=
  ∀ context rest, rest ≠ [] →
    1 ≤ (pace context rest).length ∧ (pace context rest).length ≤ rest.length

-- The turns of a loop by recursion on the rest of the text, and the context at its end.
structure Records (pace : Pace) (passed : Context → Nat → Bytes → List Cursor)
    (final : Context → Nat → Bytes → Context) : Prop where
  passed_nil : ∀ context position, passed context position [] = []
  final_nil : ∀ context position, final context position [] = context
  passed_turn : ∀ context position rest, rest ≠ [] → passed context position rest =
    ⟨context, position⟩ :: passed (pace context rest).after
      (position + (pace context rest).length) (rest.drop (pace context rest).length)
  final_turn : ∀ context position rest, rest ≠ [] → final context position rest =
    final (pace context rest).after (position + (pace context rest).length)
      (rest.drop (pace context rest).length)

variable {pace : Pace} {cursor last : Cursor} {passed : List Cursor}
  {taken : Context → Nat → Bytes → List Cursor} {final : Context → Nat → Bytes → Context}

theorem Scan.unique {others : List Cursor} {final : Cursor}
    (one : Scan pace text cursor passed last) (two : Scan pace text cursor others final) :
    others = passed ∧ final = last := by
  induction one generalizing others with
  | stop done =>
    cases two with
    | stop => exact ⟨rfl, rfl⟩
    | turn inside => exact absurd inside done
  | turn inside _ ih =>
    cases two with
    | stop done => exact absurd inside done
    | turn _ rest =>
      obtain ⟨rfl, rfl⟩ := ih rest
      exact ⟨rfl, rfl⟩

-- A loop that keeps its pace ends, and it ends where the text does. The induction is on what
-- is left of the text, which each turn makes shorter.
theorem Records.scan (records : Records pace taken final) (keeps : Keeps pace)
    (bound : cursor.position ≤ text.length) :
    Scan pace text cursor
      (taken cursor.context cursor.position (text.drop cursor.position))
      ⟨final cursor.context cursor.position (text.drop cursor.position), text.length⟩ := by
  induction count : text.length - cursor.position using Nat.strongRecOn generalizing cursor with
  | _ size ih =>
    obtain ⟨context, position⟩ := cursor
    simp only at bound count ⊢
    by_cases inside : position < text.length
    · have present : text.drop position ≠ [] := by
        rw [← List.length_pos_iff, List.length_drop]
        omega
      have kept := keeps context (text.drop position) present
      rw [List.length_drop] at kept
      rw [records.passed_turn _ _ _ present, records.final_turn _ _ _ present, List.drop_drop]
      have bounded : (Cursor.next pace text ⟨context, position⟩).position ≤ text.length := by
        simp only [Cursor.next]
        omega
      have shorter : text.length - (Cursor.next pace text ⟨context, position⟩).position < size := by
        simp only [Cursor.next]
        omega
      exact .turn inside (ih _ shorter bounded rfl)
    · obtain rfl : position = text.length := by omega
      rw [List.drop_length, records.passed_nil, records.final_nil]
      exact .stop inside

-- There is no other run.
theorem Records.scan_iff (records : Records pace taken final) (keeps : Keeps pace)
    (bound : cursor.position ≤ text.length) :
    Scan pace text cursor passed last ↔
      passed = taken cursor.context cursor.position (text.drop cursor.position) ∧
        last = ⟨final cursor.context cursor.position (text.drop cursor.position), text.length⟩ := by
  have run := records.scan keeps bound
  constructor
  · exact run.unique
  · intro same
    rw [same.1, same.2]
    exact run

theorem step_keeps (rawBackslash : Bool) : Keeps (step rawBackslash) := by
  intro context rest present
  exact ⟨step_length_pos rawBackslash context present, step_length_le rawBackslash context present⟩

end Lexer

namespace Lexeme
open Lexer (Cursor Records)

def cursor (lexeme : Lexeme) : Cursor := ⟨lexeme.before, lexeme.start⟩

-- The lexemes of a text are the turns of a loop that steps through it.
theorem records (rawBackslash : Bool) :
    Records (Lexer.step rawBackslash)
      (fun context position rest => (ofTextFrom rawBackslash context position rest).map cursor)
      (fun context position rest =>
        endContext context (ofTextFrom rawBackslash context position rest)) where
  passed_nil _ _ := by simp
  final_nil _ _ := by simp
  passed_turn _ _ _ present := by rw [ofTextFrom_step present]; rfl
  final_turn _ _ _ present := by rw [ofTextFrom_step present]; rfl

end Lexeme

namespace Token
open Lexer (Cursor Records)
variable {rawBackslash : Bool} {context : Context} {start : Nat} {rest : Bytes} {lexeme : Lexeme}

def cursor : Token → Cursor
  | .word start _ | .sign start _ | .blank start _ => ⟨.plain, start⟩
  | .turn lexeme => lexeme.cursor

-- The scan of a statement takes a word whole, and all else as the lexer steps.
def pace (rawBackslash : Bool) (context : Context) (rest : Bytes) : Lexer.Step :=
  let step := Lexer.step rawBackslash context rest
  if context = .plain ∧ step.after = .plain ∧ rest.head?.any Ascii.isWord = true then
    ⟨.plain, rest.wordLength⟩
  else step

theorem pace_word (word : context = .plain ∧ (Lexer.step rawBackslash context rest).after = .plain ∧
      rest.head?.any Ascii.isWord = true) :
    pace rawBackslash context rest = ⟨.plain, rest.wordLength⟩ := if_pos word

theorem pace_step (other : ¬(context = .plain ∧
      (Lexer.step rawBackslash context rest).after = .plain ∧
      rest.head?.any Ascii.isWord = true)) :
    pace rawBackslash context rest = Lexer.step rawBackslash context rest := if_neg other

theorem pace_keeps (rawBackslash : Bool) : Lexer.Keeps (pace rawBackslash) := by
  intro context rest present
  by_cases word : context = .plain ∧ (Lexer.step rawBackslash context rest).after = .plain ∧
      rest.head?.any Ascii.isWord = true
  · rw [pace_word word, Bytes.wordLength]
    refine ⟨?_, (List.takeWhile_prefix _).length_le⟩
    obtain ⟨byte, rest, rfl⟩ := List.exists_cons_of_ne_nil present
    have first : Ascii.isWord byte = true := word.2.2
    rw [List.takeWhile_cons_of_pos first, List.length_cons]
    exact Nat.le_add_left _ _
  · rw [pace_step word]
    exact Lexer.step_keeps rawBackslash context rest present

-- A lexeme that is no part of a word makes a token that stands where it stands.
theorem consLexeme_cursor (other : lexeme.isWordByte = false) : ∃ token,
    token.cursor = lexeme.cursor ∧ ∀ rest, consLexeme lexeme rest = token :: rest := by
  cases plain : lexeme.plainByte? with
  | none => exact ⟨.turn lexeme, rfl, consLexeme_turn plain⟩
  | some byte =>
    have before : lexeme.cursor = ⟨.plain, lexeme.start⟩ := by
      rw [Lexeme.cursor, (Lexeme.plainByte?_contexts plain).1]
    have apart : Ascii.isWord byte = false := by
      simpa [Lexeme.isWordByte, plain] using other
    cases blank : Ascii.isBlank byte with
    | true => exact ⟨.blank lexeme.start byte, before.symm, consLexeme_blank plain blank⟩
    | false => exact ⟨.sign lexeme.start byte, before.symm, consLexeme_sign plain ⟨apart, blank⟩⟩

-- The first token of what is left of a text is what the scan takes in one turn.
theorem ofLexemes_turn (rawBackslash : Bool) (context : Context) (start : Nat)
    (present : rest ≠ []) : ∃ token, token.cursor = ⟨context, start⟩ ∧
      ofLexemes (Lexeme.ofTextFrom rawBackslash context start rest) = token ::
        ofLexemes (Lexeme.ofTextFrom rawBackslash (pace rawBackslash context rest).after
          (start + (pace rawBackslash context rest).length)
          (rest.drop (pace rawBackslash context rest).length)) ∧
      Lexeme.endContext context (Lexeme.ofTextFrom rawBackslash context start rest) =
        Lexeme.endContext (pace rawBackslash context rest).after
          (Lexeme.ofTextFrom rawBackslash (pace rawBackslash context rest).after
            (start + (pace rawBackslash context rest).length)
            (rest.drop (pace rawBackslash context rest).length)) := by
  by_cases word : context = .plain ∧ (Lexer.step rawBackslash context rest).after = .plain ∧
      rest.head?.any Ascii.isWord = true
  · rw [pace_word word]
    obtain ⟨rfl, _, first⟩ := word
    have parts := List.takeWhile_append_dropWhile (p := Ascii.isWord) (l := rest)
    have words : ∀ byte ∈ rest.takeWhile Ascii.isWord, Ascii.isWord byte = true :=
      List.all_eq_true.mp List.all_takeWhile
    have filled : rest.takeWhile Ascii.isWord ≠ [] := by
      obtain ⟨byte, rest, rfl⟩ := List.exists_cons_of_ne_nil present
      have isWord : Ascii.isWord byte = true := first
      simp [isWord]
    have apart : (rest.dropWhile Ascii.isWord).head?.any Ascii.isWord = false := by
      have stopped := List.head?_dropWhile_not Ascii.isWord rest
      cases found : (rest.dropWhile Ascii.isWord).head? with
      | none => rfl
      | some byte => simpa [found] using stopped
    have behind : rest.drop rest.wordLength = rest.dropWhile Ascii.isWord := by
      have cut := @List.drop_left _ (rest.takeWhile Ascii.isWord) (rest.dropWhile Ascii.isWord)
      rwa [parts] at cut
    obtain ⟨made, ends⟩ := reads_word filled words start apart
    rw [parts] at made ends
    rw [behind]
    exact ⟨_, rfl, made, ends⟩
  · rw [pace_step word, Lexeme.ofTextFrom_step present]
    have other : Lexeme.isWordByte ⟨start, context, (Lexer.step rawBackslash context rest).after,
        rest.take (Lexer.step rawBackslash context rest).length⟩ = false := by
      apply Bool.eq_false_iff.mpr
      intro isWord
      obtain ⟨byte, plain, _⟩ := Lexeme.isWordByte_parts isWord
      obtain ⟨rfl, after⟩ := Lexeme.plainByte?_contexts plain
      have starts := Lexeme.startsWord_ofTextFrom rawBackslash start rest
      rw [Lexeme.ofTextFrom_step present] at starts
      exact word ⟨rfl, after, starts.symm.trans isWord⟩
    obtain ⟨token, here, makes⟩ := consLexeme_cursor other
    exact ⟨token, here, makes _, rfl⟩

-- The tokens of a text are the turns of the scan.
theorem records (rawBackslash : Bool) :
    Records (pace rawBackslash)
      (fun context position rest =>
        (ofLexemes (Lexeme.ofTextFrom rawBackslash context position rest)).map cursor)
      (fun context position rest =>
        Lexeme.endContext context (Lexeme.ofTextFrom rawBackslash context position rest)) where
  passed_nil _ _ := by simp [ofLexemes]
  final_nil _ _ := by simp
  passed_turn context position rest present := by
    obtain ⟨token, here, made, _⟩ := ofLexemes_turn rawBackslash context position present
    rw [made, List.map_cons, here]
  final_turn context position rest present := by
    obtain ⟨_, _, _, ends⟩ := ofLexemes_turn rawBackslash context position present
    exact ends

end Token

namespace Script
variable {rawBackslash : Bool} {start : Nat} {text : Bytes} {found : List (List Lexeme)}
  {piece : Piece} {group : List Lexeme}

-- The groups of a script and the semicolons between them are all of it.
theorem Cuts.join (cuts : Cuts rawBackslash start text found) :
    Bytes.join [Ascii.semicolon] (found.map (·.flatMap Lexeme.text)) = text := by
  induction cuts with
  | last =>
    rw [List.map_singleton, Lexeme.flatMap_text, Bytes.join_cons, List.flatMap_nil,
      List.append_nil]
  | @next start left right later _ _ behind ih =>
    obtain ⟨group, rest, rfl⟩ : ∃ group rest, later = group :: rest := by
      cases behind <;> exact ⟨_, _, rfl⟩
    rw [List.map_cons, Bytes.join_cons] at ih
    rw [List.map_cons, Lexeme.flatMap_text, Bytes.join_cons, List.map_cons, List.flatMap_cons,
      List.append_assoc, ih]
    rfl

theorem pieceOf?_bounds (made : pieceOf? start line group = some piece) :
    start ≤ piece.offset ∧
      piece.offset + piece.text.length ≤ start + (group.flatMap Lexeme.text).length := by
  unfold pieceOf? at made
  split at made
  · cases made
    obtain ⟨lead, whole, _⟩ := Text.trimStart_parts (group.flatMap Lexeme.text)
    obtain ⟨trail, inner, _⟩ := Text.trimEnd_parts (Text.trimStart (group.flatMap Lexeme.text))
    have front := congrArg List.length whole
    have back := congrArg List.length inner
    rw [List.length_append] at front back
    refine ⟨Nat.le_add_right _ _, ?_⟩
    simp only
    omega
  · cases made

-- The pieces stand in their script, one behind the other.
structure Spread (start stop : Nat) (pieces : List Piece) : Prop where
  within : ∀ piece ∈ pieces, start ≤ piece.offset ∧ piece.offset + piece.text.length ≤ stop
  ordered : pieces.Pairwise fun piece next => piece.offset + piece.text.length ≤ next.offset

theorem Cuts.spread (cuts : Cuts rawBackslash start text found) (line : Nat) :
    Spread start (start + text.length) (piecesFrom start line found) := by
  have first : ∀ {start line : Nat} {part : Bytes}, ∀ piece ∈ (pieceOf? start line
      (Lexeme.ofTextFrom rawBackslash .plain start part)).toList,
      start ≤ piece.offset ∧ piece.offset + piece.text.length ≤ start + part.length := by
    intro start line part piece member
    have bounds := pieceOf?_bounds (Option.mem_toList.mp member)
    rwa [Lexeme.flatMap_text] at bounds
  induction cuts generalizing line with
  | last =>
    rw [piecesFrom_cons, piecesFrom, List.append_nil]
    refine ⟨first, ?_⟩
    cases pieceOf? _ line _ <;> simp
  | @next start left right later _ _ _ ih =>
    rw [piecesFrom_cons, Lexeme.flatMap_text]
    obtain ⟨within, ordered⟩ := ih (line + left.count Ascii.newline)
    have whole : start + (left ++ Ascii.semicolon :: right).length =
        start + left.length + 1 + right.length := by
      simp only [List.length_append, List.length_cons]
      omega
    refine ⟨?_, List.pairwise_append.mpr ⟨?_, ordered, ?_⟩⟩
    · intro piece member
      rcases List.mem_append.mp member with here | behind
      · have bounds := first piece here
        omega
      · have bounds := within piece behind
        omega
    · cases pieceOf? _ line _ <;> simp
    · intro piece here next behind
      have bounds := first piece here
      have later := within next behind
      omega

theorem split_spread (rawBackslash : Bool) (script : Bytes) :
    Spread 0 script.length (split rawBackslash script) := by
  have spread := (groups_cuts rawBackslash 0 script).spread 1
  rwa [Nat.zero_add] at spread

end Script

open Lexer (Scan FirstClosed ClosedAt)

-- Any bytes are read out, whatever they are: each step takes some of them and no more than
-- there are, a block comment ends with its first closer, and each loop over a text comes to
-- its end exactly.
structure ReadsOut (rawBackslash : Bool) (text : Bytes) : Prop where
  steps : ∀ context position, position < text.length →
    1 ≤ (Lexer.step rawBackslash context (text.drop position)).length ∧
      (Lexer.step rawBackslash context (text.drop position)).length ≤ text.length - position
  closed : ∀ stop, Lexer.pastBlockEnd? text = some stop ↔
    ∃ place, stop = place + 2 ∧ FirstClosed text place
  within : ∀ stop, Lexer.pastBlockEnd? text = some stop → stop ≤ text.length
  unclosed : Lexer.pastBlockEnd? text = none ↔ ∀ place, ¬ClosedAt text place
  lexemes : ∀ passed last, Scan (Lexer.step rawBackslash) text ⟨.plain, 0⟩ passed last ↔
    passed = (Lexeme.ofText rawBackslash text).map Lexeme.cursor ∧
      last = ⟨finalContext rawBackslash text, text.length⟩
  tokens : ∀ passed last, Scan (Token.pace rawBackslash) text ⟨.plain, 0⟩ passed last ↔
    passed = (Token.ofText rawBackslash text).map Token.cursor ∧
      last = ⟨finalContext rawBackslash text, text.length⟩
  groups : Bytes.join [Ascii.semicolon]
    ((Script.groups (Lexeme.ofText rawBackslash text)).map (·.flatMap Lexeme.text)) = text
  pieces : ∀ piece ∈ Script.split rawBackslash text,
    piece.offset + piece.text.length ≤ text.length

theorem reads_out (rawBackslash : Bool) (text : Bytes) : ReadsOut rawBackslash text where
  steps context position inside := by
    have present : text.drop position ≠ [] := by
      rw [← List.length_pos_iff, List.length_drop]
      omega
    have kept := Lexer.step_keeps rawBackslash context _ present
    rwa [List.length_drop] at kept
  closed _ := Lexer.pastBlockEnd?_eq_some
  within _ := Lexer.pastBlockEnd?_le
  unclosed := Lexer.pastBlockEnd?_eq_none
  lexemes _ _ :=
    (Lexeme.records rawBackslash).scan_iff (Lexer.step_keeps rawBackslash) (Nat.zero_le _)
  tokens _ _ :=
    (Token.records rawBackslash).scan_iff (Token.pace_keeps rawBackslash) (Nat.zero_le _)
  groups := (Script.groups_cuts rawBackslash 0 text).join
  pieces piece member := ((Script.split_spread rawBackslash text).within piece member).2

end InsertBatch
