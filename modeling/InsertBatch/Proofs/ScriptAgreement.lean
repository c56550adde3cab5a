import InsertBatch.Proofs.Places
import InsertBatch.Proofs.ScriptPieces

namespace InsertBatch

namespace Text

-- The bytes that trimming may take away.
def trimmed : Bytes := encodedBlanks.flatten

theorem dropUnits_parts (units : List Bytes) (bytes : Bytes) :
    ∃ front, bytes = front ++ dropUnits units bytes ∧ ∀ byte ∈ front, byte ∈ units.flatten := by
  fun_induction dropUnits units bytes with
  | case1 bytes missing => exact ⟨[], rfl, by simp⟩
  | case2 bytes unit found present ih =>
    obtain ⟨front, split, inside⟩ := ih
    have leads : unit <+: bytes := by
      simpa using List.find?_some found
    obtain ⟨rest, rfl⟩ := leads
    rw [List.drop_left] at split ⊢
    refine ⟨unit ++ front, ?_, ?_⟩
    · rw [List.append_assoc, ← split]
    · intro byte member
      cases List.mem_append.mp member with
      | inl first => exact List.mem_flatten.mpr ⟨unit, List.mem_of_find?_eq_some found, first⟩
      | inr later => exact inside byte later
  | case3 bytes unit found done => exact ⟨[], rfl, by simp⟩

theorem trimStart_parts (bytes : Bytes) :
    ∃ lead, bytes = lead ++ trimStart bytes ∧ ∀ byte ∈ lead, byte ∈ trimmed :=
  dropUnits_parts encodedBlanks bytes

theorem trimEnd_parts (bytes : Bytes) :
    ∃ trail, bytes = trimEnd bytes ++ trail ∧ ∀ byte ∈ trail, byte ∈ trimmed := by
  obtain ⟨front, split, inside⟩ :=
    dropUnits_parts (encodedBlanks.map List.reverse) bytes.reverse
  refine ⟨front.reverse, ?_, ?_⟩
  · rw [trimEnd, ← List.reverse_append, ← split, List.reverse_reverse]
  · intro byte member
    obtain ⟨unit, listed, found⟩ := List.mem_flatten.mp (inside byte (List.mem_reverse.mp member))
    obtain ⟨original, blank, rfl⟩ := List.mem_map.mp listed
    exact List.mem_flatten.mpr ⟨original, blank, List.mem_reverse.mp found⟩

-- No byte of a blank character opens or separates anything, also where the character has
-- several bytes and only its first is seen.
theorem trimmed_inert : ∀ byte ∈ trimmed,
    Lexer.Inert byte ∧ byte ≠ Ascii.question ∧ byte ≠ Ascii.semicolon := by
  decide +kernel

theorem unblank_of_untrimmed {byte : UInt8} (absent : byte ∉ trimmed) :
    Ascii.isBlank byte = false := by
  apply Bool.eq_false_iff.mpr
  intro blank
  apply absent
  simp only [Ascii.isBlank, Bool.or_eq_true, beq_iff_eq] at blank
  rcases blank with (((rfl | rfl) | rfl) | rfl) | rfl <;> decide

end Text

namespace Lexeme
variable {rawBackslash : Bool} {context : Context} {start position : Nat}
  {rest text lead trail : Bytes} {byte : UInt8} {lexeme : Lexeme} {lexemes : List Lexeme}

theorem placesOf_lead (inert : ∀ other ∈ lead, Lexer.Inert other) (absent : byte ∉ lead) :
    placesOf byte (ofTextFrom rawBackslash .plain start (lead ++ rest)) =
      placesOf byte (ofTextFrom rawBackslash .plain (start + lead.length) rest) := by
  induction lead generalizing start with
  | nil => rfl
  | cons first lead ih =>
    rw [List.mem_cons, not_or] at absent
    obtain ⟨other, absent⟩ := absent
    obtain ⟨here, inert⟩ := List.forall_mem_cons.mp inert
    have behind := @ih (start + 1) inert absent
    rw [List.cons_append, ofTextFrom_inert here, List.length_cons, Nat.add_comm lead.length,
      ← Nat.add_assoc, ← behind]
    apply placesOf_quiet
    intro same
    exact other (Option.some.inj same).symm

-- The steps that start in plain text.
def plainSteps (lexemes : List Lexeme) : List Lexeme := lexemes.filter (·.before.isPlain)

-- What is put behind a text may change how its last lexeme ends, but no step before that.
theorem plainSteps_trail (rawBackslash : Bool) (context : Context) (start : Nat) (text : Bytes)
    (inert : ∀ other ∈ trail, Lexer.Inert other) :
    ∃ later, plainSteps (ofTextFrom rawBackslash context start (text ++ trail)) =
        plainSteps (ofTextFrom rawBackslash context start text) ++ later ∧
      ∀ lexeme ∈ later, start + text.length ≤ lexeme.start := by
  have seam : ∀ left, Lexer.Seam left trail := by
    intro left
    cases trail with
    | nil => simp [Lexer.Seam]
    | cons first trail => exact (inert first List.mem_cons_self).seam_before left trail
  fun_induction ofTextFrom rawBackslash context start text with
  | case1 context start =>
    refine ⟨_, rfl, ?_⟩
    intro lexeme member
    exact (start_bounds (List.mem_filter.mp member).1).1
  | case2 context start text present step ih =>
    have nonempty : text ++ trail ≠ [] := by simp [present]
    have bound : step.length ≤ text.length := Lexer.step_length_le rawBackslash context present
    by_cases leaves : context = .plain ∨ step.after ≠ context
    · obtain ⟨later, same, behind⟩ := ih
      refine ⟨later, ?_, ?_⟩
      · rw [ofTextFrom_step nonempty, Lexer.step_append present (seam text) leaves,
          List.take_append_of_le_length bound, List.drop_append_of_le_length bound]
        unfold plainSteps at same ⊢
        rw [List.filter_cons, List.filter_cons, same]
        split <;> rfl
      · intro lexeme member
        have place := behind lexeme member
        rw [List.length_drop] at place
        omega
    · -- The step takes all of the text, and at least as much of the longer one.
      obtain ⟨inside, same⟩ := not_or.mp leaves
      have all := Lexer.step_open inside (Classical.not_not.mp same)
      have covers : text.length ≤ (Lexer.step rawBackslash context (text ++ trail)).length := by
        apply Nat.le_of_not_lt
        intro shorter
        rw [← Lexer.step_of_append present (Nat.le_of_lt shorter), all] at shorter
        exact Nat.lt_irrefl _ shorter
      have silent : context.isPlain = false := by
        cases context <;> first | rfl | exact absurd rfl inside
      have skip : ∀ start after taken later,
          plainSteps (⟨start, context, after, taken⟩ :: later) = plainSteps later := by
        intro start after taken later
        exact List.filter_cons_of_neg (by simp [silent])
      rw [ofTextFrom_step nonempty, skip, skip, all, List.drop_length, ofTextFrom_nil]
      refine ⟨_, rfl, ?_⟩
      intro lexeme member
      have place := (start_bounds (List.mem_filter.mp member).1).1
      omega

theorem placesOf_plainSteps (byte : UInt8) (lexemes : List Lexeme) :
    placesOf byte (plainSteps lexemes) = placesOf byte lexemes := by
  induction lexemes with
  | nil => rfl
  | cons lexeme lexemes ih =>
    unfold placesOf plainSteps at ih ⊢
    rw [List.filter_cons]
    split
    · rw [List.filterMap_cons, List.filterMap_cons, ih]
    · rename_i inside
      have silent : place? byte lexeme = none := by
        apply if_neg
        intro plain
        rw [(plainByte?_contexts plain).1] at inside
        exact inside rfl
      rw [ih, List.filterMap_cons_none silent]

theorem placesOf_trail (inert : ∀ other ∈ trail, Lexer.Inert other) (absent : byte ∉ trail) :
    placesOf byte (ofTextFrom rawBackslash context start (text ++ trail)) =
      placesOf byte (ofTextFrom rawBackslash context start text) := by
  obtain ⟨later, same, behind⟩ := plainSteps_trail rawBackslash context start text inert
  have none : placesOf byte later = [] := by
    apply List.eq_nil_iff_forall_not_mem.mpr
    intro position found
    obtain ⟨lexeme, member, rfl, plain⟩ := mem_placesOf.mp found
    have listed : lexeme ∈ plainSteps (ofTextFrom rawBackslash context start (text ++ trail)) := by
      rw [same]
      exact List.mem_append_right _ member
    obtain ⟨earlier, rest, run⟩ := List.append_of_mem (List.mem_filter.mp listed).1
    obtain ⟨left, right, split, _, _, rfl, _⟩ := split_plain run plain
    have place : start + text.length ≤ start + left.length := behind _ member
    rcases List.append_eq_append_iff.mp split with ⟨more, rfl, rest⟩ | ⟨more, rfl, rest⟩
    · exact absent (by simp [rest])
    · rw [List.length_append] at place
      obtain rfl : more = [] := List.eq_nil_of_length_eq_zero (by omega)
      rw [List.nil_append] at rest
      exact absent (by simp [← rest])
  rw [← placesOf_plainSteps, same, placesOf_append, placesOf_plainSteps, none, List.append_nil]

-- Trimming a text moves its places and loses none of them.
theorem placesOf_trim (absent : byte ∉ Text.trimmed) (start : Nat) (text : Bytes) :
    placesOf byte (ofTextFrom rawBackslash .plain start text) =
      (placesOf byte (ofText rawBackslash (Text.trimEnd (Text.trimStart text)))).map
        (· + (start + (text.length - (Text.trimStart text).length))) := by
  obtain ⟨lead, front, before⟩ := Text.trimStart_parts text
  obtain ⟨trail, back, behind⟩ := Text.trimEnd_parts (Text.trimStart text)
  generalize Text.trimStart text = body at front back ⊢
  generalize Text.trimEnd body = inner at back ⊢
  subst back
  subst front
  have inertLead : ∀ other ∈ lead, Lexer.Inert other := by
    intro other member
    exact (Text.trimmed_inert other (before other member)).1
  have inertTrail : ∀ other ∈ trail, Lexer.Inert other := by
    intro other member
    exact (Text.trimmed_inert other (behind other member)).1
  rw [placesOf_lead inertLead fun member => absent (before byte member),
    placesOf_trail inertTrail fun member => absent (behind byte member),
    placesOf_start, List.length_append, Nat.add_sub_cancel]
  rfl

end Lexeme

namespace Script

-- The groups of a run that starts plain: each is the run of its own text, from the place where
-- it starts, and a semicolon stands between two of them.
inductive Cuts (rawBackslash : Bool) : Nat → Bytes → List (List Lexeme) → Prop where
  | last (whole : ∀ lexeme ∈ Lexeme.ofTextFrom rawBackslash .plain start text,
        isSeparator lexeme = false) :
      Cuts rawBackslash start text [Lexeme.ofTextFrom rawBackslash .plain start text]
  | next (whole : ∀ lexeme ∈ Lexeme.ofTextFrom rawBackslash .plain start left,
        isSeparator lexeme = false)
      (ends : Lexeme.endContext .plain (Lexeme.ofTextFrom rawBackslash .plain start left) = .plain)
      (behind : Cuts rawBackslash (start + left.length + 1) right later) :
      Cuts rawBackslash start (left ++ Ascii.semicolon :: right)
        (Lexeme.ofTextFrom rawBackslash .plain start left :: later)

variable {rawBackslash : Bool} {start : Nat} {text left : Bytes} {found : List (List Lexeme)}
  {byte : UInt8} {group : List Lexeme}

theorem semicolon_run (ends :
      Lexeme.endContext .plain (Lexeme.ofTextFrom rawBackslash .plain start left) = .plain)
    (right : Bytes) :
    Lexeme.ofTextFrom rawBackslash .plain start (left ++ Ascii.semicolon :: right) =
      Lexeme.ofTextFrom rawBackslash .plain start left ++
        ⟨start + left.length, .plain, .plain, [Ascii.semicolon]⟩ ::
          Lexeme.ofTextFrom rawBackslash .plain (start + left.length + 1) right := by
  have inert : Lexer.Inert Ascii.semicolon := by decide
  rw [Lexeme.ofTextFrom_append ends (inert.seam_before _ _), Lexeme.ofTextFrom_inert inert]

theorem groups_cuts (rawBackslash : Bool) (start : Nat) (text : Bytes) :
    Cuts rawBackslash start text (groups (Lexeme.ofTextFrom rawBackslash .plain start text)) := by
  -- What follows the first separator is a shorter text.
  induction count : text.length using Nat.strongRecOn generalizing start text with
  | _ count ih =>
    cases first : (Lexeme.ofTextFrom rawBackslash .plain start text).find? isSeparator with
    | none =>
      have whole : ∀ lexeme ∈ Lexeme.ofTextFrom rawBackslash .plain start text,
          isSeparator lexeme = false := by
        intro lexeme member
        simpa using List.find?_eq_none.mp first lexeme member
      rw [groups_whole whole]
      exact .last whole
    | some separator =>
      obtain ⟨separates, front, back, split, quiet⟩ := List.find?_eq_some_iff_append.mp first
      obtain ⟨left, right, rfl, rfl, ends, _, rfl⟩ :=
        Lexeme.split_plain split (beq_iff_eq.mp separates)
      have whole : ∀ lexeme ∈ Lexeme.ofTextFrom rawBackslash .plain start left,
          isSeparator lexeme = false := by
        intro lexeme member
        simpa using quiet lexeme member
      rw [split, groups_first whole separates]
      refine .next whole ends (ih right.length ?_ _ right rfl)
      rw [← count, List.length_append, List.length_cons]
      omega

theorem Cuts.run_of_mem (cuts : Cuts rawBackslash start text found) (member : group ∈ found) :
    ∃ place part, group = Lexeme.ofTextFrom rawBackslash .plain place part ∧
      ∀ lexeme ∈ group, isSeparator lexeme = false := by
  induction cuts with
  | last whole =>
    cases List.mem_singleton.mp member
    exact ⟨_, _, rfl, whole⟩
  | next whole _ _ ih =>
    cases List.mem_cons.mp member with
    | inl here =>
      cases here
      exact ⟨_, _, rfl, whole⟩
    | inr later => exact ih later

theorem Cuts.content (cuts : Cuts rawBackslash start text found)
    (present : found.filter (·.any isContent) ≠ []) :
    (Outline.ofLexemes (Lexeme.ofTextFrom rawBackslash .plain start text)).content = true := by
  induction cuts with
  | last =>
    rw [Outline.content_any]
    exact Classical.byContradiction fun none => present (by simp [none])
  | @next start left right later _ ends _ ih =>
    rw [semicolon_run ends, Outline.ofLexemes_append]
    exact Bool.or_eq_true_iff.mpr (.inr rfl)

-- Two groups with content have a semicolon between them.
theorem Cuts.continues (cuts : Cuts rawBackslash start text found)
    (several : 2 ≤ (found.filter (·.any isContent)).length) :
    (Outline.ofLexemes (Lexeme.ofTextFrom rawBackslash .plain start text)).continues = true := by
  cases cuts with
  | last =>
    have single := List.length_filter_le (·.any isContent)
      [Lexeme.ofTextFrom rawBackslash .plain start text]
    rw [List.length_singleton] at single
    omega
  | next _ ends behind =>
    have content := behind.content (fun none => by
      rw [List.filter_cons, none] at several
      split at several <;> simp at several)
    rw [semicolon_run ends, Outline.ofLexemes_append, Outline.ofLexemes_cons]
    simp [Outline.andThen, Outline.ofLexeme, isSeparator, Lexeme.plainByte?, content]

theorem piecesFrom_cons (start line : Nat) (group : List Lexeme) (rest : List (List Lexeme)) :
    piecesFrom start line (group :: rest) = (pieceOf? start line group).toList ++
      piecesFrom (start + (group.flatMap Lexeme.text).length + 1)
        (line + (group.flatMap Lexeme.text).count Ascii.newline) rest := by
  rw [piecesFrom]
  cases pieceOf? start line group <;> rfl

-- Where the byte stands in the texts of the pieces, counted from the start of the script.
def piecePlaces (rawBackslash : Bool) (byte : UInt8) (pieces : List Piece) : List Nat :=
  pieces.flatMap fun piece =>
    (Lexeme.placesOf byte (Lexeme.ofText rawBackslash piece.text)).map (· + piece.offset)

-- A piece has the places of its group, and a group without content has none but blanks.
theorem pieceOf?_places (absent : byte ∉ Text.trimmed) (start line : Nat) (text : Bytes) :
    piecePlaces rawBackslash byte
        (pieceOf? start line (Lexeme.ofTextFrom rawBackslash .plain start text)).toList =
      Lexeme.placesOf byte (Lexeme.ofTextFrom rawBackslash .plain start text) := by
  unfold pieceOf?
  cases content : (Lexeme.ofTextFrom rawBackslash .plain start text).any isContent with
  | true =>
    rw [Lexeme.placesOf_trim absent start text]
    simp [piecePlaces, Lexeme.flatMap_text]
  | false =>
    apply Eq.symm
    apply List.eq_nil_iff_forall_not_mem.mpr
    intro position member
    obtain ⟨lexeme, inside, _, plain⟩ := Lexeme.mem_placesOf.mp member
    apply List.any_eq_false.mp content lexeme inside
    simp [isContent, plain, Text.unblank_of_untrimmed absent]

-- The pieces of a text have all its places, each moved by the offset of its piece.
theorem Cuts.places (absent : byte ∉ Text.trimmed) (other : byte ≠ Ascii.semicolon)
    (cuts : Cuts rawBackslash start text found) (line : Nat) :
    piecePlaces rawBackslash byte (piecesFrom start line found) =
      Lexeme.placesOf byte (Lexeme.ofTextFrom rawBackslash .plain start text) := by
  induction cuts generalizing line with
  | @last start text whole =>
    rw [piecesFrom_cons, piecesFrom, List.append_nil]
    exact pieceOf?_places absent start line text
  | @next start left right later whole ends behind ih =>
    have separator : ∀ later, Lexeme.placesOf byte
        (⟨start + left.length, .plain, .plain, [Ascii.semicolon]⟩ :: later) =
          Lexeme.placesOf byte later := by
      apply Lexeme.placesOf_quiet
      intro same
      exact other (Option.some.inj same).symm
    rw [semicolon_run ends, Lexeme.placesOf_append, separator, ← ih,
      ← pieceOf?_places absent start line left, piecesFrom_cons, Lexeme.flatMap_text]
    exact List.flatMap_append

theorem split_length (rawBackslash : Bool) (script : Bytes) :
    (split rawBackslash script).length =
      ((groups (Lexeme.ofText rawBackslash script)).filter (·.any isContent)).length := by
  rw [← List.length_map Piece.text, split_texts, List.length_map]

theorem placesOf_whole {lexemes : List Lexeme}
    (whole : ∀ lexeme ∈ lexemes, isSeparator lexeme = false) :
    Lexeme.placesOf Ascii.semicolon lexemes = [] := by
  apply List.eq_nil_iff_forall_not_mem.mpr
  intro position found
  obtain ⟨lexeme, inside, _, plain⟩ := Lexeme.mem_placesOf.mp found
  have separates := whole lexeme inside
  rw [isSeparator, plain] at separates
  cases separates

-- A text that a script is split into has no separator of its own.
theorem mem_split_whole {piece : Piece} (member : piece ∈ split rawBackslash text) :
    Lexeme.placesOf Ascii.semicolon (Lexeme.ofText rawBackslash piece.text) = [] := by
  have listed : piece.text ∈ (split rawBackslash text).map Piece.text :=
    List.mem_map_of_mem member
  rw [split_texts, List.mem_map] at listed
  obtain ⟨group, kept, same⟩ := listed
  obtain ⟨place, part, rfl, whole⟩ :=
    (groups_cuts rawBackslash 0 text).run_of_mem (List.mem_filter.mp kept).1
  have none := placesOf_whole whole
  rw [Lexeme.placesOf_trim (by decide), List.map_eq_nil_iff] at none
  rw [bodyOf, Lexeme.flatMap_text] at same
  rw [← same]
  exact none

-- A script and the statements it is split into are read alike: they have the same marks, no
-- statement goes on behind a semicolon, and a script of several statements does.
theorem split_agrees (rawBackslash : Bool) (script : Bytes) :
    ((split rawBackslash script).flatMap fun piece =>
        (Statement.analyze rawBackslash piece.text).marks.map (· + piece.offset)) =
      (Statement.analyze rawBackslash script).marks ∧
    (∀ piece ∈ split rawBackslash script,
      (∀ position, ¬Lexeme.PlainAt (Lexeme.ofText rawBackslash piece.text) position
        Ascii.semicolon) ∧
      (Statement.analyze rawBackslash piece.text).classification.hasSecondStatement = false) ∧
    (2 ≤ (split rawBackslash script).length →
      (Statement.analyze rawBackslash script).classification.hasSecondStatement = true ∧
        (Statement.analyze rawBackslash script).isMergeable = false) := by
  have cuts := groups_cuts rawBackslash 0 script
  refine ⟨?_, ?_, ?_⟩
  · simp only [Statement.analyze_marks]
    exact cuts.places (by decide) (by decide) 1
  · intro piece member
    have none := mem_split_whole member
    have clear : ∀ position, ¬Lexeme.PlainAt (Lexeme.ofText rawBackslash piece.text) position
        Ascii.semicolon := by
      intro position plain
      rw [← Lexeme.mem_placesOf, none] at plain
      cases plain
    refine ⟨clear, ?_⟩
    rw [Statement.hasSecondStatement_outline]
    exact Outline.continues_of_unseparated ((Lexeme.unseparated_iff _).mpr clear)
  · intro several
    rw [split_length] at several
    have second := cuts.continues several
    rw [← Lexeme.ofText, ← Outline.ofText, ← Statement.hasSecondStatement_outline] at second
    refine ⟨second, ?_⟩
    apply Bool.eq_false_iff.mpr
    intro mergeable
    obtain ⟨_, _, _, _, _, lone, _⟩ := (Classification.isMergeable_iff _).mp mergeable
    rw [second] at lone
    cases lone

theorem split_agrees_three :
    let script := Bytes.ofString
      "INSERT INTO t VALUES (?) ;\u00a0;-- ?;\n UPDATE t SET a = '; ?', b = ? /* ?"
    (split false script).length = 3 ∧ (Statement.analyze false script).marks = [22, 64] ∧
      ((split false script).flatMap fun piece =>
          (Statement.analyze false piece.text).marks.map (· + piece.offset)) =
        (Statement.analyze false script).marks ∧
      (Statement.analyze false script).classification.hasSecondStatement = true ∧
      (Statement.analyze false script).isMergeable = false :=
  ⟨by decide +kernel, by decide +kernel, (split_agrees false _).1,
    (split_agrees false _).2.2 (by decide +kernel)⟩

end Script
end InsertBatch
