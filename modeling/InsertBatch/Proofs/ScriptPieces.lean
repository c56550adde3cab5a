import InsertBatch.Proofs.Outline

namespace InsertBatch.Script
variable {rawBackslash : Bool} {lexeme : Lexeme} {lexemes front back : List Lexeme}

theorem groups_ne_nil (lexemes : List Lexeme) : groups lexemes ≠ [] := by
  cases lexemes with
  | nil => exact List.cons_ne_nil _ _
  | cons lexeme rest =>
    simp only [groups, List.foldr_cons]
    split
    · split <;> exact List.cons_ne_nil _ _
    · exact List.cons_ne_nil _ _

theorem groups_separator (separates : isSeparator lexeme = true) (rest : List Lexeme) :
    groups (lexeme :: rest) = [] :: groups rest := by
  obtain ⟨group, more, found⟩ := List.exists_cons_of_ne_nil (groups_ne_nil rest)
  simp only [groups, List.foldr_cons] at found ⊢
  simp [found, separates]

theorem groups_other (inside : isSeparator lexeme = false) (found : groups rest = group :: more) :
    groups (lexeme :: rest) = (lexeme :: group) :: more := by
  simp only [groups, List.foldr_cons] at found ⊢
  simp [found, inside]

theorem groups_whole (whole : ∀ lexeme ∈ lexemes, isSeparator lexeme = false) :
    groups lexemes = [lexemes] := by
  induction lexemes with
  | nil => rfl
  | cons lexeme rest ih =>
    obtain ⟨inside, whole⟩ := List.forall_mem_cons.mp whole
    exact groups_other inside (ih whole)

theorem groups_first (whole : ∀ lexeme ∈ front, isSeparator lexeme = false)
    (separates : isSeparator lexeme = true) :
    groups (front ++ lexeme :: back) = front :: groups back := by
  induction front with
  | nil => exact groups_separator separates back
  | cons first front ih =>
    obtain ⟨inside, whole⟩ := List.forall_mem_cons.mp whole
    exact groups_other inside (ih whole)

theorem mem_groups (member : group ∈ groups lexemes) (inside : lexeme ∈ group) :
    lexeme ∈ lexemes := by
  induction lexemes generalizing group with
  | nil =>
    rw [List.mem_singleton.mp member] at inside
    exact inside
  | cons first rest ih =>
    by_cases separates : isSeparator first = true
    · rw [groups_separator separates] at member
      rcases List.mem_cons.mp member with rfl | later
      · cases inside
      · exact List.mem_cons_of_mem _ (ih later inside)
    · obtain ⟨group, more, found⟩ := List.exists_cons_of_ne_nil (groups_ne_nil rest)
      rw [groups_other (by simpa using separates) found] at member
      rw [found] at ih
      rcases List.mem_cons.mp member with rfl | later
      · rcases List.mem_cons.mp inside with rfl | behind
        · exact List.mem_cons_self
        · exact List.mem_cons_of_mem _ (ih List.mem_cons_self behind)
      · exact List.mem_cons_of_mem _ (ih (List.mem_cons_of_mem _ later) inside)

-- The text of a statement: what its lexemes take, without blanks around it.
def bodyOf (group : List Lexeme) : Bytes :=
  Text.trimEnd (Text.trimStart (group.flatMap Lexeme.text))

theorem piecesFrom_texts (start line : Nat) (groups : List (List Lexeme)) :
    (piecesFrom start line groups).map Piece.text =
      (groups.filter (·.any isContent)).map bodyOf := by
  induction groups generalizing start line with
  | nil => rfl
  | cons group rest ih =>
    unfold piecesFrom pieceOf?
    cases content : group.any isContent with
    | false => simp [content, ih]
    | true => simp [content, ih, bodyOf]

theorem split_texts (rawBackslash : Bool) (script : Bytes) :
    (split rawBackslash script).map Piece.text =
      ((groups (Lexeme.ofText rawBackslash script)).filter (·.any isContent)).map bodyOf :=
  piecesFrom_texts 0 1 _

theorem contentless_groups (empty : (Outline.ofLexemes lexemes).content = false) :
    (groups lexemes).filter (·.any isContent) = [] := by
  rw [Outline.content_any, List.any_eq_false] at empty
  refine List.filter_eq_nil_iff.mpr ?_
  intro group member content
  obtain ⟨lexeme, inside, found⟩ := List.any_eq_true.mp content
  exact empty lexeme (mem_groups member inside) found

theorem content_of_split (present : split rawBackslash script ≠ []) :
    (Outline.ofText rawBackslash script).content = true := by
  cases content : (Outline.ofText rawBackslash script).content with
  | true => rfl
  | false =>
    have texts := split_texts rawBackslash script
    rw [contentless_groups content, List.map_nil, List.map_eq_nil_iff] at texts
    exact absurd texts present

theorem unseparated (whole : (Outline.ofLexemes lexemes).separates = false) :
    ∀ lexeme ∈ lexemes, isSeparator lexeme = false := by
  rw [Outline.separates_any, List.any_eq_false] at whole
  intro lexeme member
  exact Bool.eq_false_iff.mpr (whole lexeme member)

-- Content before the first semicolon and none behind it makes one statement.
theorem lone_group (whole : (Outline.ofLexemes front).separates = false)
    (content : (Outline.ofLexemes front).content = true)
    (quiet : (Outline.ofLexemes (front ++ back)).continues = false) :
    ((groups (front ++ back)).filter (·.any isContent)).length = 1 := by
  rw [Outline.content_any] at content
  cases found : back.find? isSeparator with
  | none =>
    have clear : ∀ lexeme ∈ front ++ back, isSeparator lexeme = false := by
      intro lexeme member
      rcases List.mem_append.mp member with before | behind
      · exact unseparated whole lexeme before
      · simpa using List.find?_eq_none.mp found lexeme behind
    rw [groups_whole clear]
    simp [content]
  | some separator =>
    obtain ⟨separates, clear, behind, rfl, none⟩ := List.find?_eq_some_iff_append.mp found
    have before : ∀ lexeme ∈ front ++ clear, isSeparator lexeme = false := by
      intro lexeme member
      rcases List.mem_append.mp member with before | behind
      · exact unseparated whole lexeme before
      · simpa using none lexeme behind
    have empty : (Outline.ofLexemes behind).content = false := by
      rw [← List.append_assoc, Outline.ofLexemes_append, Outline.ofLexemes_cons] at quiet
      simp only [Outline.andThen, Outline.ofLexeme, separates, Bool.or_eq_false_iff,
        Bool.true_and, Bool.false_or] at quiet
      exact quiet.2.1
    rw [← List.append_assoc, groups_first before separates]
    simp [content, contentless_groups empty]

theorem lone_piece {left right : Bytes} (ends : finalContext rawBackslash left = .plain)
    (seam : Lexer.Seam left right) (whole : (Outline.ofText rawBackslash left).separates = false)
    (content : (Outline.ofText rawBackslash left).content = true)
    (quiet : (Outline.ofText rawBackslash (left ++ right)).continues = false) :
    (split rawBackslash (left ++ right)).length = 1 := by
  rw [Outline.ofText, Lexeme.ofText, Lexeme.ofTextFrom_append ends seam] at quiet
  have texts := congrArg List.length (split_texts rawBackslash (left ++ right))
  rw [Lexeme.ofText, Lexeme.ofTextFrom_append ends seam, List.length_map, List.length_map] at texts
  rw [texts]
  exact lone_group whole content quiet

end InsertBatch.Script
