import InsertBatch.Text.Fields

namespace InsertBatch.Text
variable {separator : Char} {chars field front back : List Char} {parts : List (List Char)}

theorem fields_cons {c : Char} {rest : List (List Char)}
    (known : fields separator chars = field :: rest) :
    fields separator (c :: chars) =
      if c = separator then [] :: field :: rest else (c :: field) :: rest := by
  unfold fields at known ⊢
  rw [List.foldr_cons, known]

theorem fields_splitOn (separator : Char) (chars : List Char) :
    fields separator chars = chars.splitOn separator := by
  induction chars with
  | nil => rfl
  | cons c chars ih =>
    obtain ⟨field, rest, known⟩ := List.exists_cons_of_ne_nil
      (List.splitOnP_ne_nil (· == separator) chars)
    rw [fields_cons (ih.trans known), List.splitOn, List.splitOnP_cons_eq_if_modifyHead, known]
    simp only [beq_iff_eq, List.modifyHead_cons]

theorem fields_ne_nil (separator : Char) (chars : List Char) : fields separator chars ≠ [] := by
  rw [fields_splitOn]
  exact List.splitOnP_ne_nil _ _

theorem fields_append (separator : Char) (front back : List Char) :
    fields separator (front ++ separator :: back) =
      fields separator front ++ fields separator back := by
  simp only [fields_splitOn]
  exact List.splitOnP_append_cons front back (beq_self_eq_true separator)

theorem fields_plain (plain : separator ∉ chars) : fields separator chars = [chars] := by
  rw [fields_splitOn]
  apply List.splitOnP_eq_singleton
  intro c member
  exact beq_eq_false_iff_ne.mpr fun same => plain (same ▸ member)

theorem join_fields (separator : Char) (chars : List Char) :
    [separator].intercalate (fields separator chars) = chars := by
  rw [fields_splitOn]
  exact List.intercalate_splitOn separator

theorem fields_join (plain : ∀ part ∈ parts, separator ∉ part) (present : parts ≠ []) :
    fields separator ([separator].intercalate parts) = parts := by
  rw [fields_splitOn]
  exact List.splitOn_intercalate separator plain present

-- A stretch without separators, with one of them or an end of the text on either side.
structure Between (separator : Char) (chars field : List Char) : Prop where
  plain : separator ∉ field
  placed : ∃ before after, chars = before ++ field ++ after ∧
    (before = [] ∨ ∃ front, before = front ++ [separator]) ∧
    (after = [] ∨ ∃ back, after = separator :: back)

theorem Between.behind (between : Between separator back field) :
    Between separator (front ++ separator :: back) field := by
  obtain ⟨plain, before, after, rfl, starts, ends⟩ := between
  refine ⟨plain, front ++ separator :: before, after, by simp, .inr ?_, ends⟩
  rcases starts with rfl | ⟨lead, rfl⟩
  · exact ⟨front, rfl⟩
  · exact ⟨front ++ separator :: lead, by simp⟩

theorem between_of_mem (member : field ∈ fields separator chars) :
    Between separator chars field := by
  -- The induction is on the length: the text is cut behind its first separator.
  induction length : chars.length using Nat.strongRecOn generalizing chars with
  | ind length ih =>
    subst length
    by_cases inside : separator ∈ chars
    · obtain ⟨front, back, rfl, plain⟩ := List.eq_append_cons_of_mem inside
      rw [fields_append, fields_plain plain] at member
      rcases List.mem_cons.mp member with rfl | later
      · exact ⟨plain, [], separator :: back, rfl, .inl rfl, .inr ⟨back, rfl⟩⟩
      · exact (ih back.length (by simp; omega) later rfl).behind
    · rw [fields_plain inside, List.mem_singleton] at member
      subst member
      exact ⟨inside, [], [], by simp, .inl rfl, .inl rfl⟩

theorem mem_of_between (between : Between separator chars field) :
    field ∈ fields separator chars := by
  obtain ⟨plain, before, after, rfl, starts, ends⟩ := between
  rcases starts with rfl | ⟨front, rfl⟩ <;> rcases ends with rfl | ⟨back, rfl⟩ <;>
    simp [fields_append, fields_plain plain]

theorem mem_fields : field ∈ fields separator chars ↔ Between separator chars field :=
  ⟨between_of_mem, mem_of_between⟩

end InsertBatch.Text
