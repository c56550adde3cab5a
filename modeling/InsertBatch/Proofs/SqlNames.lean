import InsertBatch.Proofs.Fields
import InsertBatch.Proofs.LetterCase
import InsertBatch.Selection

namespace InsertBatch

namespace Text
variable {c letter : Char} {word : List Char}

-- The letters of the extensions that count as SQL.
def letters : List Char := ['d', 'l', 'm', 'q', 's']

-- Outside ASCII nothing is a capital of one of them.
theorem rows_apart : lowercaseRows.all fun (first, last, step, added) =>
    (first, last, step, added) == (0x41, 0x5a, 1, 32) || letters.all fun letter =>
      decide ((letter.toNat : Int) < first + added ∨ last + added < (letter.toNat : Int)) := by
  decide +kernel

theorem letters_lower (listed : letter ∈ letters) :
    letter.toLower = letter ∧ simpleLower letter = letter ∧ 0 < letter.toNat := by
  have table : (letters.all fun letter => letter.toLower == letter &&
      (simpleLower letter == letter && decide (0 < letter.toNat))) = true := by
    decide +kernel
  simpa only [Bool.and_eq_true, beq_iff_eq, decide_eq_true_eq] using
    List.all_eq_true.mp table letter listed

theorem simpleLower_of_toLower (listed : c.toLower ∈ letters) : simpleLower c = c.toLower := by
  cases toLower_cases c with
  | inl capital => exact simpleLower_capital capital
  | inr same =>
    rw [same] at listed ⊢
    exact (letters_lower listed).2.1

theorem simpleLower_cases (c : Char) :
    (∃ first last step added, (first, last, step, added) ∈ lowercaseRows ∧ first ≤ c.toNat ∧
      c.toNat ≤ last ∧ simpleLower c = Char.ofNat (c.toNat + added).toNat) ∨
    simpleLower c = c := by
  unfold simpleLower
  split
  · rename_i first last step added found
    have inside := List.find?_some found
    simp only [Bool.and_eq_true, decide_eq_true_eq] at inside
    exact .inl ⟨first, last, step, added, List.mem_of_find?_eq_some found, inside.1.1,
      inside.1.2, rfl⟩
  · exact .inr rfl

-- A number that is no character gives the first one.
theorem toNat_ofNat (number : Nat) :
    (Char.ofNat number).toNat = number ∨ (Char.ofNat number).toNat = 0 := by
  by_cases valid : number.isValidChar
  · have read : Char.ofNat number = Char.ofNatAux number valid := dif_pos valid
    rw [read]
    exact .inl rfl
  · have read : Char.ofNat number = '\x00' := dif_neg valid
    rw [read]
    exact .inr rfl

theorem toLower_of_simpleLower (listed : simpleLower c ∈ letters) : c.toLower = simpleLower c := by
  rcases simpleLower_cases c with ⟨first, last, step, added, row, above, below, value⟩ | same
  · have apart := List.all_eq_true.mp rows_apart _ row
    rcases Bool.or_eq_true_iff.mp apart with latin | other
    · obtain ⟨rfl, rfl, rfl, rfl⟩ : first = 0x41 ∧ last = 0x5a ∧ step = 1 ∧ added = 32 := by
        simpa using latin
      have capital : c ∈ lettersFrom 0x41 := mem_lettersFrom above (Nat.lt_succ_of_le below)
      exact (simpleLower_capital capital).symm
    · -- The row would have to reach one of the letters.
      have outside := List.all_eq_true.mp other _ listed
      have positive := (letters_lower listed).2.2
      rw [value] at outside positive
      simp only [decide_eq_true_eq] at outside
      cases toNat_ofNat (c.toNat + added).toNat with
      | inl read =>
        rw [read] at outside positive
        omega
      | inr first => exact absurd positive (by rw [first]; exact Nat.lt_irrefl 0)
  · rw [same] at listed ⊢
    exact (letters_lower listed).1

theorem simpleLower_letter (listed : letter ∈ letters) :
    simpleLower c = letter ↔ c.toLower = letter := by
  constructor
  · rintro rfl
    exact toLower_of_simpleLower listed
  · rintro rfl
    exact simpleLower_of_toLower listed

-- Words of such letters are the lowercase form of their ASCII spellings alone.
theorem lowerAfter_word (plain : ∀ letter ∈ word, letter ∈ letters) (before chars : List Char) :
    lowerAfter before chars = word ↔ chars.map Char.toLower = word := by
  induction chars generalizing before word with
  | nil => simp [lowerAfter]
  | cons c chars ih =>
    rw [lowerAfter, List.map_cons]
    cases word with
    | nil =>
      split
      · simp
      · split <;> simp
    | cons letter word =>
      obtain ⟨listed, plain⟩ := List.forall_mem_cons.mp plain
      have other : ∀ d : Char, d ∉ letters → d ≠ letter := by
        rintro d unlisted rfl
        exact unlisted listed
      split
      · rename_i dotted
        subst dotted
        have first := other 'i' (by decide +kernel)
        have capital := other '\u0130' (by decide +kernel)
        simp [first, capital]
      · split
        · rename_i sigma
          subst sigma
          have final := other '\u03c2' (by decide +kernel)
          have inner := other '\u03c3' (by decide +kernel)
          have capital := other '\u03a3' (by decide +kernel)
          split <;> simp [final, inner, capital]
        · simp [simpleLower_letter listed, ih plain]

def extensions : List (List Char) := [['s', 'q', 'l'], ['d', 'd', 'l'], ['d', 'm', 'l']]

-- The extensions, in any case of their ASCII letters.
theorem lowercase_extension (extension : String) :
    Settings.sqlExtensions.contains (lowercase extension) = true ↔
      extension.toList.map Char.toLower ∈ extensions := by
  have word : ∀ text : String, (text.toList.all fun letter => letters.contains letter) = true →
      (lowercase extension = text ↔ extension.toList.map Char.toLower = text.toList) := by
    intro text plain
    rw [lowercase, ← lowerAfter_word _ [], ← String.toList_inj, String.toList_ofList]
    simpa using plain
  have sql := word "sql" (by decide +kernel)
  have ddl := word "ddl" (by decide +kernel)
  have dml := word "dml" (by decide +kernel)
  simp [Settings.sqlExtensions, extensions, sql, ddl, dml]

end Text

namespace Path
variable {name : String} {stem extension : List Char}

theorem nameExtension?_plain (plain : '.' ∉ name.toList) : nameExtension? name = none := by
  rw [nameExtension?, Text.fields_plain plain]
  rfl

theorem nameExtension?_dotted (plain : '.' ∉ extension)
    (spelled : name.toList = stem ++ '.' :: extension) :
    nameExtension? name = if stem = [] then none else some (String.ofList extension) := by
  rw [nameExtension?, spelled, Text.fields_append, Text.fields_plain plain, List.reverse_append,
    List.reverse_singleton, List.singleton_append]
  cases stem with
  | nil => rfl
  | cons c stem =>
    have first : Text.fields '.' (c :: stem) ≠ [[]] := by
      intro empty
      have joined := Text.join_fields '.' (c :: stem)
      rw [empty] at joined
      cases joined
    rw [if_neg (List.cons_ne_nil c stem)]
    cases parts : (Text.fields '.' (c :: stem)).reverse with
    | nil => exact absurd (List.reverse_eq_nil_iff.mp parts) (Text.fields_ne_nil _ _)
    | cons before rest =>
      have filled : ¬(before = [] ∧ rest = []) := by
        rintro ⟨rfl, rfl⟩
        exact first (List.reverse_eq_iff.mp parts)
      exact if_neg filled

end Path

-- A name with sql, ddl or dml behind its last dot, in any case, and something before the dot.
def SqlName (name : String) : Prop :=
  ∃ stem extension, stem ≠ [] ∧ name.toList = stem ++ '.' :: extension ∧
    extension.map Char.toLower ∈ Text.extensions

def SqlNamed (path : Path) : Prop :=
  ∃ name, path.components.getLast? = some (.normal name) ∧ SqlName name

theorem sqlName_iff (name : String) :
    (Path.nameExtension? name).any (fun extension =>
      Settings.sqlExtensions.contains (Text.lowercase extension)) = true ↔ SqlName name := by
  have undotted : ∀ extension : List Char,
      extension.map Char.toLower ∈ Text.extensions → '.' ∉ extension := by
    intro extension listed dotted
    have lower := List.mem_map_of_mem (f := Char.toLower) dotted
    have dots : Text.extensions.all fun word => !word.contains ('.'.toLower) := by decide +kernel
    have plain := List.all_eq_true.mp dots _ listed
    rw [Bool.not_eq_true', ← Bool.not_eq_true, List.contains_iff_mem] at plain
    exact plain lower
  constructor
  · intro found
    by_cases dotted : '.' ∈ name.toList.reverse
    · obtain ⟨back, front, split, plain⟩ := List.eq_append_cons_of_mem dotted
      have spelled : name.toList = front.reverse ++ '.' :: back.reverse := by
        rw [← List.reverse_inj, split]
        simp
      rw [Path.nameExtension?_dotted (by simpa using plain) spelled] at found
      split at found
      · cases found
      · rename_i filled
        rw [Option.any_some, Text.lowercase_extension, String.toList_ofList] at found
        exact ⟨_, _, filled, spelled, found⟩
    · rw [List.mem_reverse] at dotted
      rw [Path.nameExtension?_plain dotted] at found
      cases found
  · rintro ⟨stem, extension, filled, spelled, listed⟩
    rw [Path.nameExtension?_dotted (undotted extension listed) spelled, if_neg filled,
      Option.any_some, Text.lowercase_extension, String.toList_ofList]
    exact listed

theorem Selection.hasSqlExtension_iff (path : Path) :
    hasSqlExtension path = true ↔ SqlNamed path := by
  rw [hasSqlExtension, Path.fileName?, SqlNamed]
  cases path.components.getLast? with
  | none => simp
  | some last =>
    cases last with
    | root | current | parent => simp
    | normal name => simpa using sqlName_iff name

end InsertBatch
