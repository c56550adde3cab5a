import InsertBatch.Proofs.Fields
import InsertBatch.Proofs.FileTrees
import InsertBatch.Proofs.PathSelection
import Mathlib.Data.List.Nodup

namespace InsertBatch

namespace Component
variable {components : List Component}

theorem current_not_mem_ofFields (fields : List (List Char)) : .current ∉ ofFields fields := by
  intro member
  obtain ⟨field, _, made⟩ := List.mem_map.mp member
  split at made <;> cases made

-- A dot is a component of its own in front of a path, and nowhere else.
theorem ofText_current (text : String) : ∃ rest, .current ∉ rest ∧
    ((Text.fields '/' text.toList).head? = some ['.'] ∧ ofText text = .current :: rest ∨
      (Text.fields '/' text.toList).head? ≠ some ['.'] ∧ ofText text = rest) := by
  rw [ofText]
  split
  · rename_i field fields read
    refine ⟨.root :: ofFields (field :: fields), ?_, .inr ⟨by simp [read], rfl⟩⟩
    simp [current_not_mem_ofFields]
  · rename_i fields read
    exact ⟨ofFields fields, current_not_mem_ofFields fields, .inl ⟨by rw [read, List.head?_cons], rfl⟩⟩
  · rename_i rooted dotted
    refine ⟨_, current_not_mem_ofFields _, .inr ⟨?_, rfl⟩⟩
    intro first
    obtain ⟨fields, read⟩ := List.head?_eq_some_iff.mp first
    exact dotted fields read

theorem filter_names (relative : .root ∉ components) (plain : .parent ∉ components) :
    components.filter (· ≠ .current) = (components.filterMap name?).map .normal := by
  induction components with
  | nil => rfl
  | cons component components ih =>
    rw [List.mem_cons, not_or] at relative plain
    have rest := ih relative.2 plain.2
    cases component with
    | root => exact absurd rfl relative.1
    | parent => exact absurd rfl plain.1
    | current => exact rest
    | normal name => exact congrArg (.normal name :: ·) rest

end Component

namespace Path
variable {dir path other : Path} {name : String}

-- A path without dots and repeated separators.
def steps (path : Path) : List Component := path.components.filter (· ≠ .current)

-- Whether a path is written with a leading dot.
def isDotted (path : Path) : Bool := path.components.head? == some .current

-- A path that names a way down from the working directory.
def LeadsDown (path : Path) : Prop := .root ∉ path.components ∧ .parent ∉ path.components

theorem isDotted_iff :
    path.isDotted = true ↔ (Text.fields '/' path.spelling.toList).head? = some ['.'] := by
  obtain ⟨rest, clean, ⟨first, spelled⟩ | ⟨first, spelled⟩⟩ :=
    Component.ofText_current path.spelling
  · simp [isDotted, components, first, spelled]
  · refine iff_of_false ?_ first
    rw [isDotted, components, spelled, beq_iff_eq]
    intro dotted
    exact clean (List.mem_of_mem_head? dotted)

-- Nothing of a path is lost but a leading dot.
theorem components_steps (path : Path) :
    path.components = if path.isDotted then .current :: path.steps else path.steps := by
  obtain ⟨rest, clean, spelled⟩ := Component.ofText_current path.spelling
  have kept : rest.filter (· ≠ .current) = rest := by
    refine List.filter_eq_self.mpr fun component member => decide_eq_true ?_
    exact fun same => clean (same ▸ member)
  rcases spelled with ⟨first, spelled⟩ | ⟨first, spelled⟩
  · rw [if_pos (isDotted_iff.mpr first), steps, components, spelled,
      List.filter_cons_of_neg (by simp), kept]
  · rw [if_neg (mt isDotted_iff.mp first), steps, components, spelled, kept]

theorem components_determined (steps : path.steps = other.steps)
    (dotted : path.isDotted = other.isDotted) : path.components = other.components := by
  rw [components_steps path, components_steps other, steps, dotted]

theorem join_spelling (present : dir.spelling ≠ "") : (dir.join name).spelling ≠ "" := by
  rw [join]
  split <;> simp [present]

-- An entry is spelled like its directory.
theorem isDotted_join (present : dir.spelling ≠ "") :
    (dir.join name).isDotted = dir.isDotted := by
  rw [Bool.eq_iff_iff, isDotted_iff, isDotted_iff, join]
  split
  · rename_i separated
    obtain ⟨front, spelled⟩ :=
      List.getLast?_eq_some_iff.mp (separated.resolve_left present)
    rw [String.toList_append, spelled, List.append_assoc, List.singleton_append,
      Text.fields_append, Text.fields_append,
      List.head?_append_of_ne_nil _ (Text.fields_ne_nil _ _),
      List.head?_append_of_ne_nil _ (Text.fields_ne_nil _ _)]
  · have slash : ("/" : String).toList = ['/'] := rfl
    rw [String.toList_append, String.toList_append, slash, List.append_assoc,
      List.singleton_append, Text.fields_append,
      List.head?_append_of_ne_nil _ (Text.fields_ne_nil _ _)]

theorem isDotted_below (present : dir.spelling ≠ "") (names : List String) :
    (names.foldl join dir).isDotted = dir.isDotted := by
  induction names generalizing dir with
  | nil => rfl
  | cons name names ih =>
    rw [List.foldl_cons, ih (join_spelling present), isDotted_join present]

end Path

-- On ways down, the same steps are the same place.
theorem FileSystem.place_steps (system : FileSystem) {path other : Path} (down : path.LeadsDown)
    (otherDown : other.LeadsDown) :
    system.place path.components = system.place other.components ↔ path.steps = other.steps := by
  have place (path : Path) (down : path.LeadsDown) : system.place path.components =
      system.workingDirectory ++ path.components.filterMap Component.name? := by
    rw [place_plain down.2, origin, if_neg]
    exact fun rooted => down.1 (List.mem_of_mem_head? rooted)
  rw [place path down, place other otherDown, List.append_cancel_left_eq, Path.steps, Path.steps,
    Component.filter_names down.1 down.2, Component.filter_names otherDown.1 otherDown.2]
  refine (List.map_injective_iff.mpr ?_).eq_iff.symm
  exact fun _ _ => Component.normal.inj

namespace Selection
variable {system : FileSystem} {settings : Settings} {input path a b : Path} {inputs : List Path}
  {dotted : Bool} {steps : List Component}

theorem Yields.isDotted (yields : Yields system settings input path) :
    path.isDotted = input.isDotted := by
  cases yields with
  | file | missing => rfl
  | inside found =>
    exact Path.isDotted_below ((FileSystem.find_directory system input).mp found).1 _

-- An input that is written in the one way, or in the other, leads to these steps.
def Asked (system : FileSystem) (settings : Settings) (inputs : List Path) (dotted : Bool)
    (steps : List Component) : Prop :=
  ∃ input ∈ inputs, input.isDotted = dotted ∧
    ∃ path, Yields system settings input path ∧ path.steps = steps

theorem listed_iff :
    (∃ path ∈ paths system settings inputs, path.isDotted = dotted ∧ path.steps = steps) ↔
      Asked system settings inputs dotted steps := by
  constructor
  · rintro ⟨path, listed, rfl, rfl⟩
    obtain ⟨input, given, found⟩ := paths_found listed
    have yields := mem_ofInput.mp found
    exact ⟨input, given, yields.isDotted.symm, path, yields, rfl⟩
  · rintro ⟨input, given, rfl, path, yields, rfl⟩
    obtain ⟨listed, member, same⟩ := paths_covers given (mem_ofInput.mpr yields)
    refine ⟨listed, member, ?_, ?_⟩
    · rw [← yields.isDotted, Path.isDotted, Path.isDotted, same]
    · rw [Path.steps, Path.steps, same]

theorem paths_distinct (system : FileSystem) (settings : Settings) (inputs : List Path) :
    ((paths system settings inputs).map Path.components).Nodup :=
  (List.pairwise_map.mpr (paths_increasing system settings inputs)).nodup

theorem paths_twins (first : a ∈ paths system settings inputs)
    (second : b ∈ paths system settings inputs) (steps : a.steps = b.steps)
    (dotted : a.isDotted = b.isDotted) : a = b :=
  List.inj_on_of_nodup_map (paths_distinct system settings inputs) first second
    (Path.components_determined steps dotted)

theorem run_paths (system : FileSystem) (settings : Settings) (inputs : List Path) :
    (run system settings inputs).results.map (fun result => Path.mk result.path) =
      paths system settings inputs := by
  rw [run, List.map_map]
  refine List.map_id'' (fun path => ?_) _
  rw [Function.comp_apply, analyzeFile]
  split <;> rfl

-- How often a file can be listed that several inputs lead to.
structure Repeats (system : FileSystem) (settings : Settings) (inputs : List Path) : Prop where
  twins : ∀ a ∈ paths system settings inputs, ∀ b ∈ paths system settings inputs,
    a.steps = b.steps → a.isDotted = b.isDotted → a = b
  twice : ∀ steps, (∃ a ∈ paths system settings inputs, ∃ b ∈ paths system settings inputs,
      a ≠ b ∧ a.steps = steps ∧ b.steps = steps) ↔
    Asked system settings inputs true steps ∧ Asked system settings inputs false steps
  alike : (∀ a ∈ inputs, ∀ b ∈ inputs, a.isDotted = b.isDotted) →
    ((run system settings inputs).results.map fun result => (Path.mk result.path).steps).Nodup
  placed : ∀ a ∈ paths system settings inputs, ∀ b ∈ paths system settings inputs,
    a.LeadsDown → b.LeadsDown → system.place a.components = system.place b.components →
      a = b ∨ a.steps = b.steps ∧ a.isDotted ≠ b.isDotted

theorem paths_repeat (system : FileSystem) (settings : Settings) (inputs : List Path) :
    Repeats system settings inputs where
  twins a first b second := paths_twins first second
  twice steps := by
    constructor
    · rintro ⟨a, first, b, second, apart, rfl, same⟩
      have written : a.isDotted ≠ b.isDotted := fun dotted =>
        apart (paths_twins first second same.symm dotted)
      have asked : Asked system settings inputs a.isDotted a.steps :=
        listed_iff.mp ⟨a, first, rfl, rfl⟩
      have other : Asked system settings inputs b.isDotted a.steps :=
        listed_iff.mp ⟨b, second, rfl, same⟩
      cases dotted : a.isDotted with
      | true =>
        have plain : b.isDotted = false := by simpa [dotted] using written
        exact ⟨dotted ▸ asked, plain ▸ other⟩
      | false =>
        have leading : b.isDotted = true := by simpa [dotted] using written
        exact ⟨leading ▸ other, dotted ▸ asked⟩
    · rintro ⟨leading, plain⟩
      obtain ⟨a, first, dotted, rfl⟩ := listed_iff.mpr leading
      obtain ⟨b, second, undotted, same⟩ := listed_iff.mpr plain
      refine ⟨a, first, b, second, ?_, rfl, same⟩
      rintro rfl
      exact Bool.noConfusion (dotted.symm.trans undotted)
  alike same := by
    rw [← Function.comp_def Path.steps, ← List.map_map, run_paths]
    refine (paths_distinct system settings inputs).of_map.map_on fun a first b second steps => ?_
    apply paths_twins first second steps
    obtain ⟨input, given, found⟩ := paths_found first
    obtain ⟨other, present, reached⟩ := paths_found second
    rw [(mem_ofInput.mp found).isDotted, (mem_ofInput.mp reached).isDotted]
    exact same input given other present
  placed a first b second down otherDown same := by
    have steps := (system.place_steps down otherDown).mp same
    by_cases dotted : a.isDotted = b.isDotted
    · exact .inl (paths_twins first second steps dotted)
    · exact .inr ⟨steps, dotted⟩

-- A file that is named itself and found in the working directory is analyzed twice.
theorem paths_not_once :
    let system : FileSystem := ⟨.directory [("a.sql", .file (Bytes.ofString "SELECT 1"))], []⟩
    let inputs : List Path := [⟨"."⟩, ⟨"a.sql"⟩]
    let dotted : Path := ⟨"./a.sql"⟩
    let plain : Path := ⟨"a.sql"⟩
    paths system {} inputs = [dotted, plain] ∧ dotted.steps = plain.steps ∧
      system.read dotted = .ok (Bytes.ofString "SELECT 1") ∧
      system.place dotted.components = system.place plain.components ∧
      (run system {} inputs).total = 2 ∧ (run system {} inputs).findings.length = 2 := by
  intro system inputs dotted plain
  have components : plain.components = [.normal "a.sql"] := by decide +kernel
  have entry : plain.endsAsDirectory = false := by decide +kernel
  have directory : system.find ⟨"."⟩ = .ok system.root := rfl
  have file : system.find plain = .ok (.file (Bytes.ofString "SELECT 1")) := by
    simp [FileSystem.find, FileSystem.atComponents, components, FileSystem.start, entry,
      FileTree.follow, FileTree.isDirectory, FileTree.entries, plain, system]
  have joined : Path.join ⟨"."⟩ "a.sql" = dotted := by decide +kernel
  have shown : isSkipped (patterns {}) "a.sql" = false := by decide +kernel
  have sql : hasSqlExtension dotted = true ∧ hasSqlExtension plain = true := by decide +kernel
  have found : inputs.flatMap (ofInput system (patterns {})) = [dotted, plain] := by
    simp [inputs, ofInput, directory, file, system, below, shown, joined, sql, plain]
  have sorted : [dotted, plain].mergeSort Path.precedes = [dotted, plain] :=
    List.mergeSort_of_pairwise (by decide +kernel)
  have listed : paths system {} inputs = [dotted, plain] := by
    rw [paths, found, sorted]
    decide +kernel
  refine ⟨listed, by decide +kernel, by decide +kernel, by decide +kernel, ?_, ?_⟩
  · rw [run, listed]
    rfl
  · rw [run, listed]
    decide +kernel

end Selection
end InsertBatch
