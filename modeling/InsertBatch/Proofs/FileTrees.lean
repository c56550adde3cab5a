import InsertBatch.FileTree

namespace InsertBatch

namespace Component
variable {components : List Component}

def name? : Component → Option String
  | .normal name => some name
  | _ => none

-- From one place in a tree to another, each given by the names from the root. Trees
-- have no links, so that a parent takes the last name back.
def enter (names : List String) : Component → List String
  | .normal name => names ++ [name]
  | .parent => names.dropLast
  | .root | .current => names

theorem foldl_enter (plain : .parent ∉ components) (names : List String) :
    components.foldl enter names = names ++ components.filterMap name? := by
  induction components generalizing names with
  | nil => exact (List.append_nil names).symm
  | cons component components ih =>
    rw [List.mem_cons, not_or] at plain
    rw [List.foldl_cons, ih plain.2]
    cases component with
    | parent => exact absurd rfl plain.1
    | root | current => rfl
    | normal name => exact List.append_assoc _ _ _

end Component

namespace FileTree
variable {above : List FileTree} {here found : FileTree} {components : List Component}
  {content : Bytes} {name : String}

theorem follow_file (present : components ≠ []) :
    follow above (.file content) components = .error .notDirectory := by
  cases components with
  | nil => exact absurd rfl present
  | cons component components => rfl

-- Without parents only names matter, as long as one stands at the end.
theorem follow_names (plain : .parent ∉ components) (above : List FileTree) (here : FileTree)
    (name : String) :
    follow above here (components ++ [.normal name]) =
      follow above here ((components.filterMap Component.name? ++ [name]).map .normal) := by
  induction components generalizing above here with
  | nil => rfl
  | cons component components ih =>
    rw [List.mem_cons, not_or] at plain
    cases here with
    | file content => rw [follow_file (by simp), follow_file (by simp)]
    | directory entries =>
      cases component with
      | parent => exact absurd rfl plain.1
      | root | current => exact ih plain.2 above _
      | normal next =>
        simp only [List.cons_append, List.filterMap_cons, Component.name?, List.map_cons, follow,
          ih plain.2]

-- What has an entry is a directory.
theorem follow_directory (present : follow above here (components ++ [.normal name]) = .ok found) :
    ∃ entries, follow above here components = .ok (.directory entries) := by
  induction components generalizing above here with
  | nil =>
    cases here with
    | directory entries => exact ⟨entries, rfl⟩
    | file content => cases present
  | cons component components ih =>
    cases here with
    | file content => cases present
    | directory entries =>
      cases component with
      | root | current => exact ih present
      | parent =>
        cases above with
        | nil => exact ih present
        | cons nearest above => exact ih present
      | normal next =>
        simp only [List.cons_append, follow, isDirectory, if_true, FileTree.entries] at present ⊢
        cases read : entries.lookup next with
        | none =>
          rw [read] at present
          cases present
        | some child =>
          rw [read] at present
          exact ih present

theorem exists_directory (result : Except ReadError FileTree) :
    (∃ entries, result = .ok (.directory entries)) ↔ result.toOption.any isDirectory = true := by
  cases result with
  | error cause => simp [Except.toOption]
  | ok tree => cases tree <;> simp [Except.toOption, isDirectory]

-- A way to change trees that keeps directories and may drop files, told by their names.
structure Edits (edit : FileTree → FileTree) (keeps : String → FileTree → Bool) : Prop where
  isDirectory : ∀ tree, (edit tree).isDirectory = tree.isDirectory
  lookup : ∀ tree name, (edit tree).entries.lookup name =
    ((tree.entries.lookup name).filter (keeps name)).map edit
  directories : ∀ name entries, keeps name (.directory entries) = true

-- Whether what stands at the end of the components stays there.
def keptAt (keeps : String → FileTree → Bool) (components : List Component) (found : FileTree) :
    Bool :=
  match components.getLast? with
  | some (.normal name) => keeps name found
  | _ => true

theorem keptAt_cons {keeps : String → FileTree → Bool} {component : Component}
    (inner : component.name? = none ∨ components ≠ []) :
    keptAt keeps (component :: components) = keptAt keeps components := by
  unfold keptAt
  cases components with
  | nil =>
    cases component with
    | normal name => simp [Component.name?] at inner
    | root | current | parent => rfl
  | cons next components => rw [List.getLast?_cons_cons]

-- In the changed tree the same is found as before, as far as it was kept.
theorem follow_edit {edit : FileTree → FileTree} {keeps : String → FileTree → Bool}
    (edits : Edits edit keeps) (above : List FileTree) (here : FileTree)
    (components : List Component) :
    (follow (above.map edit) (edit here) components).toOption =
      ((follow above here components).toOption.filter (keptAt keeps components)).map edit := by
  induction components generalizing above here with
  | nil => rfl
  | cons component components ih =>
    cases isDirectory : here.isDirectory with
    | false =>
      cases component <;> simp [follow, edits.isDirectory, isDirectory, Except.toOption]
    | true =>
      cases component with
      | root | current =>
        rw [keptAt_cons (.inl rfl)]
        simpa [follow, edits.isDirectory, isDirectory] using ih above here
      | parent =>
        rw [keptAt_cons (.inl rfl)]
        cases above with
        | nil => simpa [follow, edits.isDirectory, isDirectory] using ih [] here
        | cons nearest above =>
          simpa [follow, edits.isDirectory, isDirectory] using ih above nearest
      | normal name =>
        have lookup := edits.lookup here name
        simp only [follow, edits.isDirectory, isDirectory, if_true]
        cases read : here.entries.lookup name with
        | none =>
          rw [read] at lookup
          rw [lookup]
          rfl
        | some child =>
          rw [read] at lookup
          cases kept : keeps name child with
          | true =>
            have below := ih (here :: above) child
            rw [Option.filter_some_pos kept] at lookup
            rw [lookup]
            cases components with
            | nil => exact congrArg (Option.map edit) (Option.filter_some_pos kept).symm
            | cons next components =>
              rw [keptAt_cons (.inr (List.cons_ne_nil _ _))]
              exact below
          | false =>
            rw [Option.filter_some_neg kept] at lookup
            rw [lookup]
            cases child with
            | directory entries => simp [edits.directories] at kept
            | file content =>
              cases components with
              | nil => exact congrArg (Option.map edit) (Option.filter_some_neg kept).symm
              | cons next components => rfl

theorem any_directory_edit {edit : FileTree → FileTree} {keeps : String → FileTree → Bool}
    (edits : Edits edit keeps) (components : List Component) (found : Option FileTree) :
    ((found.filter (keptAt keeps components)).map edit).any isDirectory =
      found.any isDirectory := by
  cases found with
  | none => rfl
  | some tree =>
    cases tree with
    | directory entries =>
      have kept : keptAt keeps components (.directory entries) = true := by
        unfold keptAt
        split
        · exact edits.directories _ entries
        · rfl
      rw [Option.filter_some_pos kept]
      exact edits.isDirectory _
    | file content =>
      cases kept : keptAt keeps components (.file content) with
      | true =>
        rw [Option.filter_some_pos kept]
        exact edits.isDirectory _
      | false =>
        rw [Option.filter_some_neg kept]
        rfl

end FileTree

namespace FileSystem
variable {system : FileSystem} {components dir : List Component} {input : Path}
  {entries : List (String × FileTree)}

-- The names from the root to what the components mean.
def place (system : FileSystem) (components : List Component) : List String :=
  (system.start components).foldl Component.enter []

-- Where an absolute or a relative path starts.
def origin (system : FileSystem) (components : List Component) : List String :=
  if components.head? = some .root then [] else system.workingDirectory

theorem start_plain (plain : .parent ∉ components) : .parent ∉ system.start components := by
  unfold start
  split
  · exact plain
  · simp [plain]

theorem place_names (plain : .parent ∉ components) :
    system.place components = (system.start components).filterMap Component.name? :=
  Component.foldl_enter (start_plain plain) []

theorem place_plain (plain : .parent ∉ components) :
    system.place components =
      system.origin components ++ components.filterMap Component.name? := by
  rw [place_names plain]
  unfold start origin
  split
  · rfl
  · rw [List.filterMap_append, List.filterMap_map]
    exact congrArg (· ++ _) List.filterMap_some

theorem start_concat (system : FileSystem) (dir : List Component) (name : String) :
    system.start (dir ++ [.normal name]) = system.start dir ++ [.normal name] := by
  unfold start
  cases dir with
  | nil => simp
  | cons component dir =>
    rw [List.cons_append, List.head?_cons, List.head?_cons]
    split
    · rfl
    · rw [List.append_assoc, List.cons_append]

-- An entry of a directory is found by the place of the directory alone.
theorem atComponents_place (plain : .parent ∉ dir) (name : String) :
    system.atComponents (dir ++ [.normal name]) =
      system.atComponents (.root :: (system.place dir ++ [name]).map .normal) := by
  have absolute : Component.root :: (system.place dir ++ [name]).map .normal =
      (.root :: (system.place dir).map .normal) ++ [.normal name] := by
    rw [List.map_append, List.cons_append]
    rfl
  have names : (Component.root :: (system.place dir).map .normal).filterMap Component.name? =
      system.place dir := by
    rw [List.filterMap_cons_none rfl, List.filterMap_map]
    exact List.filterMap_some
  have rooted : system.start (.root :: (system.place dir).map .normal) =
      .root :: (system.place dir).map .normal := rfl
  unfold atComponents
  rw [start_concat, FileTree.follow_names (start_plain plain), ← place_names plain, absolute,
    start_concat, rooted, FileTree.follow_names (by simp), names]

theorem find_directory (system : FileSystem) (input : Path) :
    system.find input = .ok (.directory entries) ↔
      input.spelling ≠ "" ∧ system.atComponents input.components = .ok (.directory entries) := by
  unfold find
  by_cases empty : input.spelling = ""
  · simp [empty]
  · cases system.atComponents input.components with
    | error cause => simp [empty]
    | ok tree =>
      cases tree with
      | directory entries => simp [empty]
      | file content => cases input.endsAsDirectory <;> simp [empty]

-- The tree changed, seen from the same working directory.
def edit (system : FileSystem) (change : FileTree → FileTree) : FileSystem :=
  ⟨change system.root, system.workingDirectory⟩

variable {change : FileTree → FileTree} {keeps : String → FileTree → Bool}

theorem atComponents_edit (edits : FileTree.Edits change keeps) (system : FileSystem)
    (components : List Component) :
    ((system.edit change).atComponents components).toOption =
      ((system.atComponents components).toOption.filter
        (FileTree.keptAt keeps (system.start components))).map change :=
  FileTree.follow_edit edits [] system.root (system.start components)

theorem atComponents_entry_edit (edits : FileTree.Edits change keeps) (system : FileSystem)
    (dir : List Component) (name : String) :
    ((system.edit change).atComponents (dir ++ [.normal name])).toOption =
      ((system.atComponents (dir ++ [.normal name])).toOption.filter (keeps name)).map change := by
  have last : FileTree.keptAt keeps (system.start (dir ++ [.normal name])) = keeps name := by
    funext found
    rw [start_concat, FileTree.keptAt, List.getLast?_concat]
  rw [atComponents_edit edits, last]

theorem find_toOption (present : input.spelling ≠ "") :
    (system.find input).toOption = (system.atComponents input.components).toOption.filter
      fun found => found.isDirectory || !input.endsAsDirectory := by
  unfold find
  rw [if_neg present]
  cases system.atComponents input.components with
  | error cause => rfl
  | ok tree =>
    cases tree with
    | directory entries => rfl
    | file content => cases input.endsAsDirectory <;> rfl

theorem find_edit (edits : FileTree.Edits change keeps) (system : FileSystem) (input : Path) :
    ((system.edit change).find input).toOption =
      ((system.find input).toOption.filter
        (FileTree.keptAt keeps (system.start input.components))).map change := by
  by_cases empty : input.spelling = ""
  · simp [find, empty, Except.toOption]
  · rw [find_toOption empty, find_toOption empty, atComponents_edit edits]
    cases (system.atComponents input.components).toOption with
    | none => rfl
    | some tree =>
      cases kept : FileTree.keptAt keeps (system.start input.components) tree <;>
        cases fits : tree.isDirectory || !input.endsAsDirectory <;>
          simp [Option.filter_some, kept, fits, edits.isDirectory]

end FileSystem
end InsertBatch
