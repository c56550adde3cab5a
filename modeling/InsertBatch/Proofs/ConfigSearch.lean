import InsertBatch.Config.Load
import InsertBatch.Proofs.FileTrees
import Mathlib.Data.List.Induction

namespace InsertBatch.Config
variable {system : FileSystem} {inputs : List Path} {input : Path}
  {dir other start file : List Component}

theorem findSome?_eraseDups [BEq α] [LawfulBEq α] (search : α → Option β) (items : List α) :
    items.eraseDups.findSome? search = items.findSome? search := by
  induction items using List.reverseRecOn with
  | nil => rfl
  | append_singleton items item ih =>
    rw [List.eraseDups_append, List.findSome?_append, List.findSome?_append, ih]
    by_cases known : item ∈ items
    · have nothing : [item].removeAll items = [] := by simp [List.removeAll, known]
      rw [nothing]
      cases found : items.findSome? search with
      | some result => rfl
      | none => simp [List.findSome?_eq_none_iff.mp found item known]
    · have same : [item].removeAll items = [item] := by simp [List.removeAll, known]
      rw [same]
      rfl

theorem findSome?_flatMap (search : β → Option γ) (expand : α → List β) (items : List α) :
    (items.flatMap expand).findSome? search =
      items.findSome? fun item => (expand item).findSome? search := by
  induction items with
  | nil => rfl
  | cons item items ih =>
    rw [List.flatMap_cons, List.findSome?_append, ih, List.findSome?_cons]
    cases (expand item).findSome? search with
    | some result => rfl
    | none => rfl

-- The configuration file that a directory offers.
def fileIn? (system : FileSystem) (dir : List Component) : Option (List Component) :=
  (candidates dir).find? fun file => (system.atComponents file).toOption.isSome

-- The first one on the way up from an input. Standard input lies nowhere.
def fileAbove? (system : FileSystem) (input : Path) : Option (List Component) :=
  if input.spelling = "-" then none
  else (ancestors (startOf system input)).findSome? (fileIn? system)

-- Each input is searched by itself: that an earlier one has passed a directory already
-- does not change what is found.
theorem find?_inputs (system : FileSystem) (inputs : List Path) :
    find? system inputs = inputs.findSome? (fileAbove? system) := by
  rw [find?, List.find?_flatMap, searched]
  change List.findSome? (fileIn? system) _ = _
  rw [findSome?_eraseDups, findSome?_flatMap]
  induction inputs with
  | nil => rfl
  | cons input inputs ih =>
    rw [List.findSome?_cons, fileAbove?, ← ih]
    by_cases standard : input.spelling = "-"
    · rw [if_pos standard, List.filter_cons_of_neg (by simp [standard])]
    · rw [if_neg standard, List.filter_cons_of_pos (by simp [standard]), List.findSome?_cons]

theorem mem_candidates :
    file ∈ candidates dir ↔ ∃ name ∈ [ownName, sharedName], file = dir ++ [.normal name] := by
  simp [candidates]

theorem mem_ancestors :
    other ∈ ancestors dir ↔ other <+: dir ∧ (dir.head? = some .root → other ≠ []) := by
  rw [ancestors, List.mem_reverse, List.mem_map]
  constructor
  · intro found
    obtain ⟨count, member, rfl⟩ := found
    refine ⟨List.take_prefix _ _, ?_⟩
    intro rooted empty
    rw [if_pos rooted, List.mem_range'_1] at member
    cases List.take_eq_nil_iff.mp empty with
    | inl none => omega
    | inr nil => simp [nil] at rooted
  · intro found
    obtain ⟨front, rooted⟩ := found
    refine ⟨other.length, ?_, (List.prefix_iff_eq_take.mp front).symm⟩
    have bound := front.length_le
    rw [List.mem_range'_1]
    split
    · rename_i absolute
      have present := List.length_pos_iff.mpr (rooted absolute)
      omega
    · omega

-- The nearest directory comes first.
theorem ancestors_shorten (dir : List Component) :
    (ancestors dir).Pairwise fun nearer farther => farther.length < nearer.length := by
  rw [ancestors, List.pairwise_reverse, List.pairwise_map]
  apply List.Pairwise.imp_of_mem _ List.pairwise_lt_range'
  intro fewer more _ member less
  rw [List.mem_range'_1] at member
  rw [List.length_take, List.length_take]
  have bound : more ≤ dir.length := by
    split at member <;> omega
  omega

-- Places in the tree. A path without parents passes only through directories that
-- contain what it means, the deepest first on the way up.

theorem ancestor_plain (member : other ∈ ancestors start) (plain : .parent ∉ start) :
    .parent ∉ other := fun inside => plain ((mem_ancestors.mp member).1.subset inside)

theorem ancestor_origin (member : other ∈ ancestors start) :
    system.origin other = system.origin start := by
  obtain ⟨⟨behind, rfl⟩, rooted⟩ := mem_ancestors.mp member
  cases other with
  | nil =>
    have relative : (([] : List Component) ++ behind).head? ≠ some .root :=
      fun absolute => rooted absolute rfl
    rw [FileSystem.origin, FileSystem.origin, if_neg relative]
    rfl
  | cons component other => rfl

theorem ancestor_place (member : other ∈ ancestors start) (plain : .parent ∉ start) :
    system.place other = system.origin start ++ other.filterMap Component.name? := by
  rw [FileSystem.place_plain (ancestor_plain member plain), ancestor_origin member]

theorem exists_ancestor {deeper : List String} (plain : .parent ∉ start)
    (reach : deeper <+: system.place start)
    (longer : (system.origin start).length < deeper.length) :
    ∃ dir ∈ ancestors start, system.place dir = deeper := by
  rw [FileSystem.place_plain plain] at reach
  obtain ⟨names, rfl⟩ := List.prefix_of_prefix_length_le (List.prefix_append _ _) reach
    (Nat.le_of_lt longer)
  obtain ⟨behind, whole⟩ := reach
  rw [List.append_assoc, List.append_cancel_left_eq] at whole
  obtain ⟨front, back, split, spelled, _⟩ := List.filterMap_eq_append_iff.mp whole.symm
  have present : front ≠ [] := by
    intro empty
    rw [empty, List.filterMap_nil] at spelled
    simp [← spelled] at longer
  have member : front ∈ ancestors start :=
    mem_ancestors.mpr ⟨split ▸ List.prefix_append _ _, fun _ => present⟩
  exact ⟨front, member, by rw [ancestor_place member plain, spelled]⟩

-- A directory, given by the names from the root, that has a configuration file.
def Holds (system : FileSystem) (dir : List String) : Prop :=
  ∃ name ∈ [ownName, sharedName],
    (system.atComponents (.root :: (dir ++ [name]).map .normal)).toOption.isSome

theorem fileIn?_eq_none (plain : .parent ∉ dir) :
    fileIn? system dir = none ↔ ¬Holds system (system.place dir) := by
  simp [fileIn?, Holds, candidates, FileSystem.atComponents_place plain]

theorem fileIn?_some (found : fileIn? system dir = some file) :
    file.dropLast = dir ∧ file ∈ candidates dir ∧
      (system.atComponents file).toOption.isSome := by
  have member := List.mem_of_find?_eq_some found
  have existing := List.find?_some found
  obtain ⟨name, _, rfl⟩ := mem_candidates.mp member
  exact ⟨List.dropLast_concat, member, existing⟩

-- What is found is found in the deepest directory that has any.
theorem findSome?_ancestors {search : List Component → Option α} {result : α}
    (found : (ancestors start).findSome? search = some result) :
    ∃ dir ∈ ancestors start, search dir = some result ∧
      ∀ other ∈ ancestors start, dir.length < other.length → search other = none := by
  obtain ⟨nearer, dir, farther, order, here, none⟩ := List.findSome?_eq_some_iff.mp found
  have shorten := ancestors_shorten start
  rw [order] at shorten ⊢
  refine ⟨dir, List.mem_append_right _ List.mem_cons_self, here, ?_⟩
  intro other member longer
  cases List.mem_append.mp member with
  | inl before => exact none other before
  | inr behind =>
    cases List.mem_cons.mp behind with
    | inl same => exact absurd longer (same ▸ Nat.lt_irrefl _)
    | inr later =>
      have shorter := (List.pairwise_cons.mp (List.pairwise_append.mp shorten).2.1).1 other later
      exact absurd longer (Nat.lt_asymm shorter)

theorem ancestor_place_length (first : dir ∈ ancestors start) (second : other ∈ ancestors start)
    (plain : .parent ∉ start)
    (longer : (system.place dir).length < (system.place other).length) :
    dir.length < other.length := by
  apply Nat.lt_of_not_le
  intro shorter
  have inner : other <+: dir :=
    List.prefix_of_prefix_length_le (mem_ancestors.mp second).1 (mem_ancestors.mp first).1 shorter
  have names := (inner.filterMap Component.name?).length_le
  rw [ancestor_place first plain, ancestor_place second plain, List.length_append,
    List.length_append] at longer
  omega

-- What the search gives for one start, as places: a file of a directory that contains the
-- start, and no directory in between has one.
theorem nearest_ancestor (plain : .parent ∉ start)
    (found : (ancestors start).findSome? (fileIn? system) = some file) :
    file ∈ candidates file.dropLast ∧ system.place file.dropLast <+: system.place start ∧
      ∀ deeper, deeper <+: system.place start →
        (system.place file.dropLast).length < deeper.length → ¬Holds system deeper := by
  obtain ⟨dir, member, here, none⟩ := findSome?_ancestors found
  obtain ⟨rfl, named, _⟩ := fileIn?_some here
  have spelled : system.place file.dropLast = _ := ancestor_place member plain
  refine ⟨named, ?_, ?_⟩
  · rw [spelled, FileSystem.place_plain plain, List.prefix_append_right_inj]
    exact (mem_ancestors.mp member).1.filterMap _
  · intro deeper reach longer
    have beyond : (system.origin start).length < deeper.length := by
      rw [spelled, List.length_append] at longer
      omega
    obtain ⟨other, upward, rfl⟩ := exists_ancestor plain reach beyond
    rw [← fileIn?_eq_none (ancestor_plain upward plain)]
    exact none other upward (ancestor_place_length member upward plain longer)

-- The search starts at a directory that the input names, or else at the one it is in.

theorem startOf_directory {entries : List (String × FileTree)}
    (found : system.find input = .ok (.directory entries)) :
    startOf system input = input.components := by
  rw [startOf, found]

theorem startOf_other (other : ∀ entries, system.find input ≠ .ok (.directory entries)) :
    startOf system input =
      if input.components.dropLast = [] then [.current] else input.components.dropLast := by
  unfold startOf
  split
  · rename_i entries found
    exact absurd found (other entries)
  · cases input.components.dropLast <;> rfl

-- Leaving out the last component leaves at most one name.
theorem place_dropLast (system : FileSystem) {components : List Component}
    (plain : .parent ∉ components) (relative : components ≠ [.root]) :
    ∃ last, system.place components = system.place components.dropLast ++ last ∧
      last.length ≤ 1 := by
  cases List.eq_nil_or_concat components with
  | inl empty =>
    rw [empty]
    exact ⟨[], (List.append_nil _).symm, Nat.zero_le _⟩
  | inr ends =>
    obtain ⟨front, last, rfl⟩ := ends
    rw [List.concat_eq_append, List.mem_append, not_or] at plain
    have origin : system.origin (front ++ [last]) = system.origin front := by
      cases front with
      | nil =>
        cases last with
        | root => exact absurd rfl relative
        | current | parent | normal name => rfl
      | cons first front => rfl
    rw [List.concat_eq_append, List.dropLast_concat, FileSystem.place_plain (by simp [plain]),
      FileSystem.place_plain plain.1, origin, List.filterMap_append, ← List.append_assoc]
    exact ⟨_, rfl, List.length_filterMap_le _ _⟩

theorem find_root (rooted : system.root.isDirectory = true)
    (spelled : input.components = [.root]) :
    ∃ entries, system.find input = .ok (.directory entries) := by
  cases tree : system.root with
  | file content =>
    rw [tree] at rooted
    cases rooted
  | directory entries =>
    refine ⟨entries, (FileSystem.find_directory system input).mpr ⟨?_, ?_⟩⟩
    · intro empty
      rw [Path.components, empty] at spelled
      exact absurd spelled (by decide +kernel)
    · rw [spelled, FileSystem.atComponents, tree]
      rfl

-- What holds a configuration file is a directory.
theorem holds_directory {components : List Component} (plain : .parent ∉ components)
    (holds : Holds system (system.place components)) :
    ∃ entries, system.atComponents components = .ok (.directory entries) := by
  obtain ⟨name, _, existing⟩ := holds
  rw [← FileSystem.atComponents_place plain] at existing
  cases found : system.atComponents (components ++ [.normal name]) with
  | error cause =>
    rw [found] at existing
    cases existing
  | ok tree =>
    rw [FileSystem.atComponents, FileSystem.start_concat] at found
    exact FileTree.follow_directory found

-- The start is a place that contains the input, and misses none with a configuration file.
theorem startOf_reach (plain : .parent ∉ input.components)
    (rooted : system.root.isDirectory = true) :
    .parent ∉ startOf system input ∧
      system.place (startOf system input) <+: system.place input.components ∧
      ∀ deeper, deeper <+: system.place input.components → Holds system deeper →
        deeper <+: system.place (startOf system input) := by
  by_cases directory : ∃ entries, system.find input = .ok (.directory entries)
  · obtain ⟨entries, found⟩ := directory
    rw [startOf_directory found]
    exact ⟨plain, List.prefix_rfl, fun deeper reach _ => reach⟩
  · rw [not_exists] at directory
    have relative : input.components ≠ [.root] := by
      intro spelled
      obtain ⟨entries, found⟩ := find_root rooted spelled
      exact directory entries found
    have inner : .parent ∉ input.components.dropLast :=
      fun member => plain ((List.dropLast_prefix _).subset member)
    have start : .parent ∉ startOf system input ∧
        system.place (startOf system input) = system.place input.components.dropLast := by
      rw [startOf_other directory]
      split
      · rename_i empty
        refine ⟨by simp, ?_⟩
        rw [empty, FileSystem.place_plain (by simp), FileSystem.place_plain (by simp)]
        rfl
      · exact ⟨inner, rfl⟩
    obtain ⟨last, whole, short⟩ := place_dropLast system plain relative
    rw [start.2, whole]
    refine ⟨start.1, List.prefix_append _ _, ?_⟩
    intro deeper reach holds
    cases Nat.lt_or_ge (system.place input.components.dropLast).length deeper.length with
    | inr short => exact List.prefix_of_prefix_length_le reach (List.prefix_append _ _) short
    | inl long =>
      have bound := reach.length_le
      rw [List.length_append] at bound
      have same : deeper = system.place input.components := by
        rw [whole]
        exact reach.eq_of_length (by rw [List.length_append]; omega)
      rw [same] at holds long
      obtain ⟨entries, found⟩ := holds_directory plain holds
      refine absurd ((FileSystem.find_directory system input).mpr ⟨?_, found⟩) (directory entries)
      intro empty
      have nothing : input.components = [] := by
        rw [Path.components, empty]
        decide +kernel
      rw [nothing] at long
      exact Nat.lt_irrefl _ long

-- The file lies in a directory that contains the input, and no directory further down
-- that contains it has a configuration file.
structure NearestTo (system : FileSystem) (input : Path) (file : List Component) : Prop where
  named : file ∈ candidates file.dropLast
  contains : system.place file.dropLast <+: system.place input.components
  nearest : ∀ deeper, deeper <+: system.place input.components →
    (system.place file.dropLast).length < deeper.length → ¬Holds system deeper

theorem root_isDirectory (here : fileIn? system dir = some file) :
    system.root.isDirectory = true := by
  obtain ⟨_, named, existing⟩ := fileIn?_some here
  cases tree : system.root with
  | directory entries => rfl
  | file content =>
    have present : system.start file ≠ [] := by
      obtain ⟨name, _, rfl⟩ := mem_candidates.mp named
      simp [FileSystem.start_concat]
    rw [FileSystem.atComponents, tree, FileTree.follow_file present] at existing
    cases existing

theorem fileAbove?_parts (found : fileAbove? system input = some file) :
    input.spelling ≠ "-" ∧ system.root.isDirectory = true ∧
      (ancestors (startOf system input)).findSome? (fileIn? system) = some file := by
  unfold fileAbove? at found
  split at found
  · cases found
  · rename_i named
    obtain ⟨dir, _, here⟩ := List.exists_of_findSome?_eq_some found
    exact ⟨named, root_isDirectory here, found⟩

theorem fileAbove?_nearest (plain : .parent ∉ input.components)
    (found : fileAbove? system input = some file) :
    NearestTo system input file ∧
      system.place file.dropLast <+: system.place (startOf system input) := by
  obtain ⟨_, rooted, upward⟩ := fileAbove?_parts found
  obtain ⟨starts, within, reaches⟩ := startOf_reach plain rooted
  obtain ⟨named, contains, nearest⟩ := nearest_ancestor starts upward
  refine ⟨⟨named, contains.trans within, ?_⟩, contains⟩
  intro deeper reach longer holds
  exact nearest deeper (reaches deeper reach holds) longer holds

-- The directory contains every input but standard input.
def Spans (system : FileSystem) (inputs : List Path) (dir : List String) : Prop :=
  ∀ input ∈ inputs, input.spelling ≠ "-" → dir <+: system.place input.components

-- The file lies in a directory that is common to the inputs, and no deeper one that is
-- common to them has a configuration file.
structure Common (system : FileSystem) (inputs : List Path) (file : List Component) : Prop where
  spans : Spans system inputs (system.place file.dropLast)
  nearest : ∀ deeper, Spans system inputs deeper →
    (system.place file.dropLast).length < deeper.length → ¬Holds system deeper

-- What the search finds. It is the file nearest to one input, the first that has any, and
-- this is a common one exactly if its directory happens to contain the others too.
structure Found (system : FileSystem) (inputs : List Path) (file : List Component) : Prop where
  first : ∃ before input behind, inputs = before ++ input :: behind ∧ input.spelling ≠ "-" ∧
    NearestTo system input file ∧ ∀ earlier ∈ before, earlier.spelling ≠ "-" →
      ∀ dir ∈ ancestors (startOf system earlier), ¬Holds system (system.place dir)
  common : Common system inputs file ↔ Spans system inputs (system.place file.dropLast)
  together : (∃ dir, ∀ input ∈ inputs, input.spelling ≠ "-" →
    system.place (startOf system input) = dir) → Common system inputs file

-- Without parents in the inputs, the search finds what is nearest to the first that has a
-- configuration file at all. Inputs that start in one place share it; others may not.
theorem find?_found (plain : ∀ input ∈ inputs, .parent ∉ input.components)
    (found : find? system inputs = some file) : Found system inputs file := by
  rw [find?_inputs] at found
  obtain ⟨before, input, behind, split, here, none⟩ := List.findSome?_eq_some_iff.mp found
  have member : input ∈ inputs := by
    rw [split]
    exact List.mem_append_right _ List.mem_cons_self
  obtain ⟨named, rooted, _⟩ := fileAbove?_parts here
  obtain ⟨nearest, within⟩ := fileAbove?_nearest (plain input member) here
  have common : Spans system inputs (system.place file.dropLast) → Common system inputs file := by
    intro spans
    exact ⟨spans, fun deeper reach => nearest.nearest deeper (reach input member named)⟩
  refine ⟨⟨before, input, behind, split, named, nearest, ?_⟩, ⟨Common.spans, common⟩, ?_⟩
  · intro earlier inside other dir upward
    have searched := none earlier inside
    rw [fileAbove?, if_neg other, List.findSome?_eq_none_iff] at searched
    have starts := (startOf_reach (plain earlier (split ▸ List.mem_append_left _ inside)) rooted).1
    exact (fileIn?_eq_none (ancestor_plain upward starts)).mp (searched dir upward)
  · intro same
    obtain ⟨dir, same⟩ := same
    apply common
    intro other inside apart
    rw [same input member named, ← same other inside apart] at within
    exact within.trans (startOf_reach (plain other inside) rooted).2.1

theorem find?_found_above :
    let system : FileSystem :=
      ⟨.directory [("work", .directory
        [("a", .directory [("sqlrewrite.toml", .file []), ("x.sql", .file []),
          ("b", .directory [("y.sql", .file [])])]),
         ("pyproject.toml", .file [])])], ["work"]⟩
    let inputs : List Path := [⟨"a/b/y.sql"⟩, ⟨"-"⟩, ⟨"a/x.sql"⟩]
    let file : List Component := [.normal "a", .normal "sqlrewrite.toml"]
    (∀ input ∈ inputs, .parent ∉ input.components) ∧ find? system inputs = some file ∧
      Found system inputs file ∧ Common system inputs file := by
  intro system inputs file
  have plain : ∀ input ∈ inputs, .parent ∉ input.components := by decide +kernel
  have found : find? system inputs = some file := by decide +kernel
  have spans : Spans system inputs (system.place file.dropLast) := by
    unfold Spans
    decide +kernel
  exact ⟨plain, found, find?_found plain found, (find?_found plain found).common.mpr spans⟩

-- The options of one directory are taken for the files of another.
theorem find?_apart :
    let system : FileSystem :=
      ⟨.directory [("work", .directory
        [("a", .directory [("x.sql", .file []),
          ("sqlrewrite.toml", .file (Bytes.ofString "no_backslash_escapes = true\n"))]),
         ("b", .directory [("y.sql", .file [])])])], ["work"]⟩
    let inputs : List Path := [⟨"a/x.sql"⟩, ⟨"b/y.sql"⟩]
    let file : List Component := [.normal "a", .normal "sqlrewrite.toml"]
    find? system inputs = some file ∧
      load system none inputs none = .ok { rawBackslash := true } ∧
      ¬Common system inputs file := by
  intro system inputs file
  refine ⟨by decide +kernel, by decide +kernel, ?_⟩
  intro common
  have reach := common.spans ⟨"b/y.sql"⟩ (by decide +kernel) (by decide +kernel)
  revert reach
  decide +kernel

end InsertBatch.Config
