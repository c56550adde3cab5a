import InsertBatch.Proofs.Entries
import InsertBatch.Proofs.PathOrder
import InsertBatch.Proofs.SqlNames
import Mathlib.Data.List.Sort

namespace InsertBatch

namespace FileTree
open Entries (exists_entry lookup_absent lookup_isSome lookup_present mem_of_lookup)

-- From a tree the names lead down to a file.
inductive Leads : FileTree → List String → Bytes → Prop where
  | here (content : Bytes) : Leads (.file content) [] content
  | entry {name : String} {child : FileTree} {entries : List (String × FileTree)}
      {names : List String} {content : Bytes} (listed : (name, child) ∈ entries)
      (rest : Leads child names content) : Leads (.directory entries) (name :: names) content

-- The same files under the same names, where directories list their entries in another order.
inductive Relisted : FileTree → FileTree → Prop where
  | file (content : Bytes) : Relisted (.file content) (.file content)
  | directory {entries others : List (String × FileTree)}
      (order : (entries.map Prod.fst).Perm (others.map Prod.fst))
      (inside : ∀ name child moved, (name, child) ∈ entries → (name, moved) ∈ others →
        Relisted child moved) : Relisted (.directory entries) (.directory others)

-- Two answers about one path: trees that differ in order alone, or the same error.
inductive Alike : Except ReadError FileTree → Except ReadError FileTree → Prop where
  | found {tree other : FileTree} (same : Relisted tree other) : Alike (.ok tree) (.ok other)
  | failed (cause : ReadError) : Alike (.error cause) (.error cause)

variable {tree other child : FileTree} {entries others : List (String × FileTree)} {name : String}
  {names : List String} {content : Bytes} {above aboves : List FileTree}

theorem Relisted.symm (same : Relisted tree other) : Relisted other tree := by
  induction same with
  | file content => exact .file content
  | directory order inside ih =>
    exact .directory order.symm fun name child moved here there => ih name moved child there here

theorem Leads.relisted (leads : Leads tree names content) (same : Relisted tree other) :
    Leads other names content := by
  induction leads generalizing other with
  | here content =>
    cases same
    exact .here content
  | entry listed rest ih =>
    cases same with
    | directory order inside =>
      obtain ⟨moved, member⟩ := exists_entry (order.subset (List.mem_map_of_mem listed))
      exact .entry member (ih (inside _ _ _ listed member))

theorem follow_relisted (components : List Component) (same : Relisted tree other)
    (around : List.Forall₂ Relisted above aboves) :
    Alike (follow above tree components) (follow aboves other components) := by
  induction components generalizing above aboves tree other with
  | nil => exact .found same
  | cons component components ih =>
    cases same with
    | file content => exact .failed _
    | @directory entries others order inside =>
      have here : Relisted (.directory entries) (.directory others) := .directory order inside
      cases component with
      | root | current => exact ih here around
      | parent =>
        cases around with
        | nil => exact ih here .nil
        | cons nearest around => exact ih nearest around
      | normal name =>
        simp only [follow, FileTree.isDirectory, if_true, FileTree.entries]
        cases read : entries.lookup name with
        | none =>
          have missing : others.lookup name = none := by
            rw [← Option.not_isSome_iff_eq_none, lookup_isSome, ← order.mem_iff]
            exact lookup_absent read
          rw [missing]
          exact .failed _
        | some child =>
          have present := order.mem_iff.mp (lookup_present read)
          obtain ⟨moved, there⟩ := Option.isSome_iff_exists.mp ((lookup_isSome _ _).mpr present)
          rw [there]
          exact ih (inside _ _ _ (mem_of_lookup read) (mem_of_lookup there)) (.cons here around)

end FileTree

theorem FileSystem.find_relisted {system : FileSystem} {other : FileTree}
    (same : FileTree.Relisted system.root other) (path : Path) :
    FileTree.Alike (system.find path) (FileSystem.find ⟨other, system.workingDirectory⟩ path) := by
  have answer : FileTree.Alike (system.atComponents path.components)
      (FileSystem.atComponents ⟨other, system.workingDirectory⟩ path.components) :=
    FileTree.follow_relisted _ same .nil
  rw [find, find]
  generalize system.atComponents path.components = here at answer ⊢
  generalize FileSystem.atComponents ⟨other, system.workingDirectory⟩ path.components = there
    at answer ⊢
  split
  · exact .failed _
  · cases answer with
    | failed cause => exact .failed cause
    | found same =>
      cases same with
      | directory order inside => exact .found (.directory order inside)
      | file content =>
        cases path.endsAsDirectory
        · exact .found (.file content)
        · exact .failed _

namespace Selection
open FileTree (Leads Relisted)
variable {skipped : String → Bool} {dir path : Path} {tree : FileTree}
  {entries : List (String × FileTree)} {name : String} {content : Bytes}

-- The path spells a file in the tree of a directory, and no name on the way to it is skipped.
def Selected (skipped : String → Bool) (dir : Path) (tree : FileTree) (path : Path) : Prop :=
  ∃ names content, Leads tree names content ∧ (∀ name ∈ names, skipped name = false) ∧
    names.foldl Path.join dir = path ∧ hasSqlExtension path = true

theorem selected_file :
    Selected skipped dir (.file content) path ↔ dir = path ∧ hasSqlExtension path = true := by
  constructor
  · rintro ⟨names, _, leads, _, spelled, sql⟩
    cases leads
    exact ⟨spelled, sql⟩
  · rintro ⟨spelled, sql⟩
    exact ⟨[], content, .here content, by simp, spelled, sql⟩

theorem selected_nil : ¬Selected skipped dir (.directory []) path := by
  rintro ⟨names, content, leads, _⟩
  cases leads with
  | entry listed => cases listed

theorem selected_cons : Selected skipped dir (.directory ((name, tree) :: entries)) path ↔
    (skipped name = false ∧ Selected skipped (dir.join name) tree path) ∨
      Selected skipped dir (.directory entries) path := by
  constructor
  · rintro ⟨names, content, leads, shown, spelled, sql⟩
    cases leads with
    | entry listed rest =>
      rcases List.mem_cons.mp listed with here | behind
      · cases here
        obtain ⟨first, later⟩ := List.forall_mem_cons.mp shown
        exact .inl ⟨first, _, content, rest, later, spelled, sql⟩
      · exact .inr ⟨_, content, .entry behind rest, shown, spelled, sql⟩
  · rintro (⟨first, names, content, rest, later, spelled, sql⟩ |
      ⟨names, content, leads, shown, spelled, sql⟩)
    · exact ⟨name :: names, content, .entry List.mem_cons_self rest,
        List.forall_mem_cons.mpr ⟨first, later⟩, spelled, sql⟩
    · cases leads with
      | entry listed rest =>
        exact ⟨_, content, .entry (List.mem_cons_of_mem _ listed) rest, shown, spelled, sql⟩

theorem mem_single : path ∈ (if hasSqlExtension dir then [dir] else []) ↔
    dir = path ∧ hasSqlExtension path = true := by
  constructor
  · intro member
    split at member
    · rename_i sql
      obtain rfl := List.mem_singleton.mp member
      exact ⟨rfl, sql⟩
    · cases member
  · rintro ⟨rfl, sql⟩
    rw [if_pos sql]
    exact List.mem_cons_self

-- What a directory gives, by recursion on its entries and on the directories among them.
theorem mem_below (skipped : String → Bool) (path : Path) :
    (dir : Path) → (entries : List (String × FileTree)) →
      (path ∈ below skipped dir entries ↔ Selected skipped dir (.directory entries) path)
  | dir, [] => iff_of_false (by simp [below]) selected_nil
  | dir, (name, .file content) :: rest => by
    rw [below, List.mem_append, mem_below skipped path dir rest, selected_cons, selected_file]
    cases skipped name with
    | true => simp
    | false => simp only [Bool.false_eq_true, if_false, true_and, mem_single]
  | dir, (name, .directory inner) :: rest => by
    rw [below, List.mem_append, mem_below skipped path dir rest, selected_cons]
    cases skipped name with
    | true => simp
    | false => simp [mem_below skipped path (dir.join name) inner]

-- A name that is passed over: a hidden one, or one that a well-formed pattern matches.
inductive Skipped (settings : Settings) (name : String) : Prop where
  | hidden (dot : name.toList.head? = some '.')
  | excluded {pattern : String} {tokens : List Glob.Token} (given : pattern ∈ settings.exclude)
      (valid : Glob.parse? pattern = some tokens)
      (matched : Glob.matchTokens tokens name.toList = true)

theorem isSkipped_iff (settings : Settings) (name : String) :
    isSkipped (patterns settings) name = true ↔ Skipped settings name := by
  rw [isSkipped, Bool.or_eq_true, beq_iff_eq, List.any_eq_true]
  constructor
  · rintro (dot | ⟨tokens, listed, matched⟩)
    · exact .hidden dot
    · obtain ⟨pattern, given, valid⟩ := List.mem_filterMap.mp listed
      exact .excluded given valid matched
  · intro skipped
    cases skipped with
    | hidden dot => exact .inl dot
    | excluded given valid matched =>
      exact .inr ⟨_, List.mem_filterMap.mpr ⟨_, given, valid⟩, matched⟩

-- What an input stands for. Only names below a directory can be skipped, never the input.
inductive Yields (system : FileSystem) (settings : Settings) (input : Path) : Path → Prop where
  | file {content : Bytes} (found : system.find input = .ok (.file content))
      (sql : SqlNamed input) : Yields system settings input input
  | missing {cause : ReadError} (absent : system.find input = .error cause) :
      Yields system settings input input
  | inside {entries : List (String × FileTree)} {names : List String} {content : Bytes}
      (found : system.find input = .ok (.directory entries))
      (leads : Leads (.directory entries) names content)
      (shown : ∀ name ∈ names, ¬Skipped settings name)
      (sql : SqlNamed (names.foldl Path.join input)) :
      Yields system settings input (names.foldl Path.join input)

variable {system : FileSystem} {settings : Settings} {input : Path} {inputs others : List Path}
  {other : FileTree}

theorem mem_ofInput :
    path ∈ ofInput system (patterns settings) input ↔ Yields system settings input path := by
  have shown : ∀ name, isSkipped (patterns settings) name = false ↔ ¬Skipped settings name := by
    intro name
    rw [← isSkipped_iff, Bool.not_eq_true]
  constructor
  · intro member
    rw [ofInput] at member
    split at member
    · rename_i content found
      obtain ⟨rfl, sql⟩ := mem_single.mp member
      exact .file found ((hasSqlExtension_iff _).mp sql)
    · rename_i entries found
      obtain ⟨names, content, leads, plain, rfl, sql⟩ := (mem_below _ _ _ _).mp member
      exact .inside found leads (fun name listed => (shown name).mp (plain name listed))
        ((hasSqlExtension_iff _).mp sql)
    · rename_i cause absent
      obtain rfl := List.mem_singleton.mp member
      exact .missing absent
  · intro yields
    cases yields with
    | file found sql =>
      rw [ofInput, found]
      exact mem_single.mpr ⟨rfl, (hasSqlExtension_iff _).mpr sql⟩
    | missing absent =>
      rw [ofInput, absent]
      exact List.mem_cons_self
    | inside found leads plain sql =>
      rw [ofInput, found]
      exact (mem_below _ _ _ _).mpr ⟨_, _, leads,
        fun name listed => (shown name).mpr (plain name listed), rfl,
        (hasSqlExtension_iff _).mpr sql⟩

theorem Yields.relisted (yields : Yields system settings input path)
    (same : Relisted system.root other) :
    Yields ⟨other, system.workingDirectory⟩ settings input path := by
  have answer := FileSystem.find_relisted same input
  generalize moved : FileSystem.find ⟨other, system.workingDirectory⟩ input = result at answer
  cases yields with
  | file found sql =>
    rw [found] at answer
    rcases answer with ⟨⟨_⟩⟩
    exact .file moved sql
  | missing absent =>
    rw [absent] at answer
    cases answer
    exact .missing moved
  | inside found leads shown sql =>
    rw [found] at answer
    cases answer with
    | found same =>
      cases same with
      | directory order within =>
        exact .inside moved (leads.relisted (.directory order within)) shown sql

theorem yields_relisted (same : Relisted system.root other) :
    Yields ⟨other, system.workingDirectory⟩ settings input path ↔
      Yields system settings input path :=
  ⟨fun yields => yields.relisted same.symm, fun yields => yields.relisted same⟩

-- Up to equality of paths, exactly what the inputs stand for is listed.
theorem mem_paths (components : List Component) :
    components ∈ (paths system settings inputs).map Path.components ↔
      ∃ input ∈ inputs, ∃ path, Yields system settings input path ∧
        path.components = components := by
  rw [List.mem_map]
  constructor
  · rintro ⟨path, listed, rfl⟩
    obtain ⟨input, given, found⟩ := paths_found listed
    exact ⟨input, given, path, mem_ofInput.mp found, rfl⟩
  · rintro ⟨input, given, path, yields, rfl⟩
    exact paths_covers given (mem_ofInput.mpr yields)

-- A strictly increasing list is known by its members.
theorem paths_determined {systems : FileSystem}
    (same : ∀ path, (∃ input ∈ others, Yields systems settings input path) ↔
      ∃ input ∈ inputs, Yields system settings input path) :
    (paths systems settings others).map Path.components =
      (paths system settings inputs).map Path.components := by
  have increasing (system : FileSystem) (inputs : List Path) :
      ((paths system settings inputs).map Path.components).Pairwise Component.Earlier :=
    List.pairwise_map.mpr (paths_increasing system settings inputs)
  refine (increasing systems others).eq_of_mem_iff (increasing system inputs) fun components => ?_
  rw [mem_paths, mem_paths]
  constructor
  · rintro ⟨input, given, path, yields, spelled⟩
    obtain ⟨input, given, yields⟩ := (same path).mp ⟨input, given, yields⟩
    exact ⟨input, given, path, yields, spelled⟩
  · rintro ⟨input, given, path, yields, spelled⟩
    obtain ⟨input, given, yields⟩ := (same path).mpr ⟨input, given, yields⟩
    exact ⟨input, given, path, yields, spelled⟩

-- The list of paths: its order, its members up to equality of paths, and what it does not
-- depend on.
structure Selects (system : FileSystem) (settings : Settings) (inputs : List Path) : Prop where
  increasing : (paths system settings inputs).Pairwise fun a b =>
    Component.Earlier a.components b.components
  sound : ∀ path ∈ paths system settings inputs, ∃ input ∈ inputs,
    Yields system settings input path
  complete : ∀ input ∈ inputs, ∀ path, Yields system settings input path →
    ∃ listed ∈ paths system settings inputs, listed.components = path.components
  reordered : ∀ others : List Path, (∀ input, input ∈ others ↔ input ∈ inputs) →
    (paths system settings others).map Path.components =
      (paths system settings inputs).map Path.components
  relisted : ∀ other : FileTree, Relisted system.root other →
    (paths ⟨other, system.workingDirectory⟩ settings inputs).map Path.components =
      (paths system settings inputs).map Path.components

theorem paths_select (system : FileSystem) (settings : Settings) (inputs : List Path) :
    Selects system settings inputs where
  increasing := paths_increasing system settings inputs
  sound path listed := by
    obtain ⟨input, given, found⟩ := paths_found listed
    exact ⟨input, given, mem_ofInput.mp found⟩
  complete input given path yields := paths_covers given (mem_ofInput.mpr yields)
  reordered others same := by
    refine paths_determined fun path => ?_
    simp only [same]
  relisted other same := by
    refine paths_determined fun path => ?_
    simp only [yields_relisted same]

end Selection
end InsertBatch
