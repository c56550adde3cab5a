import InsertBatch.Proofs.ConfigSearch
import Mathlib.Data.List.Find

namespace InsertBatch

namespace Config

-- The options of a file that is shared with other tools, if it has a table of them.
def sectionOf? (document : Toml.Table) : Option Toml.Table :=
  ((document.lookup "tool").bind Toml.Value.asTable?).bind fun tool =>
    (tool.lookup "sqlrewrite").bind Toml.Value.asTable?

-- A well-formed file without such a table. It belongs to other tools alone.
def isForeign : FileTree → Bool
  | .file content =>
    (content.toString?.bind Toml.parse?).any fun document => (sectionOf? document).isNone
  | .directory _ => false

def keepsOwn (name : String) (tree : FileTree) : Bool := !(name == sharedName && isForeign tree)

end Config

namespace FileTree
open Config (sharedName isForeign keepsOwn)
variable {entries : List (String × FileTree)} {name : String}

mutual

-- The tree without the shared files that belong to other tools alone. An entry is what its
-- name leads to.
def withoutForeign : FileTree → FileTree
  | .file content => .file content
  | .directory entries =>
    .directory (entriesWithoutForeign ((entries.lookup sharedName).any isForeign) entries)

def entriesWithoutForeign (removing : Bool) : List (String × FileTree) → List (String × FileTree)
  | [] => []
  | (name, tree) :: rest =>
    if removing && name == sharedName then entriesWithoutForeign removing rest
    else (name, withoutForeign tree) :: entriesWithoutForeign removing rest

end

theorem lookup_entriesWithoutForeign (removing : Bool) (entries : List (String × FileTree))
    (name : String) :
    (entriesWithoutForeign removing entries).lookup name =
      if removing && name == sharedName then none
      else (entries.lookup name).map withoutForeign := by
  induction entries with
  | nil => simp [entriesWithoutForeign]
  | cons entry entries ih =>
    obtain ⟨first, tree⟩ := entry
    rw [entriesWithoutForeign, List.lookup_cons]
    cases removed : removing && first == sharedName with
    | true =>
      -- Other names pass a removed entry by anyway.
      rw [if_pos rfl, ih]
      obtain ⟨rfl, shared⟩ := Bool.and_eq_true_iff.mp removed
      obtain rfl := eq_of_beq shared
      cases other : name == sharedName <;> simp
    | false =>
      rw [if_neg Bool.false_ne_true, List.lookup_cons, ih]
      cases here : name == first with
      | false => rfl
      | true =>
        obtain rfl := eq_of_beq here
        simp [removed]

theorem withoutForeign_edits : Edits withoutForeign keepsOwn where
  isDirectory := by
    intro tree
    cases tree <;> simp [withoutForeign, isDirectory]
  lookup := by
    intro tree name
    cases tree with
    | file content => simp [withoutForeign, FileTree.entries]
    | directory entries =>
      simp only [withoutForeign, FileTree.entries, lookup_entriesWithoutForeign]
      cases shared : name == sharedName with
      | false =>
        cases entries.lookup name <;> simp [Option.filter_some, keepsOwn, shared]
      | true =>
        obtain rfl := eq_of_beq shared
        cases read : entries.lookup sharedName with
        | none => simp
        | some tree => cases foreign : isForeign tree <;> simp [Option.filter_some, keepsOwn, foreign]
  directories := by
    intro name entries
    simp [keepsOwn, isForeign]

theorem contentOf_withoutForeign (tree : FileTree) :
    FileSystem.contentOf (.ok (withoutForeign tree)) = FileSystem.contentOf (.ok tree) := by
  cases tree <;> rfl

end FileTree

namespace Config
open FileTree (withoutForeign withoutForeign_edits)
variable {system : FileSystem} {inputs : List Path} {input : Path} {file dir : List Component}
  {tree : FileTree}

-- The search starts where it did, since directories stay.
theorem startOf_edit {change : FileTree → FileTree} {keeps : String → FileTree → Bool}
    (edits : FileTree.Edits change keeps) (system : FileSystem) (input : Path) :
    startOf (system.edit change) input = startOf system input := by
  have same := FileTree.any_directory_edit edits (system.start input.components)
    (system.find input).toOption
  rw [← FileSystem.find_edit edits] at same
  by_cases directory : ∃ entries, system.find input = .ok (.directory entries)
  · have there := (FileTree.exists_directory _).mp directory
    rw [← same] at there
    obtain ⟨entries, found⟩ := directory
    obtain ⟨edited, present⟩ := (FileTree.exists_directory _).mpr there
    rw [startOf_directory found, startOf_directory present]
  · have nowhere : ¬∃ entries, (system.edit change).find input = .ok (.directory entries) := by
      rw [FileTree.exists_directory, same, ← FileTree.exists_directory]
      exact directory
    rw [startOf_other (not_exists.mp directory), startOf_other (not_exists.mp nowhere)]

theorem searched_edit {change : FileTree → FileTree} {keeps : String → FileTree → Bool}
    (edits : FileTree.Edits change keeps) (system : FileSystem) (inputs : List Path) :
    searched (system.edit change) inputs = searched system inputs := by
  have same : startOf (system.edit change) = startOf system := funext (startOf_edit edits system)
  rw [searched, searched, same]

-- The configuration files beside and above the inputs, as the search meets them.
def existing (system : FileSystem) (inputs : List Path) : List (List Component) :=
  ((searched system inputs).flatMap candidates).filter fun file =>
    (system.atComponents file).toOption.isSome

-- A file that is shared with other tools and has no options.
def isForeignAt (system : FileSystem) (file : List Component) : Bool :=
  file.getLast? == some (.normal sharedName) && (system.atComponents file).toOption.any isForeign

theorem find?_existing (system : FileSystem) (inputs : List Path) :
    find? system inputs = (existing system inputs).head? := List.head?_filter.symm

theorem atComponents_withoutForeign (system : FileSystem) (offered : file ∈ candidates dir) :
    ((system.edit withoutForeign).atComponents file).toOption =
      if isForeignAt system file then none
      else (system.atComponents file).toOption.map withoutForeign := by
  obtain ⟨name, _, rfl⟩ := mem_candidates.mp offered
  rw [FileSystem.atComponents_entry_edit withoutForeign_edits, isForeignAt, List.getLast?_concat]
  cases (system.atComponents (dir ++ [.normal name])).toOption with
  | none => simp
  | some tree =>
    by_cases shared : name = sharedName <;> cases foreign : isForeign tree <;>
      simp [Option.filter_some, keepsOwn, shared, foreign]

theorem find?_withoutForeign (system : FileSystem) (inputs : List Path) :
    find? (system.edit withoutForeign) inputs =
      (existing system inputs).find? fun file => !isForeignAt system file := by
  rw [find?, searched_edit withoutForeign_edits, existing, List.find?_filter]
  apply List.find?_congr
  intro file member
  obtain ⟨dir, _, offered⟩ := List.mem_flatMap.mp member
  rw [atComponents_withoutForeign system offered]
  cases isForeignAt system file <;> simp

theorem readComponents_withoutForeign (offered : file ∈ candidates dir)
    (present : (system.atComponents file).toOption.isSome)
    (kept : isForeignAt system file = false) :
    (system.edit withoutForeign).readComponents file = system.readComponents file := by
  have found := atComponents_withoutForeign system offered
  rw [kept, if_neg Bool.false_ne_true] at found
  rw [FileSystem.readComponents, FileSystem.readComponents]
  cases read : system.atComponents file with
  | error cause =>
    rw [read] at present
    cases present
  | ok tree =>
    cases edited : (system.edit withoutForeign).atComponents file with
    | error cause =>
      rw [read, edited] at found
      cases found
    | ok other =>
      rw [read, edited] at found
      obtain rfl := Option.some.inj found
      exact FileTree.contentOf_withoutForeign tree

-- Such a file gives the defaults when it is read.
theorem ofContent_foreign (foreign : isForeign tree = true) :
    ofContent false (FileSystem.contentOf (.ok tree)) = .ok {} := by
  cases tree with
  | directory entries => cases foreign
  | file content =>
    cases decoded : content.toString? with
    | none => simp [isForeign, decoded] at foreign
    | some text =>
      cases parsed : Toml.parse? text with
      | none => simp [isForeign, decoded, parsed] at foreign
      | some document =>
        have nothing : optionsIn false document = [] := by
          have missing : sectionOf? document = none := by
            simpa [isForeign, decoded, parsed] using foreign
          change (sectionOf? document).getD [] = []
          rw [missing]
          rfl
        have content_ok : FileSystem.contentOf (.ok (.file content)) = .ok content := by
          rw [FileSystem.contentOf, decoded]
          rfl
        rw [content_ok, ofContent, decoded]
        simp only [parsed, nothing]
        simp [entriesOf, lastOfEach, Settings.assign]

theorem isForeignAt_parts (foreign : isForeignAt system file = true) :
    file.getLast? = some (.normal sharedName) ∧
      ∃ tree, system.atComponents file = .ok tree ∧ isForeign tree = true := by
  obtain ⟨named, inside⟩ := Bool.and_eq_true_iff.mp foreign
  refine ⟨eq_of_beq named, ?_⟩
  cases read : system.atComponents file with
  | error cause =>
    rw [read] at inside
    cases inside
  | ok tree =>
    rw [read] at inside
    exact ⟨tree, rfl, inside⟩

-- The first configuration file that the search meets belongs to other tools alone.
def stopsShort (system : FileSystem) (inputs : List Path) : Bool :=
  (find? system inputs).any (isForeignAt system)

-- Shared files without options change nothing, unless the search meets one before any
-- other configuration file. It ends there, and the defaults are taken over whatever lies
-- further up or is the user's own.
theorem load_withoutForeign (system : FileSystem) (userFile : Option Bytes)
    (inputs : List Path) :
    load system userFile inputs none =
      if stopsShort system inputs then .ok {}
      else load (system.edit withoutForeign) userFile inputs none := by
  have before := find?_existing system inputs
  have after := find?_withoutForeign system inputs
  cases met : existing system inputs with
  | nil =>
    rw [met] at before after
    simp only [stopsShort, load, before, after]
    rfl
  | cons file others =>
    rw [met] at before after
    have member : file ∈ existing system inputs := met ▸ List.mem_cons_self
    obtain ⟨listed, present⟩ := List.mem_filter.mp member
    obtain ⟨dir, _, offered⟩ := List.mem_flatMap.mp listed
    have stops : stopsShort system inputs = isForeignAt system file := by
      rw [stopsShort, before]
      rfl
    rw [stops]
    by_cases foreign : isForeignAt system file = true
    · obtain ⟨named, tree, read, inside⟩ := isForeignAt_parts foreign
      have other : (file.getLast? == some (.normal ownName)) = false := by
        rw [named]
        decide +kernel
      simp only [load, before, List.head?_cons]
      rw [if_pos foreign, other, FileSystem.readComponents, read, ofContent_foreign inside]
    · rw [if_neg foreign]
      rw [Bool.not_eq_true] at foreign
      rw [List.find?_cons_of_pos (by simp [foreign])] at after
      simp only [load, before, after, List.head?_cons,
        readComponents_withoutForeign offered present foreign]

-- The options above a file of other tools are lost.
theorem load_foreign_between :
    let system : FileSystem :=
      ⟨.directory [("sqlrewrite.toml", .file (Bytes.ofString "no_backslash_escapes = true\n")),
        ("a", .directory [("pyproject.toml", .file (Bytes.ofString "[project]\nname = \"a\"\n")),
          ("x.sql", .file [])])], []⟩
    load system none [⟨"a/x.sql"⟩] none = .ok {} ∧
      load (system.edit withoutForeign) none [⟨"a/x.sql"⟩] none =
        .ok { rawBackslash := true } := by
  decide +kernel

end Config
end InsertBatch
